import Koshi.Config.Proof.Conflict
import Koshi.Viewer.KeyResolution

/-!
# What a run of key resolution keeps

Between two calls an open sequence is a strict prefix of some binding and holds exactly the chords typed into it;
every call fires the binding of what was typed, and never types a key at the pane while a sequence is open.
-/

namespace Koshi.Config

open Koshi.Core
open Std

def KeymapHintCatalog.longestBindingLength (catalog : KeymapHintCatalog) (lockMode : LockMode) : Nat :=
  match catalog.mergedKeymap.modeKeymapByName[lockMode.getKeymapName]? with
  | none => 0
  | some modeKeymap =>
    ((modeKeymap.userBindingsByKeySequence.keys ++ modeKeymap.defaultBindingsByKeySequence.keys).map
      fun keys => keys.chords.length).foldr max 0

theorem KeymapHintCatalog.length_le_longestBindingLength {catalog : KeymapHintCatalog} {lockMode : LockMode}
    {keys : KeySequence} (h : catalog.Binds lockMode keys) :
    keys.chords.length ≤ catalog.longestBindingLength lockMode := by
  obtain ⟨modeKeymap, hmd, hbinds⟩ := h
  rw [longestBindingLength, hmd]
  have hm : keys ∈ modeKeymap.userBindingsByKeySequence.keys ++ modeKeymap.defaultBindingsByKeySequence.keys := by
    rw [List.mem_append, ExtTreeMap.mem_keys, ExtTreeMap.mem_keys]
    exact hbinds
  exact List.le_max_of_le (List.mem_map_of_mem hm) le_rfl

end Koshi.Config

namespace Koshi.Viewer

open Koshi.Core Config

/-! ### What one call can do -/

@[simp] theorem extendSequence_chords (opened : Option PendingKeySequence) (chord : KeyChord) :
    (extendSequence opened chord).chords = (opened.map (·.sequence.chords)).getD [] ++ [chord] := by
  cases opened <;> rfl

variable {fired : Option BoundAction} {now : Nat}

namespace Client

variable {client : Client}

/-- A fired sequence is re-opened without its last chord, if its action is continuous, or nothing is open. -/
theorem rearmPrefix_cases (client : Client) (boundAction : BoundAction) (keys : KeySequence) (hint : Option Nat) :
    client.rearmContinuousSequencePrefix boundAction keys hint = client ∨
      (client.registry.findActionMetadata boundAction.actionReference).any ActionMetadata.isContinuous = true ∧
        ∃ reopened : KeySequence, reopened.chords = keys.chords.dropLast ∧
          client.rearmContinuousSequencePrefix boundAction keys hint =
            { client with pendingKeySequence := some ⟨reopened, none, hint⟩ } := by
  unfold rearmContinuousSequencePrefix
  split_ifs with hcontinuous
  · split
    · rename_i first second rest hchords
      refine Or.inr ⟨hcontinuous, _, ?_, rfl⟩
      rw [hchords]
      rfl
    · exact Or.inl rfl
  · exact Or.inl rfl

/-- The keymap does not take the chord after the open sequence. -/
def Discards (client : Client) (opened : Option PendingKeySequence) (chord : KeyChord) : Prop :=
  ¬TakesChords client.keymapCatalog client.activeInputMode (extendSequence opened chord).chords

/-- What a chord does past the unlock check. -/
inductive MatchedKey (client : Client) (opened : Option PendingKeySequence) (chord : KeyChord) :
    KeyOutcome → Client → Prop
  | fire (boundAction : BoundAction) (hint : Option Nat)
      (hexact : (client.keymapCatalog.matchSequence client.activeInputMode
        (extendSequence opened chord)).exactBoundAction = some boundAction) :
      MatchedKey client opened chord (.fire boundAction)
        (client.rearmContinuousSequencePrefix boundAction (extendSequence opened chord) hint)
  | extend (deadline hint : Option Nat)
      (hlonger : (client.keymapCatalog.matchSequence client.activeInputMode
        (extendSequence opened chord)).hasLongerKeySequence = true)
      (hdeadline : deadline ≠ none → (client.keymapCatalog.matchSequence client.activeInputMode
        (extendSequence opened chord)).exactBoundAction.isSome = true) :
      MatchedKey client opened chord .pending
        { client with pendingKeySequence := some ⟨extendSequence opened chord, deadline, hint⟩ }
  | leave (held : PendingKeySequence) (hheld : opened = some held) (hescape : chord = escapeKeyChord)
      (hlost : client.Discards opened chord) : MatchedKey client opened chord .pending client
  | drop (held : PendingKeySequence) (hheld : opened = some held) (hescape : chord ≠ escapeKeyChord)
      (hlost : client.Discards opened chord) :
      MatchedKey client opened chord .pending { client with pendingKeySequence := some held }
  | type (hnone : opened = none) (hlost : client.Discards opened chord) :
      MatchedKey client opened chord (.passThrough chord) client
  | discard (hnone : opened = none) (hlost : client.Discards opened chord) :
      MatchedKey client opened chord .discard client

theorem resolveMatchedKey_cases (client : Client) (opened : Option PendingKeySequence) (chord : KeyChord) (now : Nat) :
    MatchedKey client opened chord (client.resolveMatchedKey opened chord now).1
      (client.resolveMatchedKey opened chord now).2 := by
  unfold resolveMatchedKey
  dsimp only
  cases hexact : (client.keymapCatalog.matchSequence client.activeInputMode
      (extendSequence opened chord)).exactBoundAction with
  | some boundAction =>
    cases hlonger : (client.keymapCatalog.matchSequence client.activeInputMode
        (extendSequence opened chord)).hasLongerKeySequence with
    | false => exact .fire boundAction _ hexact
    | true => exact .extend _ _ hlonger fun _ => by rw [hexact]; rfl
  | none =>
    cases hlonger : (client.keymapCatalog.matchSequence client.activeInputMode
        (extendSequence opened chord)).hasLongerKeySequence with
    | true => exact .extend _ _ hlonger fun hdl => absurd rfl hdl
    | false =>
      have hlost : client.Discards opened chord := by
        rw [Discards, takesChords_iff, hexact, hlonger]
        simp
      cases opened with
      | some held =>
        by_cases hescape : chord = escapeKeyChord
        · simp only [hescape, if_true]
          exact .leave held rfl rfl (hescape ▸ hlost)
        · simp only [hescape, if_false]
          exact .drop held rfl hescape hlost
      | none =>
        cases hpass : client.activeInputMode.shouldPassUnboundInputToPane with
        | true => exact .type rfl hlost
        | false => exact .discard rfl hlost

inductive ResolvedKey (client : Client) (chord : KeyChord) : KeyOutcome → Client → Prop
  | dropMove (hescape : chord = escapeKeyChord) (hdrag : client.hasFloatingPaneMoveDrag = true) :
      ResolvedKey client chord .discard { client with pendingKeySequence := none, hasFloatingPaneMoveDrag := false }
  | unlock (hlocked : client.activeInputMode = .locked) (hunlock : chord = client.keymapCatalog.unlockChord) :
      ResolvedKey client chord (.fire unlockBoundAction) { client with pendingKeySequence := none }
  | matched {outcome : KeyOutcome} {next : Client}
      (hdrag : ¬(chord = escapeKeyChord ∧ client.hasFloatingPaneMoveDrag = true))
      (hunlock : ¬(client.activeInputMode = .locked ∧ chord = client.keymapCatalog.unlockChord))
      (h : MatchedKey { client with pendingKeySequence := none } client.pendingKeySequence chord outcome next) :
      ResolvedKey client chord outcome next

theorem resolveKey_cases (client : Client) (chord : KeyChord) (now : Nat) :
    ResolvedKey client chord (client.resolveKey chord now).1 (client.resolveKey chord now).2 := by
  unfold resolveKey
  split_ifs with hdrag hunl
  · exact .dropMove hdrag.1 hdrag.2
  · exact .unlock hunl.1 hunl.2
  · exact .matched hdrag hunl (resolveMatchedKey_cases _ _ _ _)

inductive ExpiredKey (client : Client) (now : Nat) : Option BoundAction → Client → Prop
  | fire (held : PendingKeySequence) (boundAction : BoundAction) (hheld : client.pendingKeySequence = some held)
      (hexact : (client.keymapCatalog.matchSequence client.activeInputMode held.sequence).exactBoundAction =
        some boundAction) :
      ExpiredKey client now (some boundAction)
        ((({ client with pendingKeySequence := none } : Client).rearmContinuousSequencePrefix boundAction held.sequence
          held.continuationHintHiddenUntil).showDueHint now)
  | retire (held : PendingKeySequence) (hheld : client.pendingKeySequence = some held)
      (hdeadline : held.ambiguityDeadline ≠ none)
      (hunbound : ¬client.keymapCatalog.Binds client.activeInputMode held.sequence) :
      ExpiredKey client now none ({ client with pendingKeySequence := none } : Client)
  | wait : ExpiredKey client now none (client.showDueHint now)

theorem expireKeys_cases (client : Client) (now : Nat) :
    ExpiredKey client now (client.expireKeySequence now).1 (client.expireKeySequence now).2 := by
  unfold expireKeySequence
  cases hh : client.pendingKeySequence with
  | none => exact .wait
  | some held =>
    dsimp only
    split_ifs with hdue
    · cases hexact : (client.keymapCatalog.matchSequence client.activeInputMode held.sequence).exactBoundAction with
      | some boundAction => exact .fire held boundAction hh hexact
      | none =>
        refine .retire held hh (fun hnone => ?_) fun hbound => ?_
        · rw [hnone] at hdue
          exact absurd hdue (by simp)
        · rw [← KeymapHintCatalog.isSome_exactBoundAction_iff, hexact] at hbound
          exact absurd hbound (by simp)
    · exact .wait

/-! ### What no call changes -/

def context (client : Client) : KeymapHintCatalog × ActionRegistry × LockMode :=
  (client.keymapCatalog, client.registry, client.activeInputMode)

@[simp] theorem context_showDueHint (client : Client) (now : Nat) :
    (client.showDueHint now).context = client.context := rfl

@[simp] theorem context_rearmPrefix (client : Client) (boundAction : BoundAction) (keys : KeySequence)
    (hint : Option Nat) :
    (client.rearmContinuousSequencePrefix boundAction keys hint).context = client.context := by
  rcases client.rearmPrefix_cases boundAction keys hint with h | ⟨_, reopened, _, h⟩
  · rw [h]
  · rw [h]
    rfl

variable {opened : Option PendingKeySequence}

theorem MatchedKey.context_eq (h : MatchedKey client opened chord outcome next) : next.context = client.context := by
  cases h with
  | fire boundAction hint _ => exact context_rearmPrefix ..
  | extend | leave | drop | type | discard => rfl

theorem ResolvedKey.context_eq (h : ResolvedKey client chord outcome next) : next.context = client.context := by
  cases h with
  | dropMove | unlock => rfl
  | matched _ _ h => exact h.context_eq

theorem ExpiredKey.context_eq (h : ExpiredKey client now fired next) : next.context = client.context := by
  cases h with
  | fire held boundAction _ _ =>
    rw [context_showDueHint, context_rearmPrefix]
    rfl
  | retire | wait => rfl

theorem context_call (client : Client) (call : KeyCall) : (client.call call).2.context = client.context := by
  cases call with
  | resolveKey chord now => exact (client.resolveKey_cases chord now).context_eq
  | expireKeySequence now => exact (client.expireKeys_cases now).context_eq
  | setFloatingPaneMoveDrag isHeld => rfl

/-! ### The open sequence -/

/-- An open sequence opens some binding, and waits with a deadline only if it is bound itself. -/
structure OpenSound (catalog : KeymapHintCatalog) (lockMode : LockMode) (held : PendingKeySequence) : Prop where
  extended : ∃ longer, catalog.Binds lockMode longer ∧ longer.StrictlyExtends held.sequence
  deadline : held.ambiguityDeadline ≠ none → catalog.Binds lockMode held.sequence

variable {catalog : KeymapHintCatalog} {lockMode : LockMode}

variable {chord : KeyChord} {outcome : KeyOutcome} {next : Client} {keys : KeySequence} {boundAction : BoundAction}
  {held : PendingKeySequence}

theorem openSound_reopened {reopened : KeySequence} (hint : Option Nat)
    (hexact : (catalog.matchSequence lockMode keys).exactBoundAction = some boundAction)
    (hreopened : reopened.chords = keys.chords.dropLast) : OpenSound catalog lockMode ⟨reopened, none, hint⟩ where
  extended := by
    refine ⟨keys, (catalog.isSome_exactBoundAction_iff lockMode keys).1 (by rw [hexact]; rfl), ?_, ?_⟩
    · rw [hreopened]
      exact List.dropLast_prefix _
    · have hpos : 0 < keys.chords.length := List.length_pos_iff.2 keys.nonempty
      rw [hreopened, List.length_dropLast]
      omega
  deadline h := absurd rfl h

theorem OpenSound.showHint (h : OpenSound catalog lockMode held) (hint : Option Nat) :
    OpenSound catalog lockMode { held with continuationHintHiddenUntil := hint } := ⟨h.extended, h.deadline⟩

/-- After a binding fired, a sequence is open only if its action is continuous: what fired, without its last chord. -/
theorem pending_rearmPrefix {client : Client} {hint : Option Nat} (hnone : client.pendingKeySequence = none)
    (h : (client.rearmContinuousSequencePrefix boundAction keys hint).pendingKeySequence = some held) :
    (client.registry.findActionMetadata boundAction.actionReference).any ActionMetadata.isContinuous = true ∧
      ∃ reopened : KeySequence, reopened.chords = keys.chords.dropLast ∧ held = ⟨reopened, none, hint⟩ := by
  rcases client.rearmPrefix_cases boundAction keys hint with
    hs | ⟨hcontinuous, reopened, hchords, hn⟩
  · rw [hs, hnone] at h
    exact absurd h (Option.some_ne_none _).symm
  · rw [hn] at h
    exact ⟨hcontinuous, reopened, hchords, (Option.some.inj h).symm⟩

theorem pending_showDueHint {client : Client} (h : (client.showDueHint now).pendingKeySequence = some held) :
    ∃ before hint, client.pendingKeySequence = some before ∧
      held = { before with continuationHintHiddenUntil := hint } := by
  obtain ⟨before, hb, rfl⟩ := Option.map_eq_some_iff.1 h
  split_ifs
  · exact ⟨before, none, hb, rfl⟩
  · exact ⟨before, before.continuationHintHiddenUntil, hb, rfl⟩

/-- The open sequence of a viewer is sound. -/
def Sound (client : Client) : Prop :=
  ∀ held, client.pendingKeySequence = some held → OpenSound client.keymapCatalog client.activeInputMode held

theorem sound_of_none {client : Client} (h : client.pendingKeySequence = none) : client.Sound := by
  intro held hh
  rw [h] at hh
  exact absurd hh (Option.some_ne_none _).symm

theorem sound_rearm {client : Client} {hint : Option Nat} (hnone : client.pendingKeySequence = none)
    (hexact : (client.keymapCatalog.matchSequence client.activeInputMode keys).exactBoundAction = some boundAction) :
    (client.rearmContinuousSequencePrefix boundAction keys hint).Sound := by
  rcases client.rearmPrefix_cases boundAction keys hint with
    hs | ⟨_, reopened, hchords, hn⟩
  · rw [hs]
    exact sound_of_none hnone
  · rw [hn]
    intro held hh
    obtain rfl := Option.some.inj hh
    exact openSound_reopened hint hexact hchords

theorem Sound.showDueHint {client : Client} (h : client.Sound) (now : Nat) : (client.showDueHint now).Sound := by
  intro held hh
  obtain ⟨before, hint, hb, rfl⟩ := pending_showDueHint hh
  exact (h before hb).showHint hint

theorem MatchedKey.sound (hnone : client.pendingKeySequence = none)
    (hop : ∀ held, opened = some held → OpenSound client.keymapCatalog client.activeInputMode held)
    (h : MatchedKey client opened chord outcome next) : next.Sound := by
  cases h with
  | fire boundAction hint hexact => exact sound_rearm hnone hexact
  | extend deadline hint hlonger hdl =>
    intro held hh
    obtain rfl := Option.some.inj hh
    refine ⟨(KeymapHintCatalog.hasLongerKeys_iff _ _ _).1 hlonger, fun hset => ?_⟩
    exact (KeymapHintCatalog.isSome_exactBoundAction_iff _ _ _).1 (hdl hset)
  | drop held hh _ =>
    intro stillHeld hstill
    obtain rfl := Option.some.inj hstill
    exact hop held hh
  | leave | type | discard => exact sound_of_none hnone

theorem ResolvedKey.sound (hsn : client.Sound) (h : ResolvedKey client chord outcome next) : next.Sound := by
  cases h with
  | dropMove | unlock => exact sound_of_none rfl
  | matched _ _ h =>
    refine MatchedKey.sound ?_ ?_ h
    · rfl
    · exact hsn

theorem ExpiredKey.sound (hsn : client.Sound) (h : ExpiredKey client now fired next) : next.Sound := by
  cases h with
  | fire held boundAction hh hexact =>
    have hrearm : (({ client with pendingKeySequence := none } : Client).rearmContinuousSequencePrefix boundAction
        held.sequence held.continuationHintHiddenUntil).Sound := sound_rearm rfl hexact
    exact hrearm.showDueHint now
  | retire => exact sound_of_none rfl
  | wait => exact hsn.showDueHint now

/-- **Every call keeps the open sequence a strict prefix of some binding.** -/
theorem Sound.call {client : Client} (hsn : client.Sound) (call : KeyCall) : (client.call call).2.Sound := by
  cases call with
  | resolveKey chord now => exact (client.resolveKey_cases chord now).sound hsn
  | expireKeySequence now => exact (client.expireKeys_cases now).sound hsn
  | setFloatingPaneMoveDrag isHeld => exact hsn

/-! ### What is typed into it -/

theorem openChords_of_none {client : Client} (h : client.pendingKeySequence = none) : client.openChords = [] := by
  rw [openChords, h]
  rfl

theorem openChords_of_some {client : Client} (h : client.pendingKeySequence = some held) :
    client.openChords = held.sequence.chords := by
  rw [openChords, h]
  rfl

theorem openChords_showDueHint (client : Client) (now : Nat) :
    (client.showDueHint now).openChords = client.openChords := by
  cases hh : (client.showDueHint now).pendingKeySequence with
  | none => rw [openChords_of_none hh, openChords_of_none (Option.map_eq_none_iff.1 hh)]
  | some held =>
    obtain ⟨before, hint, hb, rfl⟩ := pending_showDueHint hh
    rw [openChords_of_some hh, openChords_of_some hb]

end Client

/-- What a fired action leaves open, the viewer and the run agree on. -/
theorem Client.openChords_rearm {client : Client} (hnone : client.pendingKeySequence = none) (boundAction : BoundAction)
    (keys : KeySequence) (hint : Option Nat) : (client.rearmContinuousSequencePrefix boundAction keys hint).openChords =
      (TypedChords.reopen client.registry boundAction keys.chords.dropLast).all := by
  unfold rearmContinuousSequencePrefix TypedChords.reopen
  split_ifs with hcontinuous
  · split
    · rename_i first second rest hchords
      rw [hchords]
      exact (List.append_nil _).symm
    · rename_i hshort
      rw [openChords_of_none hnone]
      obtain ⟨chords, nonempty⟩ := keys
      cases chords with
      | nil => rfl
      | cons first rest =>
        cases rest with
        | nil => rfl
        | cons second rest => exact absurd rfl (hshort first second rest)
  · exact openChords_of_none hnone

namespace TypedChords

variable {typed : TypedChords} {before after : Client} {fired : Option BoundAction} {now : Nat}

theorem all_resolveKey {chord : KeyChord} {outcome : KeyOutcome} (now : Nat) (htyped : typed.all = before.openChords)
    (h : Client.ResolvedKey before chord outcome after) :
    (typed.afterCall before (.resolveKey chord now) (.outcome outcome)).all = after.openChords := by
  have hkeys : (extendSequence before.pendingKeySequence chord).chords = typed.all ++ [chord] := by
    rw [extendSequence_chords, htyped]
    rfl
  cases h with
  | dropMove hescape hdrag =>
    simp only [afterCall, KeyReturn.fired, afterChord, if_pos (And.intro hescape hdrag)]
    rfl
  | unlock hlocked hunlock =>
    simp only [afterCall, KeyReturn.fired, if_pos (And.intro hlocked hunlock)]
    rfl
  | matched hdrag hunlock h =>
    cases h with
    | fire boundAction hint _ =>
      rw [Client.openChords_rearm rfl, hkeys, List.dropLast_concat]
      simp only [afterCall, KeyReturn.fired, if_neg hunlock]
    | extend deadline hint hlonger _ =>
      have htakes := (takesChords_iff _ _ _).2 (Or.inr hlonger)
      rw [hkeys] at htakes
      simp only [afterCall, KeyReturn.fired, afterChord, if_neg hdrag]
      rw [if_pos htakes, all, ← List.append_assoc]
      exact hkeys.symm
    | leave held hheld hescape hlost =>
      rw [Client.Discards, hkeys] at hlost
      simp only [afterCall, KeyReturn.fired, afterChord, if_neg hdrag]
      rw [if_neg hlost, if_pos hescape]
      rfl
    | drop held hheld hescape hlost =>
      rw [Client.Discards, hkeys] at hlost
      simp only [afterCall, KeyReturn.fired, afterChord, if_neg hdrag]
      rw [if_neg hlost, if_neg hescape, htyped, Client.openChords_of_some hheld]
      rfl
    | type hnone hlost | discard hnone hlost =>
      rw [Client.Discards, hkeys] at hlost
      rw [Client.openChords_of_none hnone] at htyped
      simp only [afterCall, KeyReturn.fired, afterChord, if_neg hdrag]
      rw [if_neg hlost]
      split_ifs
      · rfl
      · exact htyped

theorem all_expireKeySequence (htyped : typed.all = before.openChords) (hsound : before.Sound)
    (h : Client.ExpiredKey before now fired after) :
    (typed.afterCall before (.expireKeySequence now) (.expired fired)).all = after.openChords := by
  cases h with
  | fire held boundAction hh _ =>
    rw [Client.openChords_showDueHint, Client.openChords_rearm rfl, ← Client.openChords_of_some hh, ← htyped]
    rfl
  | retire held hh hdeadline hunbound => exact absurd ((hsound held hh).deadline hdeadline) hunbound
  | wait =>
    rw [Client.openChords_showDueHint]
    exact htyped

end TypedChords

/-! ### What a call returns -/

namespace Client

variable {client next : Client} {chord : KeyChord} {outcome : KeyOutcome}

variable {boundAction : BoundAction}

theorem ResolvedKey.ne_passThrough (hop : client.pendingKeySequence ≠ none) (h : ResolvedKey client chord outcome next)
    (typedChord : KeyChord) : outcome ≠ .passThrough typedChord := by
  rintro rfl
  cases h with
  | matched _ _ h =>
    cases h with
    | type hnone => exact hop hnone

theorem ResolvedKey.unlocks (hlocked : client.activeInputMode = .locked)
    (h : ResolvedKey client client.keymapCatalog.unlockChord outcome next) : next.pendingKeySequence = none ∧
      (client.keymapCatalog.unlockChord = escapeKeyChord ∧ client.hasFloatingPaneMoveDrag = true ∨
        outcome = .fire unlockBoundAction) := by
  cases h with
  | dropMove hescape hdrag => exact ⟨rfl, .inl ⟨hescape, hdrag⟩⟩
  | unlock => exact ⟨rfl, .inr rfl⟩
  | matched _ hunlock => exact absurd ⟨hlocked, rfl⟩ hunlock

theorem ResolvedKey.escape (h : ResolvedKey client escapeKeyChord outcome next) (hop : next.pendingKeySequence ≠ none) :
    client.keymapCatalog.Binds client.activeInputMode (extendSequence client.pendingKeySequence escapeKeyChord) ∨
      ∃ longer, client.keymapCatalog.Binds client.activeInputMode longer ∧
        longer.StrictlyExtends (extendSequence client.pendingKeySequence escapeKeyChord) := by
  cases h with
  | dropMove | unlock => exact absurd rfl hop
  | matched _ _ h =>
    cases h with
    | fire boundAction hint hexact =>
      exact Or.inl ((KeymapHintCatalog.isSome_exactBoundAction_iff _ _ _).1 (Option.isSome_of_eq_some hexact))
    | extend deadline hint hlonger _ => exact Or.inr ((KeymapHintCatalog.hasLongerKeys_iff _ _ _).1 hlonger)
    | drop held _ hescape _ => exact absurd rfl hescape
    | leave | type | discard => exact absurd rfl hop

theorem ResolvedKey.firedExact (h : ResolvedKey client chord (.fire boundAction) next) :
    (client.activeInputMode = .locked ∧ chord = client.keymapCatalog.unlockChord ∧ boundAction = unlockBoundAction) ∨
      (client.keymapCatalog.matchSequence client.activeInputMode
        (extendSequence client.pendingKeySequence chord)).exactBoundAction = some boundAction := by
  cases h with
  | unlock hlocked hunl => exact Or.inl ⟨hlocked, hunl, rfl⟩
  | matched _ _ h =>
    cases h with
    | fire _ hint hexact => exact Or.inr hexact

theorem ResolvedKey.isContinuous (h : ResolvedKey client chord (.fire boundAction) next)
    (hop : next.pendingKeySequence ≠ none) :
    (client.registry.findActionMetadata boundAction.actionReference).any ActionMetadata.isContinuous = true := by
  obtain ⟨held, hh⟩ := Option.ne_none_iff_exists'.1 hop
  cases h with
  | unlock => exact absurd rfl hop
  | matched _ _ h =>
    cases h with
    | fire _ hint hexact => exact (pending_rearmPrefix rfl hh).1

theorem ExpiredKey.firedExact (h : ExpiredKey client now (some boundAction) next) :
    ∃ held, client.pendingKeySequence = some held ∧
      (client.keymapCatalog.matchSequence client.activeInputMode held.sequence).exactBoundAction =
        some boundAction := by
  cases h with
  | fire held _ hh hexact => exact ⟨held, hh, hexact⟩

theorem ExpiredKey.isContinuous {now : Nat} (h : ExpiredKey client now (some boundAction) next)
    (hop : next.pendingKeySequence ≠ none) :
    (client.registry.findActionMetadata boundAction.actionReference).any ActionMetadata.isContinuous = true := by
  obtain ⟨shown, hsh⟩ := Option.ne_none_iff_exists'.1 hop
  cases h with
  | fire held _ hh hexact =>
    obtain ⟨rearmed, hint, hrearmed, rfl⟩ := pending_showDueHint hsh
    exact (pending_rearmPrefix rfl hrearmed).1

end Client

theorem KeyReturn.fired_outcome {outcome : KeyOutcome} {boundAction : BoundAction}
    (h : (KeyReturn.outcome outcome).fired = some boundAction) : outcome = .fire boundAction := by
  cases outcome with
  | fire _ => rw [Option.some.inj h]
  | pending | passThrough _ | discard => exact absurd h (Option.some_ne_none _).symm

/-! ### Runs -/

namespace KeyWorld

/-- What every call keeps: the viewer's keymap and mode, a sound open sequence, and the chords typed into it. -/
structure Inv (catalog : KeymapHintCatalog) (registry : ActionRegistry) (lockMode : LockMode) (world : KeyWorld) :
    Prop where
  context : world.client.context = (catalog, registry, lockMode)
  sound : world.client.Sound
  typed : world.typed.all = world.client.openChords

variable {catalog : KeymapHintCatalog} {registry : ActionRegistry} {lockMode : LockMode} {world : KeyWorld}

theorem Inv.step (h : Inv catalog registry lockMode world) (call : KeyCall) :
    Inv catalog registry lockMode (world.step call) where
  context := (world.client.context_call call).trans h.context
  sound := h.sound.call call
  typed := by
    cases call with
    | resolveKey chord now =>
      exact TypedChords.all_resolveKey now h.typed (world.client.resolveKey_cases chord now)
    | expireKeySequence now =>
      exact TypedChords.all_expireKeySequence h.typed h.sound (world.client.expireKeys_cases now)
    | setFloatingPaneMoveDrag isHeld => exact h.typed

theorem Inv.run (h : Inv catalog registry lockMode world) (keyCalls : List KeyCall) :
    Inv catalog registry lockMode (world.run keyCalls) := by
  induction keyCalls generalizing world with
  | nil => exact h
  | cons call keyCalls ih => exact ih (h.step call)

theorem inv_start (hasMoveDrag : Bool) : Inv catalog registry lockMode (start catalog registry lockMode hasMoveDrag) :=
  ⟨rfl, Client.sound_of_none rfl, rfl⟩

/-! ### The statement -/

/-- What holds between two calls. -/
structure SequenceSound (catalog : KeymapHintCatalog) (lockMode : LockMode) (world : KeyWorld) : Prop where
  /-- An open sequence is a strict prefix of some binding of the mode. -/
  extended : ∀ held, world.client.pendingKeySequence = some held →
    ∃ longer, catalog.Binds lockMode longer ∧ longer.StrictlyExtends held.sequence
  /-- It is shorter than the longest binding. -/
  shorter : ∀ held, world.client.pendingKeySequence = some held →
    held.sequence.chords.length < catalog.longestBindingLength lockMode
  /-- It waits with a deadline only if it is a complete binding itself. -/
  deadline : ∀ held, world.client.pendingKeySequence = some held → held.ambiguityDeadline ≠ none →
    catalog.Binds lockMode held.sequence
  typed : world.client.openChords = world.typed.all

/-- The catalogs a viewer installs: with no alternative unlock chord, or with one the conflict check applies. -/
def IsInstalled (catalog : KeymapHintCatalog) (registry : ActionRegistry) : Prop :=
  ∃ unlockChord, catalog.unlockChord = resolveUnlockChord unlockChord ∧
    (unlockChord = none ∨ ∃ layers leader maximumChordDepth,
      (detectConflicts layers leader unlockChord maximumChordDepth registry).getVerdict = .apply)

theorem IsInstalled.unlockChord_ne {catalog : KeymapHintCatalog} {registry : ActionRegistry}
    (h : IsInstalled catalog registry) : catalog.unlockChord ≠ escapeKeyChord := by
  obtain ⟨unlockChord, hunlock, haccepted⟩ := h
  rw [hunlock]
  cases unlockChord with
  | none => decide
  | some chord =>
    obtain ⟨layers, leader, maximumChordDepth, hverdict⟩ := haccepted.resolve_left (Option.some_ne_none chord)
    intro hescape
    obtain rfl : chord = escapeKeyChord := hescape
    refine ConflictReport.not_fatal_of_apply hverdict (.unlockAlternativeTypeable escapeKeyChord) ?_ rfl
    have htypeable : escapeKeyChord.isTypeable = true := by decide
    simp [detectConflicts, htypeable]

/-- What holds of the next call, whichever it is. -/
structure CallSound (catalog : KeymapHintCatalog) (registry : ActionRegistry) (lockMode : LockMode) (world : KeyWorld)
    (call : KeyCall) : Prop where
  /-- No key is typed at the pane while a sequence is open. -/
  noPassThrough : world.client.pendingKeySequence ≠ none →
    ∀ chord, (world.client.call call).1 ≠ .outcome (.passThrough chord)
  /-- In locked mode the unlock chord leaves no sequence open, and it unlocks, unless it is Escape and gives up a held
  grab handle. -/
  unlock : lockMode = .locked → ∀ now, call = .resolveKey catalog.unlockChord now →
    (world.client.call call).2.pendingKeySequence = none ∧
      (catalog.unlockChord = escapeKeyChord ∧ world.client.hasFloatingPaneMoveDrag = true ∨
        (world.client.call call).1 = .outcome (.fire unlockBoundAction))
  /-- In a catalog a viewer installs the unlock chord is never Escape. -/
  unlockInstalled : IsInstalled catalog registry → catalog.unlockChord ≠ escapeKeyChord
  /-- Escape leaves a sequence open only if the sequence followed by Escape is bound or opens a binding. -/
  escape : ∀ now, call = .resolveKey escapeKeyChord now →
    (world.client.call call).2.pendingKeySequence ≠ none →
      ∃ keys : KeySequence, keys.chords = world.client.openChords ++ [escapeKeyChord] ∧
        (catalog.Binds lockMode keys ∨ ∃ longer, catalog.Binds lockMode longer ∧ longer.StrictlyExtends keys)
  /-- A chord fires the binding of what is typed, the chord included, or it is the unlock chord of locked mode. -/
  fired : ∀ chord now boundAction, call = .resolveKey chord now →
    (world.client.call call).1.fired = some boundAction →
      (lockMode = .locked ∧ chord = catalog.unlockChord ∧ boundAction = unlockBoundAction) ∨
        ∃ keys : KeySequence, keys.chords = world.typed.reopened ++ world.typed.pressed ++ [chord] ∧
          (catalog.matchSequence lockMode keys).exactBoundAction = some boundAction
  /-- A deadline fires the binding of what is typed. -/
  expired : ∀ now boundAction, call = .expireKeySequence now →
    (world.client.call call).1.fired = some boundAction →
      ∃ keys : KeySequence, keys.chords = world.typed.reopened ++ world.typed.pressed ∧
        (catalog.matchSequence lockMode keys).exactBoundAction = some boundAction
  /-- A sequence is open after an action fired only if the action is continuous, and then it is a re-opened
  prefix: what fired without its last chord. -/
  reopened : ∀ boundAction, (world.client.call call).1.fired = some boundAction →
    (world.client.call call).2.pendingKeySequence ≠ none →
      (registry.findActionMetadata boundAction.actionReference).any ActionMetadata.isContinuous = true ∧
        (world.step call).typed.pressed = [] ∧ (world.step call).typed.reopened = (world.step call).client.openChords

theorem Inv.sequenceSound (h : Inv catalog registry lockMode world) : SequenceSound catalog lockMode world := by
  obtain ⟨⟨client⟩, typed⟩ := world
  obtain ⟨hcontext, hsn, htyped⟩ := h
  cases hcontext
  refine ⟨fun held hh => (hsn held hh).extended, fun held hh => ?_, fun held hh => (hsn held hh).deadline, htyped.symm⟩
  obtain ⟨longer, hbinds, _, hlen⟩ := (hsn held hh).extended
  exact hlen.trans_le (KeymapHintCatalog.length_le_longestBindingLength hbinds)

theorem step_reopened {boundAction : BoundAction} {call : KeyCall}
    (hfired : (world.client.call call).1.fired = some boundAction) : (world.step call).typed.pressed = [] := by
  have hreopen : ∀ chords, (TypedChords.reopen world.client.registry boundAction chords).pressed = [] := by
    intro chords
    unfold TypedChords.reopen
    split_ifs <;> rfl
  unfold step TypedChords.afterCall
  rw [hfired]
  cases call with
  | resolveKey chord now =>
    dsimp only
    split_ifs
    · rfl
    · exact hreopen _
  | expireKeySequence => exact hreopen _
  | setFloatingPaneMoveDrag => exact absurd hfired (Option.some_ne_none _).symm

theorem Inv.callSound (h : Inv catalog registry lockMode world) (call : KeyCall) :
    CallSound catalog registry lockMode world call := by
  have hstep := (h.step call).typed
  obtain ⟨hcontext, _, htyped⟩ := h
  obtain rfl : world.client.keymapCatalog = catalog := congrArg (fun context => context.1) hcontext
  obtain rfl : world.client.registry = registry := congrArg (fun context => context.2.1) hcontext
  obtain rfl : world.client.activeInputMode = lockMode := congrArg (fun context => context.2.2) hcontext
  have hextend : ∀ chord, (extendSequence world.client.pendingKeySequence chord).chords =
      world.typed.all ++ [chord] := by
    intro chord
    rw [extendSequence_chords, htyped]
    rfl
  refine ⟨fun hop chord => ?_, ?_, IsInstalled.unlockChord_ne, ?_, ?_, ?_, ?_⟩
  · cases call with
    | resolveKey pressed now =>
      intro hret
      exact (world.client.resolveKey_cases pressed now).ne_passThrough hop chord (KeyReturn.outcome.inj hret)
    | expireKeySequence now => exact KeyReturn.noConfusion
    | setFloatingPaneMoveDrag isHeld => exact KeyReturn.noConfusion
  · rintro hlocked now rfl
    obtain ⟨hnone, hunlocks⟩ := (world.client.resolveKey_cases _ now).unlocks hlocked
    exact ⟨hnone, hunlocks.imp_right (congrArg KeyReturn.outcome)⟩
  · rintro now rfl hop
    refine ⟨extendSequence world.client.pendingKeySequence escapeKeyChord, ?_, ?_⟩
    · rw [hextend, htyped]
    · exact (world.client.resolveKey_cases escapeKeyChord now).escape hop
  · rintro chord now boundAction rfl hfired
    have hresolved := world.client.resolveKey_cases chord now
    rw [KeyReturn.fired_outcome hfired] at hresolved
    rcases hresolved.firedExact with hunl | hexact
    · exact Or.inl hunl
    · exact Or.inr ⟨_, hextend chord, hexact⟩
  · rintro now boundAction rfl hfired
    have hexpired := world.client.expireKeys_cases now
    rw [show (world.client.expireKeySequence now).1 = some boundAction from hfired] at hexpired
    obtain ⟨held, hh, hexact⟩ := hexpired.firedExact
    refine ⟨held.sequence, ?_, hexact⟩
    rw [← Client.openChords_of_some hh, ← htyped]
    rfl
  · intro boundAction hfired hop
    have hprs := step_reopened hfired
    refine ⟨?_, hprs, ?_⟩
    · cases call with
      | resolveKey chord now =>
        have hresolved := world.client.resolveKey_cases chord now
        rw [KeyReturn.fired_outcome hfired] at hresolved
        exact hresolved.isContinuous hop
      | expireKeySequence now =>
        have hexpired := world.client.expireKeys_cases now
        rw [show (world.client.expireKeySequence now).1 = some boundAction from hfired] at hexpired
        exact hexpired.isContinuous hop
      | setFloatingPaneMoveDrag isHeld => exact absurd hfired (Option.some_ne_none _).symm
    · rw [← hstep, TypedChords.all, hprs, List.append_nil]

/-- **Key resolution over any run**: whatever chords arrive and whenever, an open sequence stays a strict prefix
of a binding, and every call answers from the chords typed into it. -/
theorem keyRun_sound (catalog : KeymapHintCatalog) (registry : ActionRegistry) (lockMode : LockMode)
    (hasFloatingPaneMoveDrag : Bool) (keyCalls : List KeyCall) :
    SequenceSound catalog lockMode ((start catalog registry lockMode hasFloatingPaneMoveDrag).run keyCalls) ∧
      ∀ call, CallSound catalog registry lockMode
        ((start catalog registry lockMode hasFloatingPaneMoveDrag).run keyCalls) call :=
  have hinv := (inv_start hasFloatingPaneMoveDrag).run keyCalls
  ⟨hinv.sequenceSound, hinv.callSound⟩

end KeyWorld

end Koshi.Viewer
