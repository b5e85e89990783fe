import Koshi.Base.KeyedFold
import Koshi.Config.Conflict

/-!
# Detection and merge agree

Both passes are loops over the layers, the modes of a layer and the bindings of a mode. Watched at one mode and
one key, each is a loop over the layers alone in which a layer's live entry on the key replaces what lower layers
left there. With the defaults layer first the two loops keep in step, so the tables a keypress consults hold what
detection judged.
-/

namespace Koshi.Config

open Koshi.Core List Option MergedModeKeymap KeymapHintCatalog
open Std

/-- The binding detection judged to win the key in the mode, and the layer it came from. -/
def EffectiveBindings.find (effective : EffectiveBindings) (mode : String) (keys : KeySequence) :
    Option (LayerOrigin × BoundAction) :=
  effective[mode]?.bind (·[keys]?)

section Watched

variable (removals : RemovalLayerIndex) (rules : FiringRules) (mode : String) (keys : KeySequence)

variable {names : List String}

/-- The entry fires, and no layer above its own removes the key. -/
def isLive (index : Nat) (action : BoundAction) : Bool :=
  !isRemovedByHigherLayer removals mode keys index && isBoundActionFiring mode keys action rules

/-- The entry of a layer on the key, if it is live. -/
def liveEntry (layer : KeymapLayer) (index : Nat) : Option BoundAction :=
  (layer.modeBindingsByName[mode]?.bind (·.boundActionByKeySequence[keys]?)).filter
    (isLive removals rules mode keys index)

/-! ### Detection at one key -/

/-- What one layer leaves at the key in the effective bindings. -/
def effectiveStep (winner : Option (LayerOrigin × BoundAction)) (entry : KeymapLayer × Nat) :
    Option (LayerOrigin × BoundAction) :=
  ((liveEntry removals rules mode keys entry.1 entry.2).map (entry.1.origin, ·)).or winner

theorem getElem?_addModeBindings (layer : KeymapLayer) (index : Nat) (bindings : ModeBindings)
    (merged : ExtTreeMap KeySequence (LayerOrigin × BoundAction)) :
    (addEffectiveModeBindings removals rules layer index mode merged bindings)[keys]? =
      ((bindings.boundActionByKeySequence[keys]?.filter (isLive removals rules mode keys index)).map
        (layer.origin, ·)).or
        merged[keys]? := by
  refine (Base.read_foldl_toList bindings.boundActionByKeySequence
    (fun merged : ExtTreeMap KeySequence (LayerOrigin × BoundAction) => merged[keys]?) keys
    (fun winner action => if isLive removals rules mode keys index action then some (layer.origin, action) else winner)
    (fun merged action => ?_) (fun merged entry he => ?_) merged).trans ?_
  · unfold addEffectiveBinding isLive
    cases isRemovedByHigherLayer removals mode keys index <;> cases isBoundActionFiring mode keys action rules <;> simp
  · unfold addEffectiveBinding
    split_ifs
    · rfl
    · rw [ExtTreeMap.getElem?_insert, if_neg fun h => he (LawfulEqOrd.eq_of_compare h)]
  · cases bindings.boundActionByKeySequence[keys]? with
    | none => rfl
    | some action =>
      simp only [map_some, getD_some, filter_some]
      split_ifs <;> rfl

theorem find_addEffectiveLayer (hknown : mode ∈ names) (effective : EffectiveBindings) (layer : KeymapLayer)
    (index : Nat) :
    (addEffectiveLayer removals names rules effective layer index).find mode keys =
      effectiveStep removals rules mode keys (effective.find mode keys) (layer, index) := by
  refine (Base.read_foldl_toList layer.modeBindingsByName
    (fun effective : EffectiveBindings => effective.find mode keys) mode
    (fun winner bindings =>
      ((bindings.boundActionByKeySequence[keys]?.filter (isLive removals rules mode keys index)).map (layer.origin,
        ·)).or winner)
    (fun effective bindings => ?_) (fun effective entry he => ?_) effective).trans ?_
  · dsimp only
    rw [if_pos hknown, EffectiveBindings.find, ExtTreeMap.getElem?_insert_self, bind_some,
      getElem?_addModeBindings, EffectiveBindings.find]
    cases effective[mode]? <;> simp
  · split_ifs
    · rw [EffectiveBindings.find, ExtTreeMap.getElem?_insert,
        if_neg fun h => he (LawfulEqOrd.eq_of_compare h), EffectiveBindings.find]
    · rfl
  · rw [effectiveStep, liveEntry]
    cases layer.modeBindingsByName[mode]? <;> rfl

/-- **Detection, watched at one key, is a loop over the layers.** -/
theorem find_buildEffectiveBindings (hknown : mode ∈ names) (layers : List KeymapLayer) :
    (buildEffectiveBindings layers removals names rules).find mode keys =
      layers.zipIdx.foldl (effectiveStep removals rules mode keys) none :=
  (foldl_hom (fun effective : EffectiveBindings => effective.find mode keys)
    fun effective entry => (find_addEffectiveLayer removals rules mode keys hknown effective entry.1 entry.2).symm).symm

/-! ### The merge at one key -/

/-- What the tables of a mode hold at a key: the user-authored entry and the default. -/
def MergedModeKeymap.tablesAt (keymap : MergedModeKeymap) (keys : KeySequence) :
    Option MergedBinding × Option BoundAction :=
  (keymap.userBindingsByKeySequence[keys]?, keymap.defaultBindingsByKeySequence[keys]?)

def putEntry (origin : LayerOrigin) (tables : Option MergedBinding × Option BoundAction) (live : Option BoundAction) :
    Option MergedBinding × Option BoundAction :=
  if origin.isUserAuthored then ((live.map (⟨·, origin⟩)).or tables.1, tables.2) else (tables.1, live.or tables.2)

@[simp] theorem putEntry_none (origin : LayerOrigin) (tables : Option MergedBinding × Option BoundAction) :
    putEntry origin tables none = tables := by
  unfold putEntry
  split_ifs <;> rfl

/-- What one layer leaves at the key in the two tables. -/
def mergeStep (tables : Option MergedBinding × Option BoundAction) (entry : KeymapLayer × Nat) :
    Option MergedBinding × Option BoundAction :=
  putEntry entry.1.origin tables (liveEntry removals rules mode keys entry.1 entry.2)

theorem tablesAt_mergeBinding (layers : List KeymapLayer) (layer : KeymapLayer) (index : Nat)
    (merged : MergedModeKeymap) (action : BoundAction) :
    (mergeBinding layers removals rules layer index mode merged keys action).tablesAt keys =
      putEntry layer.origin (merged.tablesAt keys) ((some action).filter (isLive removals rules mode keys index)) := by
  unfold mergeBinding isLive
  cases hfiring : isBoundActionFiring mode keys action rules with
  | false =>
    rw [filter_some, hfiring]
    simp
  | true =>
    cases hrv : isRemovedByHigherLayer removals mode keys index with
    | true =>
      simp only [filter_some, Bool.not_true, Bool.false_and, Bool.false_eq_true, if_false, if_true, putEntry_none]
      split_ifs
      · split <;> rfl
      · rfl
    | false =>
      simp only [hfiring, filter_some, Bool.not_true, Bool.not_false, Bool.true_and, Bool.false_eq_true, if_false,
        if_true, putEntry]
      split_ifs
      · simp [tablesAt]
      · simp [tablesAt]

theorem tablesAt_mergeBinding_of_ne {otherKey : KeySequence} (hne : otherKey ≠ keys) (layers : List KeymapLayer)
    (layer : KeymapLayer) (index : Nat) (merged : MergedModeKeymap) (action : BoundAction) :
    (mergeBinding layers removals rules layer index mode merged otherKey action).tablesAt
      keys = merged.tablesAt keys := by
  have hcmp : compare otherKey keys ≠ .eq := fun h => hne (LawfulEqOrd.eq_of_compare h)
  unfold mergeBinding
  split_ifs
  · rfl
  · split <;> rfl
  · rfl
  · simp [tablesAt, ExtTreeMap.getElem?_insert, hcmp]
  · simp [tablesAt, ExtTreeMap.getElem?_insert, hcmp]

theorem tablesAt_mergeModeBindings (layers : List KeymapLayer) (layer : KeymapLayer) (index : Nat)
    (merged : MergedModeKeymap) (bindings : ModeBindings) :
    (mergeModeBindings layers removals rules layer index mode merged bindings).tablesAt keys =
      putEntry layer.origin (merged.tablesAt keys)
        (bindings.boundActionByKeySequence[keys]?.filter (isLive removals rules mode keys index)) := by
  refine (Base.read_foldl_toList bindings.boundActionByKeySequence
    (fun merged : MergedModeKeymap => merged.tablesAt keys) keys
    (fun tables action => putEntry layer.origin tables ((some action).filter (isLive removals rules mode keys index)))
    (tablesAt_mergeBinding removals rules mode keys layers layer index)
    (fun merged entry he => tablesAt_mergeBinding_of_ne removals rules mode keys he
      layers layer index merged entry.2) _).trans ?_
  cases bindings.boundActionByKeySequence[keys]? with
  | none => exact (putEntry_none layer.origin _).symm
  | some action => rfl

/-- What a keymap's tables hold at a key of a mode; nothing for a mode it has no tables for. -/
def tablesIn (merged : ExtTreeMap String MergedModeKeymap) : Option MergedBinding × Option BoundAction :=
  (merged[mode]?.map (·.tablesAt keys)).getD (none, none)

theorem tablesIn_mergeLayer (hknown : mode ∈ names) (layers : List KeymapLayer)
    (merged : ExtTreeMap String MergedModeKeymap) (layer : KeymapLayer) (index : Nat) :
    tablesIn mode keys (mergeLayer layers removals names rules merged layer index) =
      mergeStep removals rules mode keys (tablesIn mode keys merged) (layer, index) := by
  refine (Base.read_foldl_toList layer.modeBindingsByName (tablesIn mode keys) mode
    (fun tables bindings => putEntry layer.origin tables
      (bindings.boundActionByKeySequence[keys]?.filter (isLive removals rules mode keys index)))
    (fun merged bindings => ?_) (fun merged entry he => ?_) merged).trans ?_
  · dsimp only
    rw [if_pos hknown, tablesIn, ExtTreeMap.getElem?_insert_self, map_some, getD_some,
      tablesAt_mergeModeBindings, tablesIn]
    cases merged[mode]? with
    | none => simp [tablesAt, empty]
    | some keymap => rfl
  · split_ifs
    · rw [tablesIn, ExtTreeMap.getElem?_insert, if_neg fun h => he (LawfulEqOrd.eq_of_compare h), tablesIn]
    · rfl
  · rw [mergeStep, liveEntry]
    cases layer.modeBindingsByName[mode]? with
    | none => exact (putEntry_none layer.origin _).symm
    | some bindings => rfl

/-- **The merge, watched at one key, is a loop over the layers**, before the displaced defaults are moved. -/
theorem tablesIn_mergeLayers (hknown : mode ∈ names) (layers : List KeymapLayer) :
    tablesIn mode keys (layers.zipIdx.foldl (fun merged entry =>
        mergeLayer layers removals names rules merged entry.1 entry.2) ∅) =
      layers.zipIdx.foldl (mergeStep removals rules mode keys) (none, none) :=
  (foldl_hom (tablesIn mode keys) fun merged entry =>
    (tablesIn_mergeLayer removals rules mode keys hknown layers merged entry.1 entry.2).symm).symm

end Watched

/-! ### The displaced defaults -/

theorem tablesAt_displaceDefaults (merged : MergedModeKeymap) (keys : KeySequence) :
    (displaceDefaults merged).tablesAt keys =
      ((merged.tablesAt keys).1, if (merged.tablesAt keys).1.isSome then none else (merged.tablesAt keys).2) := by
  refine (Base.read_foldl_toList merged.userBindingsByKeySequence
    (fun displaced : MergedModeKeymap => displaced.tablesAt keys) keys
    (fun tables _ => (tables.1, none)) (fun displaced binding => ?_) (fun displaced entry he => ?_)
    merged).trans ?_
  · unfold displaceDefault
    cases hdefault : displaced.defaultBindingsByKeySequence[keys]? with
    | none => simp [tablesAt, hdefault]
    | some action => simp [tablesAt]
  · have hcmp : compare entry.1 keys ≠ .eq := fun h => he (LawfulEqOrd.eq_of_compare h)
    unfold displaceDefault
    split
    · simp [tablesAt, ExtTreeMap.getElem?_erase, hcmp]
    · rfl
  · cases huser : merged.userBindingsByKeySequence[keys]? <;> simp [tablesAt, huser]

/-! ### The two loops keep in step -/

/-- What a keypress finds in the two tables: the user entry, else the default. -/
def tableWinner (tables : Option MergedBinding × Option BoundAction) : Option (LayerOrigin × BoundAction) :=
  (tables.1.map fun binding => (binding.layerOrigin, binding.boundAction)).or (tables.2.map (LayerOrigin.defaults, ·))

theorem tableWinner_putEntry {origin : LayerOrigin} {tables : Option MergedBinding × Option BoundAction}
    (h : origin.isUserAuthored = true ∨ tables.1 = none) (live : Option BoundAction) :
    tableWinner (putEntry origin tables live) = (live.map (origin, ·)).or (tableWinner tables) := by
  unfold tableWinner putEntry
  cases origin with
  | user => cases live <;> simp [LayerOrigin.isUserAuthored]
  | defaults =>
    obtain hnone : tables.1 = none := h.resolve_left Bool.false_ne_true
    cases live <;> simp [LayerOrigin.isUserAuthored, hnone]

section Layers

variable (removals : RemovalLayerIndex) (rules : FiringRules) (mode : String) (keys : KeySequence)

variable {entries : List (KeymapLayer × Nat)}

theorem foldl_userLayers (huser : ∀ entry ∈ entries, entry.1.origin.isUserAuthored = true)
    (tables : Option MergedBinding × Option BoundAction) :
    entries.foldl (effectiveStep removals rules mode keys) (tableWinner tables) =
      tableWinner (entries.foldl (mergeStep removals rules mode keys) tables) := by
  induction entries generalizing tables with
  | nil => rfl
  | cons entry entries ih =>
    rw [foldl_cons, foldl_cons, ← ih fun other ho => huser other (mem_cons_of_mem _ ho), mergeStep,
      tableWinner_putEntry (Or.inl (huser entry mem_cons_self)), effectiveStep]

theorem foldl_layers {base : KeymapLayer} {users : List KeymapLayer}
    (huser : ∀ layer ∈ users, layer.origin.isUserAuthored = true) :
    (base :: users).zipIdx.foldl (effectiveStep removals rules mode keys) none =
      tableWinner ((base :: users).zipIdx.foldl (mergeStep removals rules mode keys) (none, none)) := by
  rw [zipIdx_cons, foldl_cons, foldl_cons, ← foldl_userLayers, mergeStep,
    tableWinner_putEntry (Or.inr rfl), effectiveStep]
  · rfl
  · intro entry he
    exact huser entry.1 (fst_mem_of_mem_zipIdx he)

theorem isBoundActionFiring_of_foldl {winner : Option (LayerOrigin × BoundAction)}
    (hwinner : ∀ binding, winner = some binding → isBoundActionFiring mode keys binding.2 rules = true)
    {binding : LayerOrigin × BoundAction}
    (h : entries.foldl (effectiveStep removals rules mode keys) winner = some binding) :
    isBoundActionFiring mode keys binding.2 rules = true := by
  induction entries generalizing winner with
  | nil => exact hwinner binding h
  | cons entry entries ih =>
    refine ih (fun put hput => ?_) h
    unfold effectiveStep at hput
    rcases or_eq_some_iff.1 hput with hlive | ⟨_, hk⟩
    · obtain ⟨action, he, rfl⟩ := map_eq_some_iff.1 hlive
      have hfilter := (filter_eq_some_iff.1 he).2
      exact (Bool.and_eq_true _ _ ▸ hfilter).2
    · exact hwinner put hk

end Layers

/-! ### The tables a keypress consults -/

theorem mem_builtinModeNames (lockMode : LockMode) : lockMode.getKeymapName ∈ builtinModeNames := by
  cases lockMode <;> decide

theorem tablesIn_map_displaceDefaults (mode : String) (keys : KeySequence)
    (merged : ExtTreeMap String MergedModeKeymap) :
    tablesIn mode keys (merged.map fun _ keymap => displaceDefaults keymap) =
      ((tablesIn mode keys merged).1,
        if (tablesIn mode keys merged).1.isSome then none else (tablesIn mode keys merged).2) := by
  unfold tablesIn
  rw [ExtTreeMap.getElem?_map]
  cases merged[mode]? with
  | none => rfl
  | some keymap => exact tablesAt_displaceDefaults keymap keys

/-- What the tables of the merged keymap hold: a default only where no user entry is, and together the winner of
detection. -/
theorem tablesIn_mergeKeymaps (base : KeymapLayer) {users : List KeymapLayer}
    (huser : ∀ layer ∈ users, layer.origin.isUserAuthored = true) (unlockChord : Option KeyChord)
    (maximumChordDepth : UInt8) (registry : ActionRegistry) (lockMode : LockMode) (keys : KeySequence) :
    (∃ tables : Option MergedBinding × Option BoundAction,
      tablesIn lockMode.getKeymapName keys
          (mergeKeymaps (base :: users) unlockChord maximumChordDepth registry).modeKeymapByName =
        (tables.1, if tables.1.isSome then none else tables.2) ∧
      tableWinner tables =
        (judgedBindings (base :: users) unlockChord maximumChordDepth registry).find lockMode.getKeymapName keys) := by
  refine ⟨_, tablesIn_map_displaceDefaults _ _ _, ?_⟩
  rw [tablesIn_mergeLayers _ _ _ _ (mem_builtinModeNames lockMode), judgedBindings,
    find_buildEffectiveBindings _ _ _ _ (mem_builtinModeNames lockMode), foldl_layers _ _ _ _ huser]

theorem tableWinner_displaced (tables : Option MergedBinding × Option BoundAction) :
    tableWinner (tables.1, if tables.1.isSome then none else tables.2) = tableWinner tables := by
  obtain ⟨user, default⟩ := tables
  cases user <;> rfl

theorem KeymapHintCatalog.exactBoundAction_eq (catalog : KeymapHintCatalog) (lockMode : LockMode) (keys : KeySequence) :
    (catalog.matchSequence lockMode keys).exactBoundAction =
      (tableWinner (tablesIn lockMode.getKeymapName keys catalog.mergedKeymap.modeKeymapByName)).map (·.2) := by
  unfold matchSequence tablesIn
  cases catalog.mergedKeymap.modeKeymapByName[lockMode.getKeymapName]? with
  | none => rfl
  | some keymap =>
    simp only [MergedModeKeymap.matchSequence, MergedModeKeymap.findBoundAction, MergedModeKeymap.tablesAt, tableWinner,
      map_some, getD_some]
    cases keymap.userBindingsByKeySequence[keys]? <;> cases keymap.defaultBindingsByKeySequence[keys]? <;> rfl

/-! ### The statement -/

structure KeymapAgrees (effective : EffectiveBindings) (catalog : KeymapHintCatalog) : Prop where
  /-- The user entry if present, else the surviving default, is the effective winning binding. -/
  winner : ∀ lockMode keys,
    tableWinner (tablesIn (LockMode.getKeymapName lockMode) keys catalog.mergedKeymap.modeKeymapByName) =
      effective.find lockMode.getKeymapName keys
  /-- No key is in both tables. -/
  disjoint : ∀ lockMode keys keymap,
    catalog.mergedKeymap.modeKeymapByName[LockMode.getKeymapName lockMode]? = some keymap →
      keys ∈ keymap.userBindingsByKeySequence → keys ∉ keymap.defaultBindingsByKeySequence
  /-- In locked mode the unlock chord fires `core:unlock`, and nothing longer waits for it. -/
  unlock : catalog.matchSequence .locked (.ofChord catalog.unlockChord) = ⟨some unlockBoundAction, false⟩
  /-- Every viewer-local mode has a key for its cancel action. -/
  cancel : ∀ lockMode cancelName, (lockMode, cancelName) ∈ cancelActionNameByMode →
    ∃ keys, (catalog.matchSequence lockMode keys).exactBoundAction = some ⟨⟨cancelName⟩⟩
  /-- A longer sequence is announced exactly when some effective binding strictly extends the one looked up. -/
  longer : ∀ lockMode keys, (catalog.matchSequence lockMode keys).hasLongerKeySequence = true ↔
    ∃ longer : KeySequence, (effective.find lockMode.getKeymapName longer).isSome = true ∧ longer.StrictlyExtends keys

section Verdict

variable {layers : List KeymapLayer} {leader : Leader} {unlockChord : Option KeyChord} {maximumChordDepth : UInt8}
  {registry : ActionRegistry}

theorem ConflictReport.not_fatal_of_apply {report : ConflictReport} (h : report.getVerdict = .apply)
    (diagnostic : ConflictDiagnostic) (hm : diagnostic ∈ report.diagnostics) : diagnostic.getSeverity ≠ .fatal := by
  intro hfatal
  have hany : report.diagnostics.any (·.getSeverity = .fatal) = true :=
    List.any_eq_true.2 ⟨diagnostic, hm, decide_eq_true hfatal⟩
  rw [getVerdict, if_pos hany] at h
  exact absurd h (by decide)

/-- On an accepted keymap the winning locked-mode binding of the unlock chord is `core:unlock`. -/
theorem find_unlock_of_apply
    (h : (detectConflicts layers leader unlockChord maximumChordDepth registry).getVerdict = .apply) :
    ∃ layerOrigin, (judgedBindings layers unlockChord maximumChordDepth registry).find LockMode.locked.getKeymapName
      (.ofChord (resolveUnlockChord unlockChord)) = some (layerOrigin, unlockBoundAction) := by
  have hnone : ∀ diagnostic ∈ validateReservedUnlockBinding
      (judgedBindings layers unlockChord maximumChordDepth registry) (resolveUnlockChord unlockChord),
      diagnostic.getSeverity ≠ .fatal := by
    intro diagnostic hm
    refine ConflictReport.not_fatal_of_apply h diagnostic ?_
    simp only [detectConflicts, mem_append]
    exact Or.inl (Or.inr hm)
  unfold validateReservedUnlockBinding at hnone
  unfold EffectiveBindings.find
  cases hfi : (judgedBindings layers unlockChord maximumChordDepth registry)[LockMode.locked.getKeymapName]?.bind
      (·[KeySequence.ofChord (resolveUnlockChord unlockChord)]?) with
  | none =>
    rw [hfi] at hnone
    exact absurd rfl (hnone _ mem_cons_self)
  | some binding =>
    obtain ⟨layerOrigin, action⟩ := binding
    rw [hfi] at hnone
    by_cases hunl : action.actionReference = unlockBoundAction.actionReference
    · obtain ⟨actionReference⟩ := action
      obtain rfl : actionReference = _ := hunl
      exact ⟨layerOrigin, rfl⟩
    · simp only [ne_eq, hunl, not_false_iff, if_true] at hnone
      exact absurd rfl (hnone _ mem_cons_self)

/-- On an accepted keymap every viewer-local mode has an effective binding of its cancel action. -/
theorem find_cancel_of_apply
    (h : (detectConflicts layers leader unlockChord maximumChordDepth registry).getVerdict = .apply)
    {lockMode : LockMode} {cancel : String} (hcancel : (lockMode, cancel) ∈ cancelActionNameByMode) :
    ∃ keys layerOrigin, (judgedBindings layers unlockChord maximumChordDepth registry).find
      lockMode.getKeymapName keys = some (layerOrigin, ⟨⟨cancel⟩⟩) := by
  have hbo : hasCancelBinding (judgedBindings layers unlockChord maximumChordDepth registry) lockMode
      cancel = true := by
    by_contra hmissing
    refine ConflictReport.not_fatal_of_apply h (.modeCancelBindingMissing lockMode.getKeymapName ⟨cancel⟩) ?_ rfl
    simp only [detectConflicts, mem_append]
    refine Or.inr (mem_flatMap.2 ⟨_, hcancel, ?_⟩)
    dsimp only
    rw [if_neg hmissing]
    exact mem_cons_self
  unfold hasCancelBinding at hbo
  unfold EffectiveBindings.find
  cases hmd : (judgedBindings layers unlockChord maximumChordDepth registry)[lockMode.getKeymapName]? with
  | none =>
    rw [hmd] at hbo
    exact absurd hbo Bool.false_ne_true
  | some bindings =>
    rw [hmd] at hbo
    obtain ⟨⟨keys, layerOrigin, ⟨actionReference⟩⟩, hm, hreference⟩ := List.any_eq_true.1 hbo
    obtain rfl : actionReference = _ := of_decide_eq_true hreference
    exact ⟨keys, layerOrigin, ExtTreeMap.mem_toList_iff_getElem?_eq_some.1 hm⟩

end Verdict

/-- A locked-mode sequence that strictly extends the unlock chord is dead, so nothing effective waits for it. -/
theorem find_eq_none_of_extends_unlock (layers : List KeymapLayer) (unlockChord : Option KeyChord)
    (maximumChordDepth : UInt8) (registry : ActionRegistry) {longer : KeySequence}
    (h : longer.StrictlyExtends (.ofChord (resolveUnlockChord unlockChord))) :
    (judgedBindings layers unlockChord maximumChordDepth registry).find LockMode.locked.getKeymapName longer =
      none := by
  obtain ⟨⟨rest, hr⟩, hlen⟩ := h
  by_contra hfo
  obtain ⟨binding, hbnd⟩ := ne_none_iff_exists'.1 hfo
  rw [judgedBindings, find_buildEffectiveBindings _ _ _ _ (mem_builtinModeNames .locked)] at hbnd
  have hfiring := isBoundActionFiring_of_foldl _ _ _ _ (by simp) hbnd
  have hdead : isSequenceDeadUnderReservedUnlock LockMode.locked.getKeymapName longer
      (firingRulesFor unlockChord maximumChordDepth registry).reservedUnlockChord = true := by
    have hm : resolveUnlockChord unlockChord ∈ longer.chords := by
      rw [← hr]
      exact mem_cons_self
    have hlong : 1 < longer.chords.length := hlen
    simp [isSequenceDeadUnderReservedUnlock, firingRulesFor, hm, hlong]
  rw [isBoundActionFiring, hdead] at hfiring
  simp at hfiring

section Agreement

variable {base : KeymapLayer} {users : List KeymapLayer} {unlockChord : Option KeyChord} {maximumChordDepth : UInt8}
  {registry : ActionRegistry} {chordTimeoutMs whichKeyDelayMs : Nat}
  (huser : ∀ layer ∈ users, layer.origin.isUserAuthored = true)

variable (lockMode : LockMode)

include huser

theorem tableWinner_fromKeymapLayers (keys : KeySequence) :
    tableWinner (tablesIn lockMode.getKeymapName keys (fromKeymapLayers
        (base :: users) chordTimeoutMs whichKeyDelayMs unlockChord maximumChordDepth
        registry).mergedKeymap.modeKeymapByName) =
      (judgedBindings (base :: users) unlockChord maximumChordDepth registry).find lockMode.getKeymapName keys := by
  obtain ⟨tables, htables, hwinner⟩ :=
    tablesIn_mergeKeymaps base huser unlockChord maximumChordDepth registry lockMode keys
  rw [← hwinner, ← tableWinner_displaced tables, ← htables]
  rfl

theorem exactBoundAction_fromKeymapLayers (keys : KeySequence) :
    ((fromKeymapLayers (base :: users) chordTimeoutMs whichKeyDelayMs unlockChord
        maximumChordDepth registry).matchSequence lockMode keys).exactBoundAction =
      ((judgedBindings (base :: users) unlockChord maximumChordDepth registry).find
        lockMode.getKeymapName keys).map (·.2) := by
  rw [exactBoundAction_eq, tableWinner_fromKeymapLayers huser]

theorem hasLongerKeys_fromKeymapLayers (keys : KeySequence) :
    ((fromKeymapLayers (base :: users) chordTimeoutMs whichKeyDelayMs unlockChord
        maximumChordDepth registry).matchSequence lockMode keys).hasLongerKeySequence = true ↔
      ∃ longer : KeySequence, ((judgedBindings (base :: users) unlockChord maximumChordDepth
        registry).find lockMode.getKeymapName longer).isSome = true ∧ longer.StrictlyExtends keys := by
  rw [KeymapHintCatalog.hasLongerKeys_iff]
  refine exists_congr fun longer => and_congr_left fun _ => ?_
  rw [← isSome_exactBoundAction_iff, exactBoundAction_fromKeymapLayers huser, isSome_map]

theorem disjoint_fromKeymapLayers (keys : KeySequence) {keymap : MergedModeKeymap}
    (hmd : (mergeKeymaps (base :: users) unlockChord maximumChordDepth
      registry).modeKeymapByName[lockMode.getKeymapName]? = some keymap)
    (hkey : keys ∈ keymap.userBindingsByKeySequence) :
    keys ∉ keymap.defaultBindingsByKeySequence := by
  obtain ⟨tables, htables, _⟩ :=
    tablesIn_mergeKeymaps base huser unlockChord maximumChordDepth registry lockMode keys
  rw [tablesIn, hmd, map_some, getD_some, tablesAt] at htables
  obtain ⟨huserTable, hdefaultTable⟩ := Prod.mk.inj htables
  rw [ExtTreeMap.mem_iff_isSome_getElem?, huserTable] at hkey
  rw [ExtTreeMap.mem_iff_isSome_getElem?, hdefaultTable, if_pos hkey]
  exact Bool.false_ne_true

/-- **The merge builds what detection judged.** On a keymap detection accepts, over a defaults layer and
user-authored layers above it, the tables a keypress consults hold exactly the effective bindings, so the unlock
chord unlocks and every viewer-local mode can be left. -/
theorem mergeKeymaps_agrees {leader : Leader}
    (hverdict : (detectConflicts (base :: users) leader unlockChord maximumChordDepth registry).getVerdict = .apply) :
    KeymapAgrees (judgedBindings (base :: users) unlockChord maximumChordDepth registry)
      (.fromKeymapLayers (base :: users) chordTimeoutMs whichKeyDelayMs unlockChord maximumChordDepth registry) := by
  refine ⟨tableWinner_fromKeymapLayers huser,
    fun lockMode keys _ => disjoint_fromKeymapLayers huser lockMode keys, ?_, ?_,
    hasLongerKeys_fromKeymapLayers huser⟩
  · obtain ⟨layerOrigin, hunlock⟩ := find_unlock_of_apply hverdict
    ext1
    · rw [exactBoundAction_fromKeymapLayers huser]
      change Option.map _ ((judgedBindings _ _ _ _).find _ (.ofChord (resolveUnlockChord unlockChord))) = _
      rw [hunlock]
      rfl
    · rw [Bool.eq_false_iff, ne_eq, hasLongerKeys_fromKeymapLayers huser]
      rintro ⟨longer, hfound, hextends⟩
      rw [find_eq_none_of_extends_unlock _ _ _ _ hextends] at hfound
      exact Bool.false_ne_true hfound
  · intro lockMode cancel hcancel
    obtain ⟨keys, layerOrigin, hfind⟩ := find_cancel_of_apply hverdict hcancel
    refine ⟨keys, ?_⟩
    rw [exactBoundAction_fromKeymapLayers huser, hfind]
    rfl

end Agreement

/-- A registry with the unlock action, quit and the cancel actions. -/
def sampleRegistry : ActionRegistry where
  findActionMetadata actionReference :=
    if actionReference.actionName ∈ ["unlock", "quit"] then some ⟨.coreCommand, false⟩
    else if actionReference.actionName ∈ cancelActionNameByMode.map (·.2) then some ⟨.coreClient, false⟩
    else none

def bindKeys (mode : String) (actionNames : List (KeySequence × String)) (removedKeySequences : List KeySequence)
    (modeBindingsByName : ExtTreeMap String ModeBindings) : ExtTreeMap String ModeBindings :=
  modeBindingsByName.insert mode
    ⟨actionNames.foldl (fun bindings entry => bindings.insert entry.1 ⟨⟨entry.2⟩⟩) ∅,
      removedKeySequences.foldl (fun removed keys => removed.insert keys) ∅⟩

/-- In locked mode the unlock chord, `<C-q>` and `<C-x>`, and Escape for every cancel action. -/
def sampleDefaultsLayer : KeymapLayer where
  origin := .defaults
  modeBindingsByName := cancelActionNameByMode.foldl
    (fun modes entry => bindKeys entry.1.getKeymapName [(.ofChord ⟨.none, .named .esc⟩, entry.2)] [] modes)
    (bindKeys "locked" [(.ofChord reservedUnlock, "unlock"), (.ofChord ⟨.ctrl, .char 'q'⟩, "quit"),
      (.ofChord ⟨.ctrl, .char 'x'⟩, "quit")] [] ∅)

/-- A user keymap that gives `<C-q>` another action in locked mode, removes `<C-x>` and binds the keys `<C-g>q`. -/
def sampleUserLayer : KeymapLayer :=
  ⟨.user, bindKeys "locked" [(.ofChord ⟨.ctrl, .char 'q'⟩, "unlock"),
    (⟨[⟨.ctrl, .char 'g'⟩, ⟨.none, .char 'q'⟩], by simp⟩, "quit")] [.ofChord ⟨.ctrl, .char 'x'⟩] ∅⟩

theorem mergeKeymaps_agrees_sample :
    KeymapAgrees (judgedBindings [sampleDefaultsLayer, sampleUserLayer] none 4 sampleRegistry)
      (.fromKeymapLayers [sampleDefaultsLayer, sampleUserLayer] 500 300 none 4 sampleRegistry) :=
  have hverdict : (detectConflicts [sampleDefaultsLayer, sampleUserLayer] (.modifiers .ctrl) none 4
      sampleRegistry).getVerdict = .apply := by decide +kernel
  mergeKeymaps_agrees (by decide) hverdict

end Koshi.Config
