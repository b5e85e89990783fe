import Koshi.Base.History
import Koshi.Base.Loop
import Koshi.Runtime.HeldMouseButtons

/-!
# A held button is a press that was written and not ended

The history is the calls with the reports that panes took in them. A key is held after a history when a press of it was
written and no later call ended it; the list of held buttons has one entry for each such key and no other. Every call
changes the list as it changes what is held, so that the reports it writes, which the list decides, are the ones that
the history asks for.
-/

namespace Koshi.Runtime

open Base Koshi.Core List MouseKind HeldMouseButton MouseWorld

def WrittenReport.key (written : WrittenReport) (button : MouseButton) : HeldKey :=
  ⟨written.clientId, written.paneId, button⟩

/-- The call ends the hold: a release by the client, the client's leave, a swap-out, or the pane's removal. -/
def MouseCall.Ends (call : MouseCall) (key : HeldKey) : Prop :=
  match call with
  | .forward clientId paneId (.release button) _ _ => key = ⟨clientId, paneId, button⟩
  | .forward .. => False
  | .releaseClient clientId => key.clientId = clientId
  | .releaseEvery => True
  | .removeInPane paneId => key.paneId = paneId

def MouseKind.pressed? : MouseKind → Option MouseButton
  | .press button => some button
  | _ => none

def MouseKind.dragged? : MouseKind → Option MouseButton
  | .drag button => some button
  | _ => none

def MouseKind.released? : MouseKind → Option MouseButton
  | .release button => some button
  | _ => none

/-- The keys of the reports whose event is of one kind. -/
def listKeys (buttonOf : MouseKind → Option MouseButton) (reports : List WrittenReport) : List HeldKey :=
  reports.filterMap fun written => (buttonOf written.report.mouseKind).map written.key

/-- A press was written, and no later call ended its hold. -/
def IsHeld (history : List MouseStep) (key : HeldKey) : Prop :=
  ∃ before step after, history = before ++ step :: after ∧ key ∈ listKeys pressed? step.reports ∧
    ∀ later ∈ after, ¬later.call.Ends key

theorem isHeld_concat {hist : List MouseStep} {step : MouseStep} {key : HeldKey} :
    IsHeld (hist ++ [step]) key ↔ key ∈ listKeys pressed? step.reports ∨ (IsHeld hist key ∧ ¬step.call.Ends key) := by
  constructor
  · rintro ⟨before, pressed, after, hsp, hprs, hlr⟩
    rcases split_concat hsp with ⟨rfl, rfl, rfl⟩ | ⟨earlierAfter, rfl, hhistory⟩
    · exact .inl hprs
    · exact .inr ⟨⟨before, pressed, earlierAfter, hhistory, hprs, fun later hm =>
        hlr later (mem_append_left _ hm)⟩, hlr step (mem_append_right _ (mem_singleton_self _))⟩
  · rintro (hprs | ⟨⟨before, pressed, after, rfl, hprs, hlr⟩, hk⟩)
    · exact ⟨hist, step, [], rfl, hprs, nofun⟩
    · refine ⟨before, pressed, after ++ [step], by rw [append_assoc, cons_append], hprs, ?_⟩
      intro later hm
      rcases mem_append.1 hm with hm | hm
      · exact hlr later hm
      · rwa [mem_singleton.1 hm]

/-! ### What a call does -/

/-- A call of which the reports were taken, from the held keys before it to those after it. -/
structure CallSpec (call : MouseCall) (keys : List HeldKey) (reports : List WrittenReport) (nextKeys : List HeldKey) :
    Prop where
  nodup : nextKeys.Nodup
  held : ∀ key, key ∈ nextKeys ↔ key ∈ listKeys pressed? reports ∨ (key ∈ keys ∧ ¬call.Ends key)
  dragged : ∀ key ∈ listKeys dragged? reports, key ∈ keys
  released : ∀ key ∈ listKeys released? reports, key ∈ keys ∧ call.Ends key
  releasedOnce : (listKeys released? reports).Nodup
  pressed : ∀ key ∈ listKeys pressed? reports, ¬call.Ends key

variable {buttons : List HeldMouseButton} {panes : MousePanes}

theorem listKeys_writeMouseReport (buttonOf : MouseKind → Option MouseButton) (writtenIndex : Nat) (clientId : ClientId)
    (paneId : PaneId) (mouseKind : MouseKind) (modifiers : BindingModifierFlags) (cell : Point) :
    listKeys buttonOf (writeMouseReport panes writtenIndex clientId paneId mouseKind modifiers cell).toList =
      if (writeMouseReport panes writtenIndex clientId paneId mouseKind modifiers cell).isSome then
        ((buttonOf mouseKind).map fun button => ⟨clientId, paneId, button⟩).toList
      else [] := by
  cases hwr : writeMouseReport panes writtenIndex clientId paneId mouseKind modifiers cell with
  | none => rfl
  | some written =>
    unfold writeMouseReport at hwr
    obtain ⟨terminal, -, hwr⟩ := Option.bind_eq_some_iff.1 hwr
    split at hwr
    · cases hwr
    obtain ⟨report, hreport, hwr⟩ := Option.bind_eq_some_iff.1 hwr
    unfold encodeMouse at hreport
    split_ifs at hwr hreport
    obtain rfl := Option.some_inj.1 hwr
    obtain rfl := Option.some_inj.1 hreport
    rw [Option.isSome_some, if_pos rfl, Option.toList_some, listKeys, filterMap_cons, filterMap_nil]
    cases buttonOf mouseKind <;> rfl

theorem map_key_modify (index : Nat) (cell : Point) :
    (buttons.modify index ({ · with lastPaneLocalCell := cell })).map key = buttons.map key := by
  induction buttons generalizing index with
  | nil => rw [modify_nil]
  | cons held buttons ih =>
    cases index with
    | zero => rfl
    | succ index => rw [modify_succ_cons, map_cons, map_cons, ih]

variable {clientId : ClientId} {paneId : PaneId} {button : MouseButton}

theorem mem_of_findHeldIndex {index : Nat} (h : findHeldMouseButtonIndex buttons clientId paneId button = some index) :
    ⟨clientId, paneId, button⟩ ∈ buttons.map key := by
  obtain ⟨hidx, hkey, -⟩ := findIdx?_eq_some_iff_getElem.1 h
  exact mem_map.2 ⟨_, getElem_mem hidx, of_decide_eq_true hkey⟩

theorem not_mem_of_findHeldIndex (h : findHeldMouseButtonIndex buttons clientId paneId button = none) :
    ⟨clientId, paneId, button⟩ ∉ buttons.map key := by
  intro hm
  obtain ⟨held, hh, hkey⟩ := mem_map.1 hm
  have := findIdx?_eq_none_iff.1 h held hh
  rw [decide_eq_false_iff_not] at this
  exact this hkey

theorem map_key_eraseIdx {index : Nat} (hnd : (buttons.map key).Nodup)
    (h : findHeldMouseButtonIndex buttons clientId paneId button = some index) :
    (buttons.eraseIdx index).map key = (buttons.map key).erase ⟨clientId, paneId, button⟩ := by
  unfold findHeldMouseButtonIndex at h
  induction buttons generalizing index with
  | nil => cases h
  | cons fst buttons ih =>
    rw [findIdx?_cons] at h
    by_cases hf : fst.key = ⟨clientId, paneId, button⟩
    · rw [decide_eq_true hf] at h
      obtain rfl := Option.some_inj.1 h
      rw [map_cons, hf, erase_cons_head]
      rfl
    · rw [decide_eq_false hf] at h
      obtain ⟨laterIndex, hlr, rfl⟩ := Option.map_eq_some_iff.1 h
      rw [eraseIdx_cons_succ, map_cons, map_cons, erase_cons_tail (by simpa using hf), ih hnd.of_cons hlr]

theorem CallSpec.keep {call : MouseCall} {keys : List HeldKey} {reports : List WrittenReport} (hnd : keys.Nodup)
    (hends : ∀ key ∈ keys, ¬call.Ends key) (hprs : ∀ key ∈ listKeys pressed? reports, key ∈ keys)
    (hdragged : ∀ key ∈ listKeys dragged? reports, key ∈ keys) (hrel : listKeys released? reports = []) :
    CallSpec call keys reports keys where
  nodup := hnd
  held := fun key => ⟨fun hm => .inr ⟨hm, hends key hm⟩, fun h => h.elim (hprs key) And.left⟩
  dragged := hdragged
  released := fun _ hm => absurd (hrel ▸ hm) not_mem_nil
  releasedOnce := hrel ▸ nodup_nil
  pressed := fun key hm => hends key (hprs key hm)

section Forward

variable {mouseKind : MouseKind} {modifiers : BindingModifierFlags} {cell : Point}

theorem not_ends_forward (hrel : mouseKind.released? = none) (key : HeldKey) :
    ¬(MouseCall.forward clientId paneId mouseKind modifiers cell).Ends key := by
  cases mouseKind with
  | release button => cases hrel
  | _ => exact id

theorem forwardMouseToPane_spec (hnd : (buttons.map key).Nodup) :
    CallSpec (.forward clientId paneId mouseKind modifiers cell) (buttons.map key)
      (forwardMouseToPane buttons panes clientId paneId mouseKind modifiers cell).2.toList
      ((forwardMouseToPane buttons panes clientId paneId mouseKind modifiers cell).1.map key) := by
  have hlists := fun buttonOf => @listKeys_writeMouseReport panes buttonOf 0 clientId paneId mouseKind modifiers cell
  unfold forwardMouseToPane
  generalize writeMouseReport panes 0 clientId paneId mouseKind modifiers cell = result at hlists ⊢
  -- a report that changes no key: of a press or a drag of a key that is held, or of an event without one
  have hkeep : mouseKind.released? = none →
      (∀ button, mouseKind.pressed? = some button ∨ mouseKind.dragged? = some button →
        ⟨clientId, paneId, button⟩ ∈ buttons.map key) →
      CallSpec (.forward clientId paneId mouseKind modifiers cell)
        (buttons.map key) result.toList (buttons.map key) := by
    intro hrelease hh
    refine .keep hnd (fun key _ => not_ends_forward hrelease key) (fun key hm => ?_) (fun key hm => ?_) ?_
    · rw [hlists] at hm
      split at hm
      · obtain ⟨button, hbtn, rfl⟩ := Option.map_eq_some_iff.1 (Option.mem_toList.1 hm)
        exact hh button (.inl hbtn)
      · cases hm
    · rw [hlists] at hm
      split at hm
      · obtain ⟨button, hbtn, rfl⟩ := Option.map_eq_some_iff.1 (Option.mem_toList.1 hm)
        exact hh button (.inr hbtn)
      · cases hm
    · rw [hlists, hrelease]
      exact ite_self []
  cases mouseKind with
  | press button =>
    dsimp only
    cases hfi : findHeldMouseButtonIndex buttons clientId paneId button with
    | some index =>
      have hm := mem_of_findHeldIndex hfi
      cases result with
      | none => exact hkeep rfl fun _ h => (h.elim Option.some_inj.1 nofun) ▸ hm
      | some wr =>
        dsimp only
        rw [map_key_modify]
        exact hkeep rfl fun _ h => (h.elim Option.some_inj.1 nofun) ▸ hm
    | none =>
      have hnew := not_mem_of_findHeldIndex hfi
      cases result with
      | none => exact .keep hnd (fun key _ => id) nofun nofun rfl
      | some wr =>
        dsimp only
        rw [map_append, map_singleton]
        refine ⟨?_, fun key => ?_, (hlists _).symm ▸ nofun, (hlists _).symm ▸ nofun, (hlists _).symm ▸ nodup_nil,
          fun _ _ => id⟩
        · exact hnd.append (nodup_singleton _) (disjoint_singleton.2 hnew)
        · rw [hlists, mem_append, or_comm]
          exact or_congr_right (and_iff_left id).symm
  | drag button =>
    dsimp only
    cases hfi : findHeldMouseButtonIndex buttons clientId paneId button with
    | none => exact .keep hnd (fun key _ => id) nofun nofun rfl
    | some index =>
      have hm := mem_of_findHeldIndex hfi
      cases result with
      | none => exact hkeep rfl fun _ h => (h.elim nofun Option.some_inj.1) ▸ hm
      | some wr =>
        dsimp only
        rw [map_key_modify]
        exact hkeep rfl fun _ h => (h.elim nofun Option.some_inj.1) ▸ hm
  | release button =>
    dsimp only
    cases hfi : findHeldMouseButtonIndex buttons clientId paneId button with
    | none =>
      refine .keep hnd (fun key hm hends => ?_) nofun nofun rfl
      exact not_mem_of_findHeldIndex hfi (hends ▸ hm)
    | some index =>
      have hm := mem_of_findHeldIndex hfi
      have hk := map_key_eraseIdx hnd hfi
      have hprs : listKeys pressed? result.toList = [] := by
        rw [hlists]
        exact ite_self []
      have hdragged : listKeys dragged? result.toList = [] := by
        rw [hlists]
        exact ite_self []
      have hrel : (listKeys released? result.toList).Sublist [⟨clientId, paneId, button⟩] := by
        rw [hlists]
        split
        · exact Sublist.refl _
        · exact nil_sublist _
      suffices hspec : CallSpec (.forward clientId paneId (.release button) modifiers cell)
          (buttons.map key) result.toList
          ((buttons.eraseIdx index).map key) by cases result <;> exact hspec
      rw [hk]
      refine ⟨hnd.erase _, fun key => ?_, hdragged ▸ nofun, fun key hin => ?_,
        hrel.nodup (nodup_singleton _), hprs ▸ nofun⟩
      · rw [hprs, hnd.mem_erase_iff, and_comm]
        exact (or_iff_right not_mem_nil).symm
      · rw [mem_singleton.1 (hrel.subset hin)]
        exact ⟨hm, rfl⟩
  | scroll scrollDirection => cases result <;> exact hkeep rfl nofun
  | motion => cases result <;> exact hkeep rfl nofun

end Forward

theorem listKeys_writeMouseReleases (release : List HeldMouseButton) :
    (listKeys released? (writeMouseReleases panes release)).Sublist (release.map key) ∧
      listKeys pressed? (writeMouseReleases panes release) = [] ∧
        listKeys dragged? (writeMouseReleases panes release) = [] := by
  unfold writeMouseReleases
  generalize 0 = i₀
  induction release generalizing i₀ with
  | nil => exact ⟨Sublist.refl _, rfl, rfl⟩
  | cons fst release ih =>
    obtain ⟨hrel, hprs, hdragged⟩ := ih (i₀ + 1)
    have hlists := fun buttonOf => @listKeys_writeMouseReport panes buttonOf i₀ fst.clientId fst.paneId
      (.release fst.button) .none fst.lastPaneLocalCell
    rw [zipIdx_cons, filterMap_cons]
    dsimp only
    generalize writeMouseReport panes i₀ fst.clientId fst.paneId (.release fst.button) .none
      fst.lastPaneLocalCell = result at hlists ⊢
    cases result with
    | none => exact ⟨hrel.cons _, hprs, hdragged⟩
    | some wr =>
      have hhead : ∀ buttonOf (rest : List WrittenReport), listKeys buttonOf (wr :: rest) =
          ((buttonOf (.release fst.button)).map fun button => ⟨fst.clientId, fst.paneId, button⟩).toList ++
            listKeys buttonOf rest := by
        intro buttonOf rest
        rw [← singleton_append, listKeys, filterMap_append]
        exact congrArg (· ++ _) (hlists buttonOf)
      refine ⟨?_, (hhead _ _).trans hprs, (hhead _ _).trans hdragged⟩
      rw [hhead]
      exact hrel.cons_cons _

theorem runMouseCall_spec (call : MouseCall) (hnd : (buttons.map key).Nodup) :
    CallSpec call (buttons.map key) (runMouseCall buttons panes call).2
      ((runMouseCall buttons panes call).1.map key) := by
  -- a call that ends the holds of some entries, and writes releases of these alone
  have hfilter : ∀ (isEnded : HeldKey → Bool) (reports : List WrittenReport), (∀ key, call.Ends key ↔ isEnded key) →
      (listKeys released? reports).Sublist ((buttons.map key).filter isEnded) →
      listKeys pressed? reports = [] → listKeys dragged? reports = [] → ∀ kept : List HeldMouseButton,
      kept.map key = (buttons.map key).filter (!isEnded ·) →
      CallSpec call (buttons.map key) reports (kept.map key) := by
    intro isEnded reports hends hrel hprs hdragged kept hk
    refine ⟨hk ▸ hnd.filter _, fun key => ?_, hdragged ▸ nofun, fun key hm => ?_,
      hrel.nodup (hnd.filter _), hprs ▸ nofun⟩
    · rw [hk, hprs, mem_filter, hends, Bool.not_eq_true', Bool.not_eq_true]
      exact (or_iff_right not_mem_nil).symm
    · rw [hends]
      exact mem_filter.1 (hrel.subset hm)
  cases call with
  | forward clientId paneId mouseKind modifiers cell => exact forwardMouseToPane_spec hnd
  | releaseClient clientId =>
    obtain ⟨hrel, hprs, hdragged⟩ := @listKeys_writeMouseReleases panes (buttons.filter (·.clientId = clientId))
    have hrun : runMouseCall buttons panes (.releaseClient clientId) =
        (buttons.filter fun held => !decide (held.clientId = clientId),
          writeMouseReleases panes (buttons.filter (·.clientId = clientId))) := by
      rw [runMouseCall, releaseClientMouseButtons, partition_eq_filter_filter]
      rfl
    rw [hrun]
    refine hfilter (fun key => key.clientId = clientId) _ (fun key => by simp [MouseCall.Ends]) ?_ hprs hdragged _ ?_
    · rw [filter_map]
      exact hrel
    · rw [filter_map]
      rfl
  | releaseEvery =>
    obtain ⟨hrel, hprs, hdragged⟩ := @listKeys_writeMouseReleases panes buttons
    refine hfilter (fun _ => true) _ (fun key => iff_of_true trivial rfl) ?_ hprs hdragged [] ?_
    · rw [filter_true]
      exact hrel
    · exact (filter_false _).symm
  | removeInPane paneId =>
    refine hfilter (fun key => key.paneId = paneId) [] (fun key => by simp [MouseCall.Ends]) (nil_sublist _) rfl rfl
      _ ?_
    rw [filter_map]
    exact congrArg (map key) (filter_congr fun held _ => decide_not)

/-! ### Runs -/

/-- The step's reports are those that the history before it asks for. -/
def Allows (before : List MouseStep) (step : MouseStep) : Prop :=
  (∀ key ∈ listKeys dragged? step.reports, IsHeld before key) ∧
    (∀ key ∈ listKeys released? step.reports, IsHeld before key ∧ step.call.Ends key) ∧
    (listKeys released? step.reports).Nodup ∧
    ∀ key ∈ listKeys pressed? step.reports, ¬step.call.Ends key

structure HeldInv (world : MouseWorld) : Prop where
  nodup : (world.heldMouseButtons.map key).Nodup
  held : ∀ key, key ∈ world.heldMouseButtons.map HeldMouseButton.key ↔ IsHeld world.history key
  justified : Justified Allows world.history

theorem HeldInv.run {world : MouseWorld} (h : HeldInv world) (call : MousePanes × MouseCall) :
    HeldInv (world.run call) := by
  have hspec := @runMouseCall_spec world.heldMouseButtons call.1 call.2 h.nodup
  refine ⟨hspec.nodup, fun key => ?_, h.justified.concat ⟨?_, ?_, hspec.releasedOnce, hspec.pressed⟩⟩
  · rw [MouseWorld.run, isHeld_concat, ← h.held]
    exact hspec.held key
  · exact fun key hm => (h.held key).1 (hspec.dragged key hm)
  · exact fun key hm => ⟨(h.held key).1 (hspec.released key hm).1, (hspec.released key hm).2⟩

theorem heldInv_foldl (calls : List (MousePanes × MouseCall)) : HeldInv (calls.foldl MouseWorld.run ⟨[], []⟩) := by
  refine foldl_keeps HeldInv ⟨nodup_nil, fun key => ?_, .nil _⟩ fun world h call _ => h.run call
  refine iff_of_false not_mem_nil ?_
  rintro ⟨before, step, after, hsp, -⟩
  exact append_ne_nil_of_right_ne_nil before (cons_ne_nil step after) hsp.symm

theorem exists_press_of_isHeld {before between : List MouseStep} {fst : MouseStep} {key : HeldKey}
    (hends : fst.call.Ends key) (hpress : key ∉ listKeys pressed? fst.reports)
    (h : IsHeld (before ++ fst :: between) key) :
    ∃ step ∈ between, key ∈ listKeys pressed? step.reports := by
  induction between using reverseRecOn with
  | nil => exact absurd (isHeld_concat.1 h) (not_or.2 ⟨hpress, fun hboth => hboth.2 hends⟩)
  | append_singleton between step ih =>
    rw [← cons_append, ← append_assoc, isHeld_concat] at h
    rcases h with hprs | ⟨hh, -⟩
    · exact ⟨step, mem_append_right _ (mem_singleton_self _), hprs⟩
    · obtain ⟨earlier, hm, hprs⟩ := ih hh
      exact ⟨earlier, mem_append_left _ hm, hprs⟩

/-- **Held buttons are exact over every run.** There is one entry for each client, pane and button of which a press was
written and not ended since, and no other; drags and releases are written only while there is one; between two written
releases of a key a press of it is written; and none is left of a client that just left. -/
theorem heldMouseButtons_exact (calls : List (MousePanes × MouseCall)) :
    ((calls.foldl run ⟨[], []⟩).heldMouseButtons.map key).Nodup ∧
    (∀ key, key ∈ (calls.foldl MouseWorld.run ⟨[], []⟩).heldMouseButtons.map HeldMouseButton.key ↔
      IsHeld (calls.foldl MouseWorld.run ⟨[], []⟩).history key) ∧
    (∀ before step after, (calls.foldl run ⟨[], []⟩).history = before ++ step :: after →
      (∀ key ∈ listKeys dragged? step.reports, IsHeld before key) ∧
      (∀ key ∈ listKeys released? step.reports, IsHeld before key ∧ step.call.Ends key) ∧
      (listKeys released? step.reports).Nodup) ∧
    (∀ before first between second after key,
      (calls.foldl run ⟨[], []⟩).history = before ++ first :: (between ++ second :: after) →
      key ∈ listKeys released? first.reports → key ∈ listKeys released? second.reports →
      ∃ step ∈ between, key ∈ listKeys pressed? step.reports) ∧
    ∀ panes clientId, ∀ entry ∈ ((calls ++ [(panes, MouseCall.releaseClient clientId)]).foldl run
      ⟨[], []⟩).heldMouseButtons, entry.clientId ≠ clientId := by
  have hinv := heldInv_foldl calls
  refine ⟨hinv.nodup, hinv.held, fun before step after hsplit => ?_, ?_, ?_⟩
  · obtain ⟨hdragged, hrel, honce, -⟩ := hinv.justified before step after hsplit
    exact ⟨hdragged, hrel, honce⟩
  · intro before first between second after key hsplit hfirst hsecond
    obtain ⟨-, hrel, -, hpressed⟩ := hinv.justified before first _ hsplit
    obtain ⟨-, hlater, -⟩ := hinv.justified (before ++ first :: between) second after
        (by rw [hsplit, append_assoc, cons_append])
    have hends := (hrel key hfirst).2
    exact exists_press_of_isHeld hends (fun hin => hpressed key hin hends) (hlater key hsecond).1
  · intro panes clientId entry hentry hsame
    rw [foldl_append] at hentry
    have hspec := @runMouseCall_spec _ panes (.releaseClient clientId) hinv.nodup
    rcases (hspec.held entry.key).1 (mem_map_of_mem hentry) with hpressed | ⟨-, hkept⟩
    · exact hspec.pressed _ hpressed hsame
    · exact hkept hsame

end Koshi.Runtime
