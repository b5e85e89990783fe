import Koshi.Base.Ownership
import Koshi.Layout.Proof.Edit
import Koshi.Sessions.Proof.Views

/-!
# Which area holds which pane

A session seen as areas (the trees of tabs and of floating panes) that hold panes. A step that settles the
session keeps the areas; every other step replaces the list of one area, which is a `Function.update`.
-/

namespace Koshi.Sessions

open Base Koshi.Core Layout Option Function FloatingSet

/-- The panes of each layout tree; `none` for an area the session does not hold. -/
def Session.areaPanes (session : Session) : LayoutAreaId → Option (List PaneId)
  | .tab tabId => (session.tabs.get? tabId).map Tab.listPaneIds
  | .floatingPane floatId =>
    (findFloatingPaneById session.floatingSet floatId).map FloatingPane.listPaneIds

/-! ### Settling steps -/

namespace Session

variable (session : Session)

theorem areaPanes_eraseSolves : session.eraseSolves.areaPanes = session.areaPanes := by
  funext ar
  cases ar with
  | tab tabId =>
    simp only [areaPanes, eraseSolves, OrdMap.get?_mapValues, Option.map_map]
    rfl
  | floatingPane floatId => rfl

end Session

namespace Keeps

variable {session : Session} {outcome : Outcome}

theorem areaPanes (h : Settles session outcome) : outcome.1.areaPanes = session.areaPanes := by
  rw [← Session.areaPanes_eraseSolves, h.project_eq, Session.areaPanes_eraseSolves]

theorem panes (h : Settles session outcome) : outcome.1.panes = session.panes :=
  show outcome.1.eraseSolves.panes = session.eraseSolves.panes from congrArg _ h.project_eq

theorem floatingSet (h : Settles session outcome) : outcome.1.floatingSet = session.floatingSet :=
  show outcome.1.eraseSolves.floatingSet = session.eraseSolves.floatingSet from congrArg _ h.project_eq

end Keeps

/-! ### Structural steps -/

variable {floatingPane : FloatingPane}

theorem FloatingSet.addFloating_eq_ok_iff {floatingSet d : FloatingSet} :
    addFloatingPane floatingSet floatingPane = .ok d ↔
      (∀ paneId ∈ floatingPane.listPaneIds, hasPane floatingSet paneId = false) ∧
        isFull floatingSet = false ∧ d = floatingSet ++ [floatingPane] := by
  unfold addFloatingPane
  cases hfi : floatingPane.listPaneIds.find? (hasPane floatingSet ·) with
  | some paneId =>
    simp only [reduceCtorEq, false_iff, not_and]
    intro hfree
    have hh := List.find?_some hfi
    rw [hfree paneId (List.mem_of_find?_eq_some hfi)] at hh
    exact absurd hh Bool.false_ne_true
  | none =>
    have hfree : ∀ paneId ∈ floatingPane.listPaneIds, hasPane floatingSet paneId = false := by
      simpa using hfi
    cases isFull floatingSet with
    | false =>
      simp only [Bool.false_eq_true, if_false, Except.ok.injEq, true_and]
      exact ⟨fun h => ⟨hfree, h.symm⟩, fun h => h.2.symm⟩
    | true => simp

theorem Session.addFloating_eq_ok_iff (session : Session) {floatingPane : FloatingPane}
    {positions : List (ClientId × FloatingPanePosition)} {d : Session} :
    session.addFloatingPane floatingPane positions = .ok d ↔
      (∀ paneId ∈ floatingPane.listPaneIds, hasPane session.floatingSet paneId = false) ∧
        isFull session.floatingSet = false ∧
        d = { session with floatingSet := session.floatingSet ++ [floatingPane] }.modifyClients fun cl =>
          cl.addFloatingPaneView floatingPane (findClientPosition positions cl.clientId) := by
  unfold Session.addFloatingPane
  cases hset : FloatingSet.addFloatingPane session.floatingSet floatingPane with
  | error floatingSetError =>
    simp only [reduceCtorEq, false_iff]
    rintro ⟨hfree, hfull, -⟩
    have hok := FloatingSet.addFloating_eq_ok_iff.2 ⟨hfree, hfull, rfl⟩
    rw [hset] at hok
    cases hok
  | ok floatingSet =>
    obtain ⟨hfree, hfull, rfl⟩ := FloatingSet.addFloating_eq_ok_iff.1 hset
    simp only [Except.ok.injEq]
    exact ⟨fun h => ⟨hfree, hfull, h.symm⟩, fun h => h.2.2.symm⟩

namespace Session

variable (session : Session)

@[simp] theorem areaPanes_modifyClient (clientId : ClientId) (f : Client → Client) :
    (session.modifyClient clientId f).areaPanes = session.areaPanes := by
  funext ar
  cases ar <;> rfl

@[simp] theorem areaPanes_modifyClients (f : Client → Client) :
    (session.modifyClients f).areaPanes = session.areaPanes := by
  funext ar
  cases ar <;> rfl

variable (tabId : TabId)

theorem areaPanes_modifyTab_of_eq {f : Tab → Tab} (hf : ∀ tab, (f tab).listPaneIds = tab.listPaneIds) :
    (session.modifyTab tabId f).areaPanes = session.areaPanes := by
  funext ar
  cases ar with
  | tab j =>
    simp only [areaPanes, modifyTab, OrdMap.get?_modify]
    split_ifs with h
    · rw [h, Option.map_map]
      congr 1
      exact funext hf
    · rfl
  | floatingPane floatId => rfl

@[simp] theorem areaPanes_updateTabIndex (tabIndex : Nat) :
    (session.updateTabIndex tabId tabIndex).areaPanes = session.areaPanes :=
  session.areaPanes_modifyTab_of_eq tabId fun _ => rfl

theorem areaPanes_removeTab : (session.removeTab tabId).areaPanes = update session.areaPanes (.tab tabId) none := by
  funext ar
  cases ar with
  | tab j =>
    by_cases h : j = tabId
    · rw [h, update_self]
      simp [areaPanes, removeTab]
    · rw [update_of_ne (by simpa using h)]
      simp [areaPanes, removeTab, h]
  | floatingPane floatId =>
    rw [update_of_ne (by simp)]
    rfl

theorem areaPanes_replaceLayout {tabId : TabId} {tab : Tab} (htab : session.tabs.get? tabId = some tab)
    (t : LayoutNode) :
    (session.modifyTab tabId (·.replaceLayout t session.paneSizing)).areaPanes =
      update session.areaPanes (.tab tabId) (some t.listLeafPaneIds) := by
  funext ar
  cases ar with
  | tab j =>
    by_cases h : j = tabId
    · rw [h, update_self]
      simp only [areaPanes, modifyTab, OrdMap.get?_modify, if_true, htab, map_some]
      rfl
    · rw [update_of_ne (by simpa using h)]
      simp [areaPanes, modifyTab, h]
  | floatingPane floatId =>
    rw [update_of_ne (by simp)]
    rfl

theorem areaPanes_replaceFloatingLayout {floatId : FloatingPaneId}
    (hfi : findFloatingPaneById session.floatingSet floatId = some floatingPane) (t : LayoutNode) :
    ({ session with
      floatingSet := session.floatingSet.modifyById floatId
        (·.replaceLayout t session.paneSizing) } : Session).areaPanes =
      update session.areaPanes (.floatingPane floatId) (some t.listLeafPaneIds) := by
  funext ar
  cases ar with
  | tab tabId =>
    rw [update_of_ne (by simp)]
    rfl
  | floatingPane j =>
    have hmodify := findFloatingById_modifyById floatId j
      (f := (·.replaceLayout t session.paneSizing)) (fun _ => rfl) session.floatingSet
    simp only [areaPanes, hmodify]
    by_cases h : j = floatId
    · rw [h, update_self, if_pos rfl, hfi]
      rfl
    · rw [update_of_ne (by simpa using h), if_neg h]
      rfl

theorem areaPanes_addFloating {positions : List (ClientId × FloatingPanePosition)} {d : Session}
    (hnew : findFloatingPaneById session.floatingSet floatingPane.floatingPaneId = none)
    (hadd : session.addFloatingPane floatingPane positions = .ok d) :
    d.areaPanes =
      update session.areaPanes (.floatingPane floatingPane.floatingPaneId) (some floatingPane.listPaneIds) := by
  obtain ⟨-, -, rfl⟩ := session.addFloating_eq_ok_iff.1 hadd
  rw [areaPanes_modifyClients]
  funext ar
  cases ar with
  | tab tabId =>
    rw [update_of_ne (by simp)]
    rfl
  | floatingPane j =>
    have hnone : ∀ other ∈ session.floatingSet, other.floatingPaneId ≠ floatingPane.floatingPaneId := by
      simpa [findFloatingPaneById] using hnew
    simp only [areaPanes, findFloatingPaneById, List.find?_append]
    by_cases h : j = floatingPane.floatingPaneId
    · rw [h, update_self, ← findFloatingPaneById, hnew]
      simp
    · rw [update_of_ne (by simpa using h)]
      have hsgl : List.find? (fun other => decide (other.floatingPaneId = j)) [floatingPane] = none := by
        simpa using Ne.symm h
      rw [hsgl, or_none]
      rfl

theorem areaPanes_removeFloating (hnd : (session.floatingSet.map FloatingPane.floatingPaneId).Nodup)
    (floatId : FloatingPaneId) :
    (session.removeFloatingPane floatId).areaPanes = update session.areaPanes (.floatingPane floatId) none := by
  unfold Session.removeFloatingPane
  cases hfi : findFloatingPaneById session.floatingSet floatId with
  | none =>
    have habsent : session.areaPanes (.floatingPane floatId) = none := by rw [areaPanes, hfi, map_none]
    rw [← habsent, update_eq_self]
  | some floatingPane =>
    simp only [areaPanes_modifyClients]
    funext ar
    cases ar with
    | tab tabId =>
      rw [update_of_ne (by simp)]
      rfl
    | floatingPane j =>
      simp only [areaPanes, findFloatingById_removeById hnd]
      by_cases h : j = floatId
      · rw [h, update_self, if_pos rfl, map_none]
      · rw [update_of_ne (by simpa using h), if_neg h]
        rfl

@[simp] theorem panes_removeFloating (floatId : FloatingPaneId) :
    (session.removeFloatingPane floatId).panes = session.panes := by
  unfold Session.removeFloatingPane
  cases findFloatingPaneById session.floatingSet floatId <;> rfl

end Session

end Koshi.Sessions
