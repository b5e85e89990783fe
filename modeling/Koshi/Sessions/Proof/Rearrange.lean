import Koshi.Sessions.Proof.Areas

/-!
# Steps that rearrange panes

A rearranging step keeps every pane record and emits no lifecycle event; what it does to the areas is its
specification. Undocking, docking and placing a pane in another tab rearrange.
-/

namespace Koshi.Sessions

open Base Koshi.Core Layout List Option

/-- Events that report a pane record coming or going. -/
def isLifecycleEvent : Event → Bool
  | .paneCreated .. | .paneClosing .. | .paneRemoved .. => true
  | _ => false

theorem isLifecycleEvent_of_isViewEvent {ev : Event} (h : isViewEvent ev = true) : isLifecycleEvent ev = false := by
  cases ev <;> first | rfl | exact absurd h Bool.false_ne_true

/-- The step ends with the areas `areas`, keeps the registry and emits no lifecycle event. -/
structure Rearranges (session : Session) (areas : LayoutAreaId → Option (List PaneId)) (outcome : Outcome) : Prop where
  areaPanes : outcome.1.areaPanes = areas
  panes : outcome.1.panes = session.panes
  isLifecycleEvent_of_mem : ∀ event ∈ outcome.2, isLifecycleEvent event = false

namespace Rearranges

variable {session : Session} {areas later : LayoutAreaId → Option (List PaneId)} {outcome next : Outcome}

theorem trans (h : Rearranges session areas outcome) (hn : Rearranges outcome.1 later next) :
    Rearranges session later (next.1, outcome.2 ++ next.2) := by
  refine ⟨hn.areaPanes, hn.panes.trans h.panes, fun ev hm => ?_⟩
  rcases mem_append.1 hm with hm | hm
  · exact h.isLifecycleEvent_of_mem ev hm
  · exact hn.isLifecycleEvent_of_mem ev hm

theorem cons (h : Rearranges session areas outcome) {ev : Event} (hev : isLifecycleEvent ev = false) :
    Rearranges session areas (outcome.1, ev :: outcome.2) := by
  refine ⟨h.areaPanes, h.panes, fun other hm => ?_⟩
  rcases mem_cons.1 hm with rfl | hm
  · exact hev
  · exact h.isLifecycleEvent_of_mem other hm

theorem silent {after : Session} (hareas : after.areaPanes = areas) (hpanes : after.panes = session.panes) :
    Rearranges session areas (after, []) := ⟨hareas, hpanes, fun _ hm => absurd hm not_mem_nil⟩

theorem of_settles {ed : Session} (h : Settles ed outcome) (hareas : ed.areaPanes = areas)
    (hpanes : ed.panes = session.panes) : Rearranges session areas outcome :=
  ⟨h.areaPanes.trans hareas, h.panes.trans hpanes,
    fun ev hm => isLifecycleEvent_of_isViewEvent (h.isViewEvent_of_mem ev hm)⟩

theorem forEach {α : Type} {xs : List α} {body : Session → α → Outcome}
    (hbody : ∀ session item, item ∈ xs → Rearranges session session.areaPanes (body session item))
    (session : Session) : Rearranges session session.areaPanes (Sessions.forEach xs body session) := by
  unfold Sessions.forEach
  refine foldl_keeps (fun outcome : Outcome => Rearranges session session.areaPanes outcome)
    (silent rfl rfl) fun outcome houtcome item hm => ?_
  have hn := hbody outcome.1 item hm
  rw [houtcome.areaPanes] at hn
  exact houtcome.trans hn

end Rearranges

theorem Keeps.rearranges {session : Session} {outcome : Outcome} (h : Settles session outcome) :
    Rearranges session session.areaPanes outcome := .of_settles h rfl rfl

/-! ### Closing a tab while another one stays -/

section CloseTab

variable (session : Session)

theorem rearranges_moveViewer (closedId nextId : TabId) (clientId : ClientId) :
    Rearranges session session.areaPanes (moveViewer closedId nextId session clientId) := by
  have hlanded : Rearranges session session.areaPanes (landFocus _ clientId nextId) :=
    .of_settles (quiet_landFocus (session.modifyClient clientId (·.updateActiveTabId nextId)) clientId
      nextId).settles (session.areaPanes_modifyClient clientId _) rfl
  exact hlanded.cons rfl

theorem rearranges_moveViewersToTab (closedId : TabId) (viewingIds : List ClientId) (nextId : Option TabId) :
    Rearranges session session.areaPanes (moveViewersToTab session closedId viewingIds nextId) := by
  cases nextId with
  | none => exact .silent rfl rfl
  | some nextId =>
    have hmoved := Rearranges.forEach (fun session clientId (_ : clientId ∈ viewingIds) =>
      rearranges_moveViewer session closedId nextId clientId) session
    have hslv := (settles_updateTabSolve (forEach viewingIds (moveViewer closedId nextId) session).1 nextId).rearranges
    rw [hmoved.areaPanes] at hslv
    exact hmoved.trans hslv

theorem assignTabIndexes_keeps (tabIndexes : List (TabId × Nat)) :
    (assignTabIndexes session tabIndexes).areaPanes = session.areaPanes ∧
      (assignTabIndexes session tabIndexes).panes = session.panes := by
  unfold assignTabIndexes
  refine foldl_keeps (fun after : Session => after.areaPanes = session.areaPanes ∧ after.panes = session.panes)
    ⟨rfl, rfl⟩ fun after haf entry _ => ?_
  exact ⟨(after.areaPanes_updateTabIndex entry.1 entry.2).trans haf.1, haf.2⟩

theorem rearranges_reindexTabsByDisplayIndex :
    Rearranges session session.areaPanes (reindexTabsByDisplayIndex session, []) :=
  .silent (assignTabIndexes_keeps session _).1 (assignTabIndexes_keeps session _).2

theorem tabs_size_ne_zero {tabId : TabId} (h : session.areaPanes (.tab tabId) ≠ none) : session.tabs.size ≠ 0 := by
  intro hsize
  refine h ?_
  rw [Session.areaPanes, (session.tabs.size_eq_zero_iff.1 hsize) tabId, map_none]

theorem rearranges_closeAndRefocusTab (tabId : TabId) (paneExit : Option PaneProcessExited) {id' : TabId}
    (hne : id' ≠ tabId) (ho : session.areaPanes (.tab id') ≠ none) :
    Rearranges session (Function.update session.areaPanes (.tab tabId) none)
      (closeAndRefocusTab session tabId paneExit) := by
  have hcleared : Rearranges session (Function.update session.areaPanes (.tab tabId) none)
      ((session.removeTab tabId).modifyClients (·.clearFocusHistory tabId), []) :=
    .silent ((Session.areaPanes_modifyClients ..).trans (session.areaPanes_removeTab tabId)) rfl
  unfold closeAndRefocusTab
  simp only
  generalize ((session.tabs.get? tabId).map Tab.tabIndex).bind
    (findNearestSurvivingTabByIndex (session.removeTab tabId)) = nextId
  generalize ((session.removeTab tabId).listAttachedClients.filter fun cl =>
    cl.activeTabId = tabId).map Client.clientId = viewingClientIds
  have hmoved := rearranges_moveViewersToTab ((session.removeTab tabId).modifyClients (·.clearFocusHistory tabId)) tabId
    viewingClientIds nextId
  generalize moveViewersToTab ((session.removeTab tabId).modifyClients (·.clearFocusHistory tabId)) tabId
    viewingClientIds nextId = moved at hmoved ⊢
  rw [hcleared.areaPanes] at hmoved
  have hreindexed := rearranges_reindexTabsByDisplayIndex moved.1
  rw [hmoved.areaPanes] at hreindexed
  -- the other tab is still there, so the session does not quit
  have hstays : (reindexTabsByDisplayIndex moved.1).tabs.size ≠ 0 := by
    refine @tabs_size_ne_zero _ id' ?_
    rw [hreindexed.areaPanes, Function.update_of_ne (by simpa using hne)]
    exact ho
  rw [quitWithoutTabs, if_neg hstays]
  exact ((hcleared.trans hmoved).trans hreindexed).cons rfl

end CloseTab

/-! ### Taking a pane out of its area -/

section RemovePane

variable {session : Session} {paneId : PaneId}

/-- What is left of an area's panes: nothing when the pane was the only one. -/
def leftPanes (leafPaneIds : List PaneId) (paneId : PaneId) : Option (List PaneId) :=
  if leafPaneIds = [paneId] then none else some (leafPaneIds.erase paneId)

theorem removePaneFromTab_rearranges {tabId id' : TabId} {tab : Tab} (htab : session.tabs.get? tabId = some tab)
    (hm : paneId ∈ tab.listPaneIds)
    (hstays : tab.listPaneIds = [paneId] → id' ≠ tabId ∧ session.areaPanes (.tab id') ≠ none)
    (paneExit : Option PaneProcessExited) :
    ∃ outcome, removePaneFromTab session tabId paneId paneExit = some outcome ∧
      Rearranges session (Function.update session.areaPanes (.tab tabId) (leftPanes tab.listPaneIds paneId))
        outcome := by
  obtain ⟨removed, hrmv, hspec⟩ := removePaneAndNormalize_spec tab.layoutArea.layout paneId
  have hforgotten : Rearranges session session.areaPanes (session.modifyTab tabId (·.removeFocusMru paneId), []) :=
    .silent (session.areaPanes_modifyTab_of_eq tabId fun _ => rfl) rfl
  unfold removePaneFromTab
  rw [htab]
  simp only [hrmv, map_some]
  refine ⟨_, rfl, ?_⟩
  cases removed with
  | error removeError =>
    have hunzoomed : Rearranges session session.areaPanes
        ((session.modifyTab tabId (·.removeFocusMru paneId)).modifyClients (·.clearZoomOfPane paneId), []) :=
      .silent ((Session.areaPanes_modifyClients ..).trans hforgotten.areaPanes) rfl
    cases removeError with
    | paneNotFound errorPaneId => exact absurd hm hspec.2
    | lastPane errorPaneId =>
      have honly : tab.listPaneIds = [paneId] := hspec.2
      obtain ⟨hne, ho⟩ := hstays honly
      rw [leftPanes, if_pos honly, ← hunzoomed.areaPanes]
      exact hunzoomed.trans (rearranges_closeAndRefocusTab _ tabId paneExit hne (by rw [hunzoomed.areaPanes]; exact ho))
  | ok canonical =>
    obtain ⟨-, hleft, hlv⟩ := hspec
    have hmany : tab.listPaneIds ≠ [paneId] := by
      intro honly
      rw [show tab.layoutArea.layout.listLeafPaneIds = [paneId] from honly, erase_cons_head] at hlv
      exact hleft hlv
    rw [leftPanes, if_neg hmany]
    have hg : (session.modifyTab tabId (·.removeFocusMru paneId)).tabs.get? tabId =
        some (tab.removeFocusMru paneId) := by
      simp [Session.modifyTab, htab]
    have hlay : isViewEvent (.layoutChanged tabId) = true := rfl
    have hupd := (settles_updateTabLayout _ hg canonical).cons hlay
    have hunzoomed := hupd.trans (quiet_modifyClients _ fun cl => cl.eraseView_clearZoomOfPane paneId).settles
    rw [append_nil] at hunzoomed
    have hrepaired := hunzoomed.trans (quiet_repairFocusAfterLeft _ tabId paneId
      (listFocusedClientRects session tabId paneId)).settles
    refine .of_settles hrepaired ?_ rfl
    rw [Session.areaPanes_replaceLayout _ hg, hforgotten.areaPanes, hlv]
    rfl

theorem removeFloatingLeaf_rearranges (hnd : (session.floatingSet.map FloatingPane.floatingPaneId).Nodup)
    {floatId : FloatingPaneId} {floating : FloatingPane}
    (hfi : FloatingSet.findFloatingPaneById session.floatingSet floatId = some floating)
    (hm : paneId ∈ floating.listPaneIds) :
    ∃ outcome, removePaneLeafFromFloatingPane session floatId paneId = some outcome ∧
      Rearranges session (Function.update session.areaPanes (.floatingPane floatId)
        (leftPanes floating.listPaneIds paneId)) outcome ∧
      (outcome.1.floatingSet.map FloatingPane.floatingPaneId).Sublist
        (session.floatingSet.map FloatingPane.floatingPaneId) := by
  obtain ⟨removed, hrmv, hspec⟩ := removePaneAndNormalize_spec floating.layoutArea.layout paneId
  unfold removePaneLeafFromFloatingPane
  rw [hfi]
  simp only [hrmv, map_some]
  refine ⟨_, rfl, ?_⟩
  cases removed with
  | error removeError =>
    cases removeError with
    | paneNotFound errorPaneId => exact absurd hm hspec.2
    | lastPane errorPaneId =>
      have honly : floating.listPaneIds = [paneId] := hspec.2
      rw [leftPanes, if_pos honly]
      refine ⟨.silent (session.areaPanes_removeFloating hnd floatId) (session.panes_removeFloating _), ?_⟩
      rw [Session.removeFloatingPane, hfi]
      exact FloatingSet.map_id_removeById_sublist session.floatingSet floatId
  | ok canonical =>
    obtain ⟨-, hleft, hlv⟩ := hspec
    have hmany : floating.listPaneIds ≠ [paneId] := by
      intro honly
      rw [show floating.layoutArea.layout.listLeafPaneIds = [paneId] from honly, erase_cons_head] at hlv
      exact hleft hlv
    rw [leftPanes, if_neg hmany]
    have hlay : isViewEvent (.floatingPaneLayoutChanged canonical.listLeafPaneIds) = true := rfl
    have hupd := (quiet_updateFloatingLayout session hfi canonical).cons hlay
    have hunzoomed := hupd.trans (quiet_modifyClients _ fun cl => cl.eraseView_clearZoomOfPane paneId)
    rw [append_nil] at hunzoomed
    refine ⟨.of_settles hunzoomed.settles ?_ rfl, ?_⟩
    · rw [session.areaPanes_replaceFloatingLayout hfi, hlv]
      rfl
    · have hids := FloatingSet.map_id_modifyById floatId
        (f := (·.replaceLayout canonical session.paneSizing)) (fun _ => rfl) session.floatingSet
      rw [hunzoomed.settles.floatingSet]
      exact hids ▸ List.Sublist.refl _

end RemovePane

/-! ### Clients that follow -/

section Follow

variable (session : Session)

theorem rearranges_moveClientOntoTiledPane (clientId : ClientId) (tabId : TabId) (paneId : PaneId)
    (previousPaneId : Option PaneId) :
    Rearranges session session.areaPanes (moveClientOntoTiledPane session clientId tabId paneId previousPaneId) := by
  unfold moveClientOntoTiledPane
  cases session.clients.get? clientId with
  | none => exact .silent rfl rfl
  | some client =>
    refine ⟨?_, rfl, fun event hm => ?_⟩
    · exact (Session.areaPanes_modifyTab_of_eq _ tabId (f := (·.recordFocusMru paneId)) fun _ => rfl).trans
        (session.areaPanes_modifyClient clientId _)
    · rcases mem_append.1 hm with hm | hm
      · rcases mem_append.1 hm with hm | hm
        · split_ifs at hm
          · rw [mem_singleton.1 hm]
            rfl
          · exact absurd hm not_mem_nil
        · exact isLifecycleEvent_of_isViewEvent (isViewEvent_buildFloatingMinimizedEvents hm)
      · rw [mem_singleton.1 hm]
        rfl

theorem rearranges_moveClientsOnto (clientIds : List ClientId) (tabId : TabId) (paneId : PaneId) :
    Rearranges session session.areaPanes (moveClientsOnto session clientIds tabId paneId) :=
  .forEach (fun session clientId _ => rearranges_moveClientOntoTiledPane session clientId tabId paneId none) session

theorem rearranges_moveDockClients (targetId : TabId) (movingClients : List MovingClient) :
    Rearranges session session.areaPanes (moveDockClients session targetId movingClients) :=
  .forEach (fun session mover _ => rearranges_moveClientOntoTiledPane session mover.clientId
    targetId mover.landingPaneId mover.previousFloatingFocusedPaneId) session

theorem rearranges_joinFocusHistory (targetId : TabId) (movingClientIds : List ClientId) (isOnto : Bool)
    (entries : List (ClientId × List PaneId)) :
    Rearranges session session.areaPanes (entries.foldl (joinFocusHistory targetId movingClientIds isOnto)
      session, []) := by
  refine foldl_keeps (fun after : Session => Rearranges session session.areaPanes (after, [])) (.silent rfl rfl)
    fun after haf entry _ => ?_
  exact .silent ((after.areaPanes_modifyClient entry.1 _).trans haf.areaPanes) haf.panes

end Follow

end Koshi.Sessions
