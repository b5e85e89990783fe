import Koshi.Sessions.Proof.Consistency
import Koshi.Sessions.Proof.Rearrange

/-!
# Placement commits are all or nothing

A commit of an undock, a dock or a cross-tab placement either answers an error and leaves the session as it was, or
rearranges the panes it moves: no record comes or goes and every other pane stays where it is. The prechecks make
every later step infallible, so no commit panics.
-/

namespace Koshi.Sessions

open Base Koshi.Core Layout List Option Function Session FloatingSet LayoutNode

variable {session : Session} {actor : ClientId} {dockIds : List PaneId} {target origin : TabId}

/-- The answer of a commit: an error leaves the session alone, success rearranges it to `areas`. -/
def CommitSpec (session : Session) (areas : LayoutAreaId → Option (List PaneId)) (result : CommitResult) : Prop :=
  match result.1 with
  | .error _ => result.2 = session
  | .ok events => Rearranges session areas (result.2, events)

variable {tabId : TabId}

section Areas

variable {session : Session}

theorem areaPanes_tab_ne_none {tab : Tab} (h : session.tabs.get? tabId = some tab) :
    session.areaPanes (.tab tabId) ≠ none := by
  rw [areaPanes, h]
  exact some_ne_none _

theorem tabs_get?_of_areaPanes {ps : List PaneId} (h : session.areaPanes (.tab tabId) = some ps) :
    ∃ tab, session.tabs.get? tabId = some tab ∧ tab.listPaneIds = ps := map_eq_some_iff.1 h

theorem exists_other_tab {tab : Tab} (htab : session.tabs.get? tabId = some tab) (hsize : session.tabs.size ≠ 1) :
    ∃ id', id' ≠ tabId ∧ session.areaPanes (.tab id') ≠ none := by
  have herase := session.tabs.size_erase htab
  have hr : (session.tabs.erase tabId).size ≠ 0 := by omega
  rw [ne_eq, OrdMap.size_eq_zero_iff, not_forall] at hr
  obtain ⟨id', ho⟩ := hr
  rw [OrdMap.get?_erase] at ho
  split_ifs at ho with heq
  · exact absurd rfl ho
  · obtain ⟨otherTab, hotherTab⟩ := ne_none_iff_exists'.1 ho
    exact ⟨id', heq, areaPanes_tab_ne_none hotherTab⟩

theorem holds_leftPanes_iff {areas : LayoutAreaId → Option (List PaneId)} {ar : LayoutAreaId} {leaves : List PaneId}
    (harea : areas ar = some leaves) (hnd : leaves.Nodup) {leavingPaneId paneId : PaneId} (hne : paneId ≠ leavingPaneId)
    (other : LayoutAreaId) :
    Holds (update areas ar (leftPanes leaves leavingPaneId)) other paneId ↔ Holds areas other paneId := by
  by_cases ho : other = ar
  · rw [ho, holds_iff harea, leftPanes]
    split_ifs with honly
    · simp [holds_update_none, honly, hne]
    · rw [holds_update_self_some, hnd.mem_erase_iff]
      simp [hne]
  · rw [holds_update_of_ne ho]

end Areas

/-! ### Undock -/

def undockAreas (session : Session) (floatId : FloatingPaneId) (area : LayoutAreaId)
    (sourcePaneId : PaneId) : LayoutAreaId → Option (List PaneId) :=
  update (update session.areaPanes area ((session.areaPanes area).bind (leftPanes · sourcePaneId)))
    (.floatingPane floatId) (some [sourcePaneId])

variable {sourcePaneId : PaneId}

theorem checkUndock_eq_none {area : LayoutAreaId} (h : checkUndock session area sourcePaneId actor = none) :
    (match area with
      | .tab origin => ∃ oldTab, session.tabs.get? origin = some oldTab ∧
          sourcePaneId ∈ oldTab.listPaneIds ∧ (oldTab.listPaneIds.length = 1 → session.tabs.size ≠ 1)
      | .floatingPane float => ∃ pane,
          findFloatingPaneById session.floatingSet float = some pane ∧
            sourcePaneId ∈ pane.listPaneIds ∧ pane.listPaneIds.length ≠ 1) ∧
      isFull session.floatingSet = false := by
  unfold checkUndock at h
  simp only at h
  split at h
  · cases h
  · rename_i harea
    split_ifs at h with hcl hfull
    refine ⟨?_, by simpa using hfull⟩
    cases area with
    | tab origin =>
      simp only at harea ⊢
      cases htab : session.tabs.get? origin with
      | none => simp [htab] at harea
      | some oldTab =>
        simp only [htab] at harea
        split_ifs at harea with hleaf hl
        exact ⟨oldTab, rfl, by simpa using hleaf, fun hlen hsize => hl ⟨hsize, hlen⟩⟩
    | floatingPane float =>
      simp only at harea ⊢
      cases hfi : findFloatingPaneById session.floatingSet float with
      | none => simp [hfi] at harea
      | some pane =>
        simp only [hfi] at harea
        split_ifs at harea with hleaf halone
        exact ⟨pane, rfl, by simpa using hleaf, halone⟩

theorem floatingSet_hasPane_eq_false (hnd : (session.floatingSet.map FloatingPane.floatingPaneId).Nodup)
    {paneId : PaneId} (hfree : ∀ floatId, ¬ Holds session.areaPanes (.floatingPane floatId) paneId) :
    FloatingSet.hasPane session.floatingSet paneId = false := by
  rw [FloatingSet.hasPane, FloatingSet.findFloatingPaneByPaneId, isSome_eq_false_iff, isNone_iff_eq_none,
    List.find?_eq_none]
  intro floating hm hhas
  exact hfree floating.floatingPaneId ((holds_floatingPane_iff ..).2
    ⟨floating, findFloatingById_of_mem hnd hm, (floating.hasPane_iff paneId).1 hhas⟩)

theorem commitUndockPlacement_spec (howns : Ownership session) {floatId : FloatingPaneId}
    (hfresh : session.areaPanes (.floatingPane floatId) = none) (area : LayoutAreaId) (sourcePaneId : PaneId)
    (desiredSize : FloatingPaneSize) (solvedSize : Size) (acting : ClientId × FloatingPanePosition) :
    ∃ result, commitUndockPlacement session floatId area sourcePaneId desiredSize solvedSize acting = some result ∧
      CommitSpec session (undockAreas session floatId area sourcePaneId) result := by
  unfold commitUndockPlacement
  cases hcheck : checkUndock session area sourcePaneId acting.1 with
  | some error => exact ⟨_, rfl, rfl⟩
  | none =>
    obtain ⟨hsr, hfull⟩ := checkUndock_eq_none hcheck
    simp only
    generalize listUndockClientPositions session area sourcePaneId acting = positions
    have hfi : findFloatingPaneById session.floatingSet floatId = none :=
      map_eq_none_iff.1 hfresh
    cases area with
    | tab origin =>
      obtain ⟨oldTab, htab, hm, hl⟩ := hsr
      have hsrcArea : session.areaPanes (.tab origin) = some oldTab.listPaneIds := by
        rw [areaPanes, htab, map_some]
      cases hadd : session.addFloatingPane
          (FloatingPane.fromPane floatId sourcePaneId desiredSize solvedSize session.paneSizing)
          positions with
      | error floatingSetError => exact ⟨_, rfl, rfl⟩
      | ok d =>
        have hadded : Rearranges session
            (update session.areaPanes (.floatingPane floatId) (some [sourcePaneId])) (d, []) := by
          refine .silent (session.areaPanes_addFloating hfi hadd) ?_
          obtain ⟨-, -, rfl⟩ := session.addFloating_eq_ok_iff.1 hadd
          rfl
        have haddedTab : d.tabs.get? origin = some oldTab := by
          obtain ⟨-, -, rfl⟩ := session.addFloating_eq_ok_iff.1 hadd
          exact htab
        -- the undocked pane is not the last tiled one, so a closing tab leaves another
        obtain ⟨id', hstays⟩ : ∃ id', oldTab.listPaneIds = [sourcePaneId] →
            id' ≠ origin ∧ d.areaPanes (.tab id') ≠ none := by
          by_cases honly : oldTab.listPaneIds = [sourcePaneId]
          · obtain ⟨id', hne, ho⟩ := exists_other_tab htab (hl (by rw [honly, length_singleton]))
            refine ⟨id', fun _ => ⟨hne, ?_⟩⟩
            rw [hadded.areaPanes, update_of_ne (by simp)]
            exact ho
          · exact ⟨origin, fun h => absurd h honly⟩
        obtain ⟨removed, hrv, hmoves⟩ := removePaneFromTab_rearranges haddedTab hm hstays none
        have hsh := (quiet_showForClients removed.1 positions floatId).settles.rearranges
        rw [hmoves.areaPanes, hadded.areaPanes, update_comm (by simp)] at hsh
        simp only [hrv, map_some]
        refine ⟨_, rfl, ?_⟩
        rw [undockAreas, hsrcArea]
        exact hadded.trans (hmoves.trans hsh)
    | floatingPane float =>
      obtain ⟨pane, hsrcFind, hm, halone⟩ := hsr
      have hsrcArea : session.areaPanes (.floatingPane float) =
          some pane.listPaneIds := by rw [areaPanes, hsrcFind, map_some]
      have hmany : pane.listPaneIds ≠ [sourcePaneId] := fun honly =>
        halone (by rw [honly, length_singleton])
      have hne : floatId ≠ float := by
        rintro rfl
        rw [hsrcFind] at hfi
        exact some_ne_none _ hfi
      obtain ⟨removed, hrv, hmoves, hids⟩ :=
        removeFloatingLeaf_rearranges howns.nodup_floatingPaneIds hsrcFind hm
      simp only [hrv, bind_some]
      generalize listFloatingPaneFocusedClientRects session float sourcePaneId = rects
      -- the pane left the one area that held it, so the floating set takes it
      have hfree : ∀ j, ¬ Holds removed.1.areaPanes (.floatingPane j) sourcePaneId := by
        intro j hhl
        rw [hmoves.areaPanes, leftPanes, if_neg hmany, holds_update_some] at hhl
        rcases hhl with ⟨-, hleft⟩ | ⟨ho, hhl⟩
        · exact (howns.owned.nodup hsrcArea).not_mem_erase hleft
        · exact ho (howns.owned.unique hhl (holds_of_mem hsrcArea hm))
      have hnd := hids.nodup howns.nodup_floatingPaneIds
      obtain ⟨d, hadd⟩ : ∃ d, removed.1.addFloatingPane (.fromPane floatId sourcePaneId desiredSize
          solvedSize session.paneSizing) positions = .ok d := by
        refine ⟨_, removed.1.addFloating_eq_ok_iff.2 ⟨fun paneId hpa => ?_, ?_, rfl⟩⟩
        · rw [mem_singleton.1 hpa]
          exact floatingSet_hasPane_eq_false hnd hfree
        · have hlen := hids.length_le
          simp only [length_map] at hlen
          simp only [isFull, ge_iff_le, decide_eq_false_iff_not, not_le] at hfull ⊢
          exact hlen.trans_lt hfull
      have hnew : findFloatingPaneById removed.1.floatingSet floatId = none := by
        have harea : removed.1.areaPanes (.floatingPane floatId) = none := by
          rw [hmoves.areaPanes, update_of_ne (by simpa using hne)]
          exact hfresh
        exact map_eq_none_iff.1 harea
      have hadded : Rearranges removed.1
          (update removed.1.areaPanes (.floatingPane floatId) (some [sourcePaneId])) (d, []) := by
        refine .silent (removed.1.areaPanes_addFloating hnew hadd) ?_
        obtain ⟨-, -, rfl⟩ := removed.1.addFloating_eq_ok_iff.1 hadd
        rfl
      have hsh := (quiet_showForClients d positions floatId).settles.rearranges
      have hrepaired := (quiet_repairFloatingFocusAfterLeft (showForClients d positions floatId).1 float sourcePaneId
        rects).settles.rearranges
      rw [hsh.areaPanes, hadded.areaPanes] at hrepaired
      rw [hadded.areaPanes] at hsh
      simp only [hadd]
      refine ⟨_, rfl, ?_⟩
      have hall := ((hmoves.trans hadded).trans hsh).trans hrepaired
      rw [append_nil, hmoves.areaPanes] at hall
      rw [undockAreas, hsrcArea]
      exact hall

/-! ### Dock -/

def dockLeftPanes (floatingPaneIds : Option (List PaneId)) : DockSource → Option (List PaneId)
  | .pane sourcePaneId => floatingPaneIds.bind (leftPanes · sourcePaneId)
  | .wholeFloatingPane _ => none

def dockAreas (session : Session) (float : FloatingPaneId) (source : DockSource) (target : TabId)
    (destinationTree : LayoutNode) : LayoutAreaId → Option (List PaneId) :=
  update
    (update session.areaPanes (.floatingPane float) (dockLeftPanes (session.areaPanes (.floatingPane float)) source))
    (.tab target) (some destinationTree.listLeafPaneIds)

theorem hasSamePaneSet_iff (fst second : List PaneId) :
    hasSamePaneSet fst second = true ↔ ∀ paneId, paneId ∈ fst ↔ paneId ∈ second := by
  simp only [hasSamePaneSet, Bool.and_eq_true, List.all_eq_true, contains_iff_mem]
  exact ⟨fun h paneId => ⟨h.1 paneId, h.2 paneId⟩, fun h => ⟨fun paneId => (h paneId).1, fun paneId => (h paneId).2⟩⟩

theorem checkDock_eq_none {dt : LayoutNode} (h : checkDock session dockIds target dt actor = none) :
    ∃ newTab, session.tabs.get? target = some newTab ∧
      dt.listLeafPaneIds.Nodup ∧
      (∀ paneId, paneId ∈ dt.listLeafPaneIds ↔ paneId ∈ newTab.listPaneIds ∨ paneId ∈ dockIds) ∧
      session.clients.contains actor = true := by
  unfold checkDock at h
  cases htab : session.tabs.get? target with
  | none => simp [htab] at h
  | some newTab =>
    simp only [htab] at h
    split_ifs at h with hconflict hcl
    simp only [Bool.or_eq_true, Bool.not_eq_true', decide_eq_false_iff_not, not_or, not_not, Bool.not_eq_false,
      hasSamePaneSet_iff, mem_append] at hconflict
    exact ⟨newTab, rfl, hconflict.1, hconflict.2, by simpa using hcl⟩

variable {float : FloatingPaneId} {source : DockSource}

/-- The floating pane a dock takes panes out of exists and holds them, and it takes some pane. -/
theorem findDockedPanes_eq_some (howns : Ownership session)
    (h : findDockedPanes session source = some (float, dockIds)) :
    ∃ pane,
      findFloatingPaneById session.floatingSet float = some pane ∧
        dockIds ≠ [] ∧ dockIds ⊆ pane.listPaneIds ∧
        match source with
        | .pane sourcePaneId => dockIds = [sourcePaneId]
        | .wholeFloatingPane _ => dockIds = pane.listPaneIds := by
  cases source with
  | pane sourcePaneId =>
    obtain ⟨pane, hfi, heq⟩ := map_eq_some_iff.1 h
    obtain ⟨rfl, rfl⟩ := Prod.mk.inj heq
    refine ⟨pane, findFloatingById_of_mem howns.nodup_floatingPaneIds
      (List.mem_of_find?_eq_some hfi), cons_ne_nil _ _, ?_, rfl⟩
    have hhas := List.find?_some hfi
    simpa using (pane.hasPane_iff sourcePaneId).1 hhas
  | wholeFloatingPane floatId =>
    obtain ⟨pane, hfi, heq⟩ := map_eq_some_iff.1 h
    obtain ⟨rfl, rfl⟩ := Prod.mk.inj heq
    exact ⟨pane, hfi, howns.listPaneIds_ne_nil _ (findFloatingById_mem hfi), List.Subset.refl _, rfl⟩

theorem takeDockedPanes_rearranges (howns : Ownership session)
    (h : findDockedPanes session source = some (float, dockIds)) :
    ∃ outcome, takeDockedPanes session float source = some outcome ∧
      Rearranges session (update session.areaPanes (.floatingPane float)
        (dockLeftPanes (session.areaPanes (.floatingPane float)) source)) outcome := by
  obtain ⟨pane, hfi, -, hsubset, hdck⟩ := findDockedPanes_eq_some howns h
  cases source with
  | pane sourcePaneId =>
    obtain ⟨outcome, houtcome, hmoves, -⟩ := removeFloatingLeaf_rearranges
      howns.nodup_floatingPaneIds hfi (hsubset (by rw [hdck]; exact mem_singleton_self sourcePaneId))
    refine ⟨outcome, houtcome, ?_⟩
    rw [show session.areaPanes (.floatingPane float) = some pane.listPaneIds by
      rw [areaPanes, hfi, map_some]]
    exact hmoves
  | wholeFloatingPane floatId =>
    exact ⟨_, rfl, .silent (session.areaPanes_removeFloating howns.nodup_floatingPaneIds float)
      (session.panes_removeFloating float)⟩

theorem quiet_repairDockSource (session : Session) (float : FloatingPaneId) (rects : List (ClientId × Rect))
    (source : DockSource) :
    Quiet session (repairDockSource session float rects source) := by
  cases source with
  | pane sourcePaneId => exact quiet_repairFloatingFocusAfterLeft ..
  | wholeFloatingPane floatId => exact .refl _ _

theorem rearranges_updateTabLayout (htab : session.areaPanes (.tab tabId) ≠ none) (t : LayoutNode) :
    Rearranges session (update session.areaPanes (.tab tabId) (some t.listLeafPaneIds))
      (updateTabLayout session tabId t) := by
  obtain ⟨ps, hpaneIds⟩ := ne_none_iff_exists'.1 htab
  obtain ⟨tab, hg, -⟩ := tabs_get?_of_areaPanes hpaneIds
  exact .of_settles (settles_updateTabLayout session hg t) (session.areaPanes_replaceLayout hg t) rfl

theorem commitDockPlacement_spec (howns : Ownership session) (source : DockSource) (target : TabId) (dt : LayoutNode)
    (tiledTarget : TiledPlacementTarget) (actor : ClientId) :
    ∃ result, commitDockPlacement session source target dt tiledTarget actor = some result ∧
      CommitSpec session (match findDockedPanes session source with
        | none => session.areaPanes
        | some (float, _) =>
          dockAreas session float source target dt) result := by
  unfold commitDockPlacement
  cases hfi : findDockedPanes session source with
  | none => exact ⟨_, rfl, rfl⟩
  | some docked =>
    obtain ⟨float, dockIds⟩ := docked
    simp only
    cases hcheck : checkDock session dockIds target dt actor with
    | some error => exact ⟨_, rfl, rfl⟩
    | none =>
      obtain ⟨pane, -, hne, -, -⟩ := findDockedPanes_eq_some howns hfi
      obtain ⟨newTab, hslot, -, -, -⟩ := checkDock_eq_none hcheck
      obtain ⟨firstId, dockedRest, rfl⟩ := exists_cons_of_ne_nil hne
      obtain ⟨taken, htk, hmoves⟩ := takeDockedPanes_rearranges howns hfi
      simp only [List.head?_cons, bind_some, htk, map_some]
      refine ⟨_, rfl, ?_⟩
      generalize listMovingClients session float (firstId :: dockedRest) firstId actor = movingClients
      generalize listDockFocusedClientRects session float source = rects
      generalize listFloatingFocusHistories session source = floatingFocusHistories
      have hstays : taken.1.areaPanes (.tab target) ≠ none := by
        rw [hmoves.areaPanes, update_of_ne (by simp)]
        exact areaPanes_tab_ne_none hslot
      have hupd := (rearranges_updateTabLayout hstays dt).cons
        (show isLifecycleEvent (.layoutChanged target) = false from rfl)
      have hmoved := rearranges_moveDockClients (updateTabLayout taken.1 target dt).1 target movingClients
      generalize hmovedEq : moveDockClients (updateTabLayout taken.1 target dt).1
        target movingClients = moved at hmoved ⊢
      have hjn := rearranges_joinFocusHistory moved.1 target (movingClients.map MovingClient.clientId)
        tiledTarget.isStack floatingFocusHistories
      generalize floatingFocusHistories.foldl (joinFocusHistory target
        (movingClients.map MovingClient.clientId) tiledTarget.isStack) moved.1 = joined at hjn ⊢
      have hslv := (settles_updateTabSolves joined (target :: movingClients.map MovingClient.previousTabId)).rearranges
      generalize updateTabSolves joined (target :: movingClients.map MovingClient.previousTabId) = solved
        at hslv ⊢
      have hrepaired := (quiet_repairDockSource solved.1 float rects source).settles.rearranges
      rw [hupd.areaPanes] at hmoved
      rw [hmoved.areaPanes] at hjn
      rw [hjn.areaPanes] at hslv
      rw [hslv.areaPanes, hmoves.areaPanes] at hrepaired
      have hall := ((((hmoves.trans hupd).trans hmoved).trans hjn).trans hslv).trans hrepaired
      simpa only [append_nil, append_assoc, cons_append, CommitSpec, dockAreas] using hall

/-! ### Cross-tab placement -/

def crossTabAreas (session : Session) (origin target : TabId) (ready : CrossTabPlacement) :
    LayoutAreaId → Option (List PaneId) :=
  update (update session.areaPanes (.tab target) (some ready.destinationTree.listLeafPaneIds))
    (.tab origin) (ready.sourceTree.map listLeafPaneIds)

structure CrossTabChecked (session : Session) (origin target : TabId) (sourcePaneId : PaneId)
    (ready : CrossTabPlacement) (swappedId : Option PaneId) (oldTab newTab : Tab) :
    Prop where
  ne : origin ≠ target
  source_eq : session.tabs.get? origin = some oldTab
  destination_eq : session.tabs.get? target = some newTab
  sourcePane_mem : sourcePaneId ∈ oldTab.listPaneIds
  nodup_sourceAfter : ((ready.sourceTree.map listLeafPaneIds).getD []).Nodup
  nodup_destinationAfter : ready.destinationTree.listLeafPaneIds.Nodup
  sourcePane_mem_after : sourcePaneId ∈ ready.destinationTree.listLeafPaneIds
  disjoint_after : ∀ paneId ∈ (ready.sourceTree.map listLeafPaneIds).getD [],
    paneId ∉ ready.destinationTree.listLeafPaneIds
  moved_eq : listMovedPaneIds oldTab.listPaneIds ((ready.sourceTree.map listLeafPaneIds).getD []) = [sourcePaneId]
  swapped_eq : listMovedPaneIds newTab.listPaneIds ready.destinationTree.listLeafPaneIds = swappedId.toList
  same_panes : ∀ paneId, paneId ∈ oldTab.listPaneIds ++ newTab.listPaneIds ↔
    paneId ∈ (ready.sourceTree.map listLeafPaneIds).getD [] ++ ready.destinationTree.listLeafPaneIds

variable {ready : CrossTabPlacement}

theorem checkCrossTab_eq_ok {swapId : Option PaneId}
    (h : checkCrossTabPlacement session origin target sourcePaneId ready actor = .ok swapId) :
    session.clients.contains actor = true ∧ ∃ oldTab newTab, CrossTabChecked session origin
      target sourcePaneId ready swapId oldTab newTab := by
  unfold checkCrossTabPlacement at h
  by_cases hs : origin = target
  · rw [if_pos hs] at h
    cases h
  rw [if_neg hs] at h
  cases hsr : session.tabs.get? origin with
  | none =>
    rw [hsr] at h
    cases h
  | some oldTab =>
    cases hslot : session.tabs.get? target with
    | none =>
      rw [hsr, hslot] at h
      cases h
    | some newTab =>
      simp only [hsr, hslot] at h
      split_ifs at h with hleaf hnd hown hcl hb hshr hmoved hset
      simp only [Bool.not_eq_true', Bool.not_eq_false, contains_iff_mem, Bool.or_eq_true, decide_eq_false_iff_not,
        not_or, not_not, List.any_eq_true, not_exists, not_and, not_lt, ne_eq, hasSamePaneSet_iff,
        gt_iff_lt] at hleaf hnd hown hcl hmoved hset
      refine ⟨by simpa using hcl, oldTab, newTab, hs, hsr, hslot, hleaf, hnd.1, hnd.2,
        hown.1, fun paneId hpa => by simpa using hown.2 paneId hpa, hmoved.1, ?_, hset⟩
      have hswp := Except.ok.inj h
      have hlen := hmoved.2
      generalize listMovedPaneIds newTab.listPaneIds ready.destinationTree.listLeafPaneIds = movedPaneIds at hswp hlen
      rw [← hswp]
      rcases movedPaneIds with _ | ⟨moved, _ | ⟨other, others⟩⟩
      · rfl
      · rfl
      · simp at hlen

theorem rearranges_installDestinationTree (htab : session.areaPanes (.tab target) ≠ none) (swapId : Option PaneId)
    (dt : LayoutNode) :
    Rearranges session (update session.areaPanes (.tab target) (some dt.listLeafPaneIds))
      (installDestinationTree session target swapId dt) := by
  have hupd := (rearranges_updateTabLayout htab dt).cons
    (show isLifecycleEvent (.layoutChanged target) = false from rfl)
  refine ⟨?_, hupd.panes, hupd.isLifecycleEvent_of_mem⟩
  refine (areaPanes_modifyTab_of_eq _ target fun tab => ?_).trans hupd.areaPanes
  cases swapId <;> rfl

/-- The areas once the source tab took its tree, when it keeps one. -/
def sourceInstalledAreas (areas : LayoutAreaId → Option (List PaneId)) (origin : TabId) :
    Option LayoutNode → LayoutAreaId → Option (List PaneId)
  | none => areas
  | some sourceTree => update areas (.tab origin) (some sourceTree.listLeafPaneIds)

theorem rearranges_installSourceTree (htab : session.areaPanes (.tab origin) ≠ none) (sourcePaneId : PaneId)
    (swapId : Option PaneId) (t : Option LayoutNode) :
    Rearranges session (sourceInstalledAreas session.areaPanes origin t)
      (installSourceTree session origin sourcePaneId swapId t) := by
  cases t with
  | none => exact .silent rfl rfl
  | some t =>
    have hupd := (rearranges_updateTabLayout htab t).cons
      (show isLifecycleEvent (.layoutChanged origin) = false from rfl)
    refine ⟨?_, hupd.panes, hupd.isLifecycleEvent_of_mem⟩
    refine (areaPanes_modifyTab_of_eq _ origin fun tab => ?_).trans hupd.areaPanes
    cases swapId <;> rfl

theorem rearranges_moveSwappedClients (session : Session) (clientIds : List ClientId) (origin : TabId)
    (swapId : Option PaneId) :
    Rearranges session session.areaPanes (moveSwappedClients session clientIds origin swapId) := by
  cases swapId with
  | none => exact .silent rfl rfl
  | some swapId => exact rearranges_moveClientsOnto session clientIds origin swapId

theorem settles_repairPlacementSource (session : Session) (origin : TabId) (sourcePaneId : PaneId)
    (isSrcTabClosing : Bool) (rects : List (ClientId × Rect)) :
    Settles session (repairPlacementSource session origin sourcePaneId isSrcTabClosing rects) := by
  unfold repairPlacementSource
  split_ifs
  · exact .refl _ _
  · exact (quiet_repairFocusAfterLeft session origin sourcePaneId rects).settles

theorem settles_repairDestination (session : Session) (target : TabId) (rects : List (ClientId × Rect))
    (swapId : Option PaneId) :
    Settles session (repairPlacementDestination session target rects swapId) := by
  cases swapId with
  | none => exact .refl _ _
  | some swapId =>
    exact (quiet_repairFocusAfterLeft session target swapId rects).settles

/-- The areas between the installation of both trees and the closing of an emptied source tab. -/
def installedAreas (session : Session) (origin target : TabId) (ready : CrossTabPlacement) :
    LayoutAreaId → Option (List PaneId) :=
  sourceInstalledAreas (update session.areaPanes (.tab target)
    (some ready.destinationTree.listLeafPaneIds)) origin ready.sourceTree

theorem rearranges_installCrossTab (hne : origin ≠ target) (hsr : session.areaPanes (.tab origin) ≠ none)
    (hslot : session.areaPanes (.tab target) ≠ none) (sourcePaneId : PaneId) (ready : CrossTabPlacement)
    (swapId : Option PaneId) (movedIds swapIds : List ClientId) :
    Rearranges session (installedAreas session origin target ready)
      (installCrossTabPlacement session origin target sourcePaneId ready swapId movedIds swapIds) := by
  have hf := rearranges_installDestinationTree hslot swapId ready.destinationTree
  unfold installCrossTabPlacement
  simp only
  generalize installDestinationTree session target swapId ready.destinationTree = destinationInstalled at hf ⊢
  have hstays : destinationInstalled.1.areaPanes (.tab origin) ≠ none := by
    rw [hf.areaPanes, update_of_ne (by simpa using hne)]
    exact hsr
  have hse := rearranges_installSourceTree hstays sourcePaneId swapId ready.sourceTree
  rw [hf.areaPanes] at hse
  generalize installSourceTree destinationInstalled.1 origin sourcePaneId swapId ready.sourceTree =
      sourceInstalled at hse ⊢
  have hunzoomed : Rearranges sourceInstalled.1 sourceInstalled.1.areaPanes
      (clearMovedZooms sourceInstalled.1 sourcePaneId swapId, []) :=
    .silent (areaPanes_modifyClients ..) rfl
  have hmoved := rearranges_moveClientsOnto (clearMovedZooms sourceInstalled.1 sourcePaneId swapId)
    movedIds target sourcePaneId
  generalize moveClientsOnto (clearMovedZooms sourceInstalled.1 sourcePaneId swapId) movedIds
    target sourcePaneId = moved at hmoved ⊢
  have hswp := rearranges_moveSwappedClients moved.1 swapIds origin swapId
  rw [hmoved.areaPanes, hunzoomed.areaPanes, hse.areaPanes] at hswp
  rw [hunzoomed.areaPanes] at hmoved
  have hall := (((hf.trans hse).trans hunzoomed).trans hmoved).trans hswp
  simpa only [append_nil, append_assoc, installedAreas] using hall

theorem commitCrossTab_spec (origin target : TabId) (sourcePaneId : PaneId) (ready : CrossTabPlacement)
    (actor : ClientId) :
    CommitSpec session (crossTabAreas session origin target ready)
      (commitCrossTabPlacement session origin target sourcePaneId ready actor) := by
  unfold commitCrossTabPlacement
  cases hcheck : checkCrossTabPlacement session origin target sourcePaneId ready actor with
  | error error => rfl
  | ok swapId =>
    obtain ⟨-, oldTab, newTab, hchecked⟩ := checkCrossTab_eq_ok hcheck
    simp only [CommitSpec, applyCrossTabPlacement]
    generalize listMovingClientIds session [sourcePaneId] actor = movedIds
    generalize listSwappedMovingClientIds session actor swapId = swapIds
    generalize (listFocusedClientRects session origin sourcePaneId).filter _ = sourceRects
    generalize (listSwappedFocusedClientRects session target swapId).filter _ = destinationRects
    have hinstalled := rearranges_installCrossTab hchecked.ne (areaPanes_tab_ne_none hchecked.source_eq)
      (areaPanes_tab_ne_none hchecked.destination_eq) sourcePaneId ready swapId
      movedIds swapIds
    generalize installCrossTabPlacement session origin target sourcePaneId ready
      swapId movedIds swapIds = installed at hinstalled ⊢
    generalize ((target :: origin :: _).filter _) = solvedTabIds
    have hslv := settles_updateTabSolves installed.1 solvedTabIds
    generalize updateTabSolves installed.1 solvedTabIds = solved at hslv ⊢
    have hsrcFixed := settles_repairPlacementSource solved.1 origin sourcePaneId ready.sourceTree.isNone sourceRects
    generalize repairPlacementSource solved.1 origin sourcePaneId ready.sourceTree.isNone
      sourceRects = sourceRepaired at hsrcFixed ⊢
    have hdestinationFixed := settles_repairDestination sourceRepaired.1 target destinationRects swapId
    generalize repairPlacementDestination sourceRepaired.1 target destinationRects swapId =
        destinationRepaired at hdestinationFixed ⊢
    have hsettled := ((hslv.trans hsrcFixed).trans hdestinationFixed).rearranges
    rw [hinstalled.areaPanes] at hsettled
    have hb := hinstalled.trans hsettled
    have hcz : Rearranges destinationRepaired.1 (crossTabAreas session origin target
        ready) (closePlacementSource destinationRepaired.1 origin ready.sourceTree.isNone) := by
      have hareas : destinationRepaired.1.areaPanes = installedAreas session origin target
        ready := hb.areaPanes
      unfold closePlacementSource
      cases htr : ready.sourceTree with
      | none =>
        rw [installedAreas, htr, sourceInstalledAreas] at hareas
        -- the destination tab stays, so closing the source tab does not quit
        have hclose := rearranges_closeAndRefocusTab destinationRepaired.1 origin none
          (Ne.symm hchecked.ne) (by rw [hareas, update_self]; exact some_ne_none _)
        rw [hareas] at hclose
        rw [crossTabAreas, htr]
        exact hclose
      | some sourceTree =>
        rw [installedAreas, htr] at hareas
        rw [crossTabAreas, htr]
        exact .silent hareas rfl
    have hall := hb.trans hcz
    simpa only [append_assoc] using hall

/-! ### All or nothing -/

/-- One placement commit with its arguments; an undock also carries the id it mints. -/
inductive PlacementCommit where
  | undock (floatId : FloatingPaneId) (area : LayoutAreaId) (sourcePaneId : PaneId)
      (desiredSize : FloatingPaneSize) (solvedSize : Size) (acting : ClientId × FloatingPanePosition)
  | dock (source : DockSource) (target : TabId) (destinationTree : LayoutNode)
      (tiledTarget : TiledPlacementTarget) (actor : ClientId)
  | crossTab (origin target : TabId) (sourcePaneId : PaneId) (ready : CrossTabPlacement) (actor : ClientId)

namespace PlacementCommit

variable {session : Session} {paneId : PaneId}

/-- Runs the commit; `none` is a panic. -/
def run (session : Session) : PlacementCommit → Option CommitResult
  | undock floatId area sourcePaneId desiredSize solvedSize acting =>
    commitUndockPlacement session floatId area sourcePaneId desiredSize solvedSize acting
  | dock source target destinationTree tiledTarget actor =>
    commitDockPlacement session source target destinationTree tiledTarget actor
  | crossTab origin target sourcePaneId ready actor =>
    some (commitCrossTabPlacement session origin target sourcePaneId ready actor)

/-- The panes a commit moves, a pane swapped back among them. -/
def listMovedPanes (session : Session) : PlacementCommit → List PaneId
  | undock _ _ sourcePaneId .. => [sourcePaneId]
  | dock source .. => ((findDockedPanes session source).map (·.2)).getD []
  | crossTab _ target sourcePaneId ready _ =>
    sourcePaneId :: listMovedPaneIds ((session.areaPanes (.tab target)).getD []) ready.destinationTree.listLeafPaneIds

def MintsFreshId (session : Session) : PlacementCommit → Prop
  | undock floatId .. => session.areaPanes (.floatingPane floatId) = none
  | _ => True

/-- The areas a successful commit ends with. -/
def areasAfter (session : Session) : PlacementCommit → LayoutAreaId → Option (List PaneId)
  | undock floatId area sourcePaneId _ _ _ =>
    undockAreas session floatId area sourcePaneId
  | dock source target destinationTree _ _ =>
    match findDockedPanes session source with
    | none => session.areaPanes
    | some (float, _) =>
      dockAreas session float source target destinationTree
  | crossTab origin target _ ready _ =>
    crossTabAreas session origin target ready

theorem holds_undockAreas_iff (howns : Ownership session) {floatId : FloatingPaneId} {area : LayoutAreaId}
    {actor : ClientId} (hfresh : session.areaPanes (.floatingPane floatId) = none)
    (hcheck : checkUndock session area sourcePaneId actor = none) (hne : paneId ≠ sourcePaneId) (ar : LayoutAreaId) :
    Holds (undockAreas session floatId area sourcePaneId) ar paneId ↔ Holds session.areaPanes ar paneId := by
  obtain ⟨leaves, hlv⟩ : ∃ leaves, session.areaPanes area = some leaves := by
    have hsr := (checkUndock_eq_none hcheck).1
    cases area with
    | tab origin =>
      obtain ⟨oldTab, htab, -⟩ := hsr
      exact ⟨oldTab.listPaneIds, by rw [areaPanes, htab, map_some]⟩
    | floatingPane float =>
      obtain ⟨pane, hfi, -⟩ := hsr
      exact ⟨pane.listPaneIds, by rw [areaPanes, hfi, map_some]⟩
  rw [undockAreas, hlv, bind_some, holds_update_some, holds_leftPanes_iff hlv (howns.owned.nodup hlv) hne]
  constructor
  · rintro (⟨-, hm⟩ | ⟨-, hhl⟩)
    · exact absurd (mem_singleton.1 hm) hne
    · exact hhl
  · intro hhl
    refine Or.inr ⟨?_, hhl⟩
    rintro rfl
    exact not_holds_of_none hfresh hhl

theorem holds_dockAreas_iff (howns : Ownership session) {dockIds : List PaneId} {target : TabId} {dt : LayoutNode}
    {actor : ClientId} (hfi : findDockedPanes session source = some (float, dockIds))
    (hcheck : checkDock session dockIds target dt actor = none) (hpa : paneId ∉ dockIds) (ar : LayoutAreaId) :
    Holds (dockAreas session float source target dt) ar paneId ↔ Holds session.areaPanes ar paneId := by
  obtain ⟨newTab, hslot, -, hlv, -⟩ := checkDock_eq_none hcheck
  obtain ⟨pane, hsr, -, -, hdck⟩ := findDockedPanes_eq_some howns hfi
  have harea : session.areaPanes (.floatingPane float) = some pane.listPaneIds := by
    rw [areaPanes, hsr, map_some]
  have hleft : ∀ ar, Holds (update session.areaPanes (.floatingPane float)
      (dockLeftPanes (session.areaPanes (.floatingPane float)) source)) ar paneId ↔
        Holds session.areaPanes ar paneId := by
    intro ar
    cases source with
    | pane sourcePaneId =>
      rw [hdck, mem_singleton] at hpa
      rw [harea]
      exact holds_leftPanes_iff harea (howns.owned.nodup harea) hpa ar
    | wholeFloatingPane floatId =>
      rw [dockLeftPanes, holds_update_none]
      refine ⟨fun hhl => hhl.2, fun hhl => ⟨?_, hhl⟩⟩
      rintro rfl
      rw [holds_iff harea, ← hdck] at hhl
      exact hpa hhl
  rw [dockAreas, holds_update_some, hleft]
  by_cases heq : ar = .tab target
  · rw [heq, holds_tab_iff]
    simp [hlv, hpa, hslot]
  · simp [heq]

theorem holds_crossTabAreas_iff {origin target : TabId} {swapId : Option PaneId} {oldTab newTab : Tab}
    (hchecked : CrossTabChecked session origin target sourcePaneId ready swapId
      oldTab newTab) (hne : paneId ≠ sourcePaneId)
    (hstays : paneId ∉ listMovedPaneIds newTab.listPaneIds ready.destinationTree.listLeafPaneIds) (ar : LayoutAreaId) :
    Holds (crossTabAreas session origin target ready) ar paneId ↔ Holds session.areaPanes ar paneId := by
  have hsrcStays : paneId ∈ oldTab.listPaneIds → paneId ∈ (ready.sourceTree.map listLeafPaneIds).getD [] := by
    intro hm
    by_contra hgone
    have hmoved : paneId ∈ listMovedPaneIds oldTab.listPaneIds ((ready.sourceTree.map listLeafPaneIds).getD []) :=
      mem_filter.2 ⟨hm, by simpa using hgone⟩
    rw [hchecked.moved_eq, mem_singleton] at hmoved
    exact hne hmoved
  have htargetStays : paneId ∈ newTab.listPaneIds → paneId ∈ ready.destinationTree.listLeafPaneIds := by
    intro hm
    by_contra hgone
    exact hstays (mem_filter.2 ⟨hm, by simpa using hgone⟩)
  have hs := hchecked.same_panes paneId
  rw [mem_append, mem_append] at hs
  have hdisj := hchecked.disjoint_after paneId
  rw [crossTabAreas]
  by_cases hsr : ar = .tab origin
  · have haf : Holds (update (update session.areaPanes (.tab target)
        (some ready.destinationTree.listLeafPaneIds)) (.tab origin)
          (ready.sourceTree.map listLeafPaneIds)) (.tab origin) paneId ↔
        paneId ∈ (ready.sourceTree.map listLeafPaneIds).getD [] := by
      cases ready.sourceTree with
      | none => simp [holds_update_none]
      | some sourceTree => simp [holds_update_self_some]
    have hb : Holds session.areaPanes (.tab origin) paneId ↔ paneId ∈ oldTab.listPaneIds := by
      simp [holds_tab_iff, hchecked.source_eq]
    rw [hsr, haf, hb]
    refine ⟨fun hm => ?_, hsrcStays⟩
    rcases hs.2 (Or.inl hm) with hh | hh
    · exact hh
    · exact absurd (htargetStays hh) (hdisj hm)
  · rw [holds_update_of_ne hsr]
    by_cases hslot : ar = .tab target
    · have hb : Holds session.areaPanes (.tab target) paneId ↔ paneId ∈ newTab.listPaneIds := by
        simp [holds_tab_iff, hchecked.destination_eq]
      rw [hslot, holds_update_self_some, hb]
      refine ⟨fun hm => ?_, htargetStays⟩
      rcases hs.2 (Or.inr hm) with hh | hh
      · exact absurd hm (hdisj (hsrcStays hh))
      · exact hh
    · rw [holds_update_of_ne hslot]

theorem holds_areasAfter_iff (howns : Ownership session) {commit : PlacementCommit}
    (hfresh : commit.MintsFreshId session) {events : List Event} {after : Session}
    (hrun : commit.run session = some (.ok events, after)) (hpa : paneId ∉ commit.listMovedPanes session)
    (ar : LayoutAreaId) :
    Holds (commit.areasAfter session) ar paneId ↔ Holds session.areaPanes ar paneId := by
  cases commit with
  | undock floatId area sourcePaneId desiredSize solvedSize acting =>
    cases hcheck : checkUndock session area sourcePaneId acting.1 with
    | some error => simp [run, commitUndockPlacement, hcheck] at hrun
    | none => exact holds_undockAreas_iff howns hfresh hcheck (by simpa [listMovedPanes] using hpa) ar
  | dock source target dt tiledTarget actor =>
    cases hfi : findDockedPanes session source with
    | none => simp [run, commitDockPlacement, hfi] at hrun
    | some docked =>
      obtain ⟨float, dockIds⟩ := docked
      cases hcheck : checkDock session dockIds target dt actor with
      | some error => simp [run, commitDockPlacement, hfi, hcheck] at hrun
      | none =>
        simp only [listMovedPanes, hfi, map_some, getD_some] at hpa
        simp only [areasAfter, hfi]
        exact holds_dockAreas_iff howns hfi hcheck hpa ar
  | crossTab origin target sourcePaneId ready actor =>
    cases hcheck : checkCrossTabPlacement session origin target sourcePaneId ready actor with
    | error error => simp [run, commitCrossTabPlacement, hcheck] at hrun
    | ok swapId =>
      obtain ⟨-, oldTab, newTab, hchecked⟩ := checkCrossTab_eq_ok hcheck
      simp only [listMovedPanes, areaPanes, hchecked.destination_eq, map_some, getD_some, mem_cons, not_or] at hpa
      exact holds_crossTabAreas_iff hchecked hpa.1 hpa.2 ar

theorem run_spec (howns : Ownership session) (commit : PlacementCommit) (hfresh : commit.MintsFreshId session) :
    ∃ result, commit.run session = some result ∧ CommitSpec session (commit.areasAfter session) result := by
  cases commit with
  | undock floatId area sourcePaneId desiredSize solvedSize acting =>
    exact commitUndockPlacement_spec howns hfresh ..
  | dock source target dt tiledTarget actor =>
    exact commitDockPlacement_spec howns ..
  | crossTab origin target sourcePaneId ready actor =>
    exact ⟨_, rfl, commitCrossTab_spec ..⟩

end PlacementCommit

/-- **Placement commits are all or nothing.** On a session without a violation a commit never panics. An error leaves
the session as it was; success keeps the pane registry, leaves every pane it does not move in its area, and reports no
pane closing or removed. -/
theorem placementCommit_allOrNothing (session : Session) (hkeyed : RegistriesKeyed session)
    (hclean : session.validateSessionConsistency = .ok ()) (commit : PlacementCommit)
    (hfresh : commit.MintsFreshId session) :
    ∃ answer after, commit.run session = some (answer, after) ∧
      (∀ error, answer = .error error → after = session) ∧
      ∀ events, answer = .ok events →
        after.panes = session.panes ∧
        (∀ paneId ∉ commit.listMovedPanes session, ∀ area,
          Holds after.areaPanes area paneId ↔ Holds session.areaPanes area paneId) ∧
        ∀ event ∈ events, (∀ paneId, event ≠ .paneClosing paneId) ∧
          ∀ paneId tabId, event ≠ .paneRemoved paneId tabId := by
  have howns := ownership_of_clean ((validateConsistency_eq_ok_iff session).1 hclean) hkeyed
  obtain ⟨⟨answer, after⟩, hrun, hspec⟩ := commit.run_spec howns hfresh
  refine ⟨answer, after, hrun, ?_, ?_⟩
  · rintro error rfl
    exact hspec
  · rintro events rfl
    have hmoves : Rearranges session (commit.areasAfter session) (after, events) := hspec
    refine ⟨hmoves.panes, fun paneId hpane area => ?_, fun event hmem => ?_⟩
    · rw [show after.areaPanes = commit.areasAfter session from hmoves.areaPanes]
      exact PlacementCommit.holds_areasAfter_iff howns hfresh hrun hpane area
    · have hevent := hmoves.isLifecycleEvent_of_mem event hmem
      constructor
      · rintro paneId rfl
        cases hevent
      · rintro paneId tabId rfl
        cases hevent

/-- Undocking a pane of a split tab. -/
theorem placementCommit_allOrNothing_undock :
    ∃ answer after, (PlacementCommit.undock ⟨0⟩ (.tab ⟨0⟩) ⟨1⟩ ⟨.cells 40, .cells 12⟩ ⟨40, 12⟩ (⟨0⟩, .default)).run
        twoTabSession = some (answer, after) ∧
      (∀ error, answer = .error error → after = twoTabSession) ∧
      ∀ events, answer = .ok events →
        after.panes = twoTabSession.panes ∧
        (∀ paneId ∉ [(⟨1⟩ : PaneId)], ∀ area,
          Holds after.areaPanes area paneId ↔ Holds twoTabSession.areaPanes area paneId) ∧
        ∀ event ∈ events, (∀ paneId, event ≠ .paneClosing paneId) ∧ ∀ paneId tabId, event ≠ .paneRemoved paneId tabId :=
  placementCommit_allOrNothing twoTabSession twoTabSession_keyed twoTabSession_clean _ rfl

end Koshi.Sessions
