import Koshi.Base.Loop
import Koshi.Sessions.Placement

/-!
# What a view step leaves alone

Focus repair, hand-offs, minimizing and focusing only edit the views of clients and the focus lists of tabs;
solving a tab edits its solve besides. Both are stated as an equation between projections of the session
before and after, so that every fact about the rest of the session carries over by rewriting.
-/

namespace Koshi.Sessions

open Base Koshi.Core Layout List Option Session

variable (session : Session)

/-! ### Projections -/

/-- A client without its view: its identity, its terminal and its active tab. -/
def Client.eraseView (client : Client) : Client :=
  .fromAttachment client.clientId client.sessionId client.viewportSize client.paneArea client.activeTabId

def Tab.eraseFocus (tab : Tab) : Tab := { tab with focusMru := [] }

/-- A tab without its focus list and its solve. -/
def Tab.eraseSolve (tab : Tab) : Tab :=
  { tab with layoutArea := ⟨tab.layoutArea.layout, ⟨0, 0⟩, .default⟩, focusMru := [] }

/-- The session without what a view step edits. -/
def Session.eraseViews (session : Session) : Session :=
  { session with
    tabs := session.tabs.mapValues fun _ => Tab.eraseFocus
    clients := session.clients.mapValues fun _ => Client.eraseView }

/-- The session without what a view step or a tab's solve edits. -/
def Session.eraseSolves (session : Session) : Session :=
  { session with
    tabs := session.tabs.mapValues fun _ => Tab.eraseSolve
    clients := session.clients.mapValues fun _ => Client.eraseView }

/-- Events that report the view of one client, or that an area was laid out again. -/
def isViewEvent : Event → Bool
  | .paneFocused .. | .floatingPaneMinimizedChanged .. | .terminalTooSmallEntered .. => true
  | .layoutChanged .. | .floatingPaneLayoutChanged .. => true
  | _ => false

structure Keeps (project : Session → Session) (session : Session) (outcome : Outcome) : Prop where
  project_eq : project outcome.1 = project session
  isViewEvent_of_mem : ∀ event ∈ outcome.2, isViewEvent event = true

/-- A step that edits views only. -/
abbrev Quiet := Keeps eraseViews

/-- A step that edits views and tab solves only. -/
abbrev Settles := Keeps eraseSolves

namespace Keeps

variable {project : Session → Session} {session : Session} {outcome next : Outcome}

theorem refl (project : Session → Session) (session : Session) : Keeps project session (session, []) :=
  ⟨rfl, fun _ hm => absurd hm not_mem_nil⟩

theorem trans (h : Keeps project session outcome) (hn : Keeps project outcome.1 next) :
    Keeps project session (next.1, outcome.2 ++ next.2) := by
  refine ⟨hn.project_eq.trans h.project_eq, fun event hm => ?_⟩
  rcases mem_append.1 hm with hm | hm
  · exact h.isViewEvent_of_mem event hm
  · exact hn.isViewEvent_of_mem event hm

theorem forEach {α : Type} {xs : List α} {body : Session → α → Outcome}
    (hbody : ∀ session item, item ∈ xs → Keeps project session (body session item)) (session : Session) :
    Keeps project session (Sessions.forEach xs body session) := by
  unfold Sessions.forEach
  refine foldl_keeps (fun outcome : Outcome => Keeps project session outcome) (refl project session)
    fun outcome houtcome item hm => ?_
  exact houtcome.trans (hbody outcome.1 item hm)

end Keeps

/-! ### Maps under a projection -/

theorem mapValues_modify_of_eq {κ ν ω : Type} [Key κ] [DecidableEq κ] (map : OrdMap κ ν) (key : κ) {f : ν → ν}
    {project : ν → ω} (hf : ∀ value, project (f value) = project value) :
    (map.modify key f).mapValues (fun _ => project) = map.mapValues fun _ => project := by
  refine OrdMap.ext_get? fun otherKey => ?_
  rw [OrdMap.get?_mapValues, OrdMap.get?_mapValues, OrdMap.get?_modify]
  split_ifs with h
  · rw [h, Option.map_map]
    congr 1
    exact funext hf
  · rfl

theorem mapValues_mapValues_of_eq {κ ν ω : Type} [Key κ] [DecidableEq κ] (map : OrdMap κ ν) {f : ν → ν}
    {project : ν → ω} (hf : ∀ value, project (f value) = project value) :
    (map.mapValues fun _ => f).mapValues (fun _ => project) = map.mapValues fun _ => project := by
  refine OrdMap.ext_get? fun key => ?_
  rw [OrdMap.get?_mapValues, OrdMap.get?_mapValues, OrdMap.get?_mapValues, Option.map_map]
  congr 1
  exact funext hf

variable {f : Client → Client}

section EraseViews

variable (session : Session)

theorem eraseViews_modifyClient (clientId : ClientId) (hf : ∀ client, (f client).eraseView = client.eraseView) :
    (session.modifyClient clientId f).eraseViews = session.eraseViews := by
  simp only [eraseViews, modifyClient, mapValues_modify_of_eq _ _ hf]

theorem eraseViews_modifyClients (hf : ∀ client, (f client).eraseView = client.eraseView) :
    (session.modifyClients f).eraseViews = session.eraseViews := by
  simp only [eraseViews, modifyClients, mapValues_mapValues_of_eq _ hf]

theorem eraseViews_modifyTab (tabId : TabId) {f : Tab → Tab} (hf : ∀ tab, (f tab).eraseFocus = tab.eraseFocus) :
    (session.modifyTab tabId f).eraseViews = session.eraseViews := by
  simp only [eraseViews, modifyTab, mapValues_modify_of_eq _ _ hf]

theorem eraseSolves_modifyTab (tabId : TabId) {f : Tab → Tab} (hf : ∀ tab, (f tab).eraseSolve = tab.eraseSolve) :
    (session.modifyTab tabId f).eraseSolves = session.eraseSolves := by
  simp only [eraseSolves, modifyTab, mapValues_modify_of_eq _ _ hf]

theorem eraseSolves_eraseViews : session.eraseViews.eraseSolves = session.eraseSolves := by
  have htabs : (session.tabs.mapValues fun _ => Tab.eraseFocus).mapValues (fun _ => Tab.eraseSolve) =
      session.tabs.mapValues fun _ => Tab.eraseSolve := mapValues_mapValues_of_eq _ fun _ => rfl
  have hcls : (session.clients.mapValues fun _ => Client.eraseView).mapValues (fun _ => Client.eraseView) =
      session.clients.mapValues fun _ => Client.eraseView := mapValues_mapValues_of_eq _ fun _ => rfl
  simp only [eraseSolves, eraseViews, htabs, hcls]

end EraseViews

theorem Keeps.settles {session : Session} {outcome : Outcome} (h : Quiet session outcome) : Settles session outcome :=
  ⟨by rw [← eraseSolves_eraseViews, h.project_eq, eraseSolves_eraseViews], h.isViewEvent_of_mem⟩

/-! ### Client edits that keep the identity -/

namespace Client

variable (client : Client)

variable (floatId : FloatingPaneId)

@[simp] theorem eraseView_updateFocusedPane (tabId : TabId) (paneId : PaneId) :
    (client.updateFocusedPane tabId paneId).eraseView = client.eraseView := rfl

@[simp] theorem eraseView_clearFocusHistory (tabId : TabId) :
    (client.clearFocusHistory tabId).eraseView = client.eraseView := rfl

variable (paneId : PaneId)

@[simp] theorem eraseView_clearZoomOfPane : (client.clearZoomOfPane paneId).eraseView = client.eraseView := rfl

@[simp] theorem eraseView_minimizeShownFloatings : client.minimizeShownFloatingPanes.eraseView = client.eraseView := rfl

@[simp] theorem eraseView_focusFloating : (client.focusFloatingPane floatId).eraseView = client.eraseView := by
  unfold focusFloatingPane
  cases client.getFloatingPaneView floatId <;> rfl

@[simp] theorem eraseView_updateFloatingFocusedPane :
    (client.updateFloatingPaneFocusedPane floatId paneId).eraseView = client.eraseView := rfl

@[simp] theorem eraseView_removePaneFromFloatingHistory :
    (client.removePaneFromFloatingPaneFocusHistory floatId paneId).eraseView = client.eraseView := rfl

@[simp] theorem eraseView_removePaneFromFocusHistory (tabId : TabId) (paneId : PaneId) :
    (client.removePaneFromFocusHistory tabId paneId).eraseView = client.eraseView := by
  unfold removePaneFromFocusHistory
  cases client.focusHistoryByTabId.get? tabId <;> rfl

end Client

/-! ### Events of a focus change -/

variable {event : Event}

theorem isViewEvent_buildPaneFocusedEvent {client : Client} {previousFocusPaneId : Option PaneId}
    (h : event ∈ (buildPaneFocusedEvent client previousFocusPaneId).toList) : isViewEvent event = true := by
  rw [mem_toList, buildPaneFocusedEvent, bind_eq_some_iff] at h
  obtain ⟨focusedId, -, h⟩ := h
  split at h
  · exact absurd h (some_ne_none event).symm
  · cases h
    rfl

theorem isViewEvent_buildFloatingMinimizedEvents {clientId : ClientId} {floatingSet : FloatingSet}
    {floatingPaneIds : List FloatingPaneId} {isMinimized : Bool}
    (h : event ∈ buildFloatingPaneMinimizedChangedEvents clientId floatingSet floatingPaneIds isMinimized) :
    isViewEvent event = true := by
  rw [buildFloatingPaneMinimizedChangedEvents, mem_filterMap] at h
  obtain ⟨floatId, -, h⟩ := h
  obtain ⟨floating, -, rfl⟩ := map_eq_some_iff.1 h
  rfl

/-! ### Focus steps -/

section Quiet

variable (session : Session)

variable (clientId : ClientId) (tabId : TabId) (floatId : FloatingPaneId)

theorem quiet_modifyClient {events : List Event} (hf : ∀ client, (f client).eraseView = client.eraseView)
    (hevs : ∀ event ∈ events, isViewEvent event = true) :
    Quiet session (session.modifyClient clientId f, events) :=
  ⟨eraseViews_modifyClient session clientId hf, hevs⟩

theorem quiet_modifyClients (hf : ∀ client, (f client).eraseView = client.eraseView) :
    Quiet session (session.modifyClients f, []) :=
  ⟨eraseViews_modifyClients session hf, fun _ hm => absurd hm not_mem_nil⟩

theorem quiet_updateClientTabFocus (tabId : TabId) (paneId : PaneId) :
    Quiet session (updateClientTabFocus session clientId tabId paneId) := by
  unfold updateClientTabFocus
  cases session.clients.get? clientId with
  | none => exact .refl _ _
  | some client =>
    constructor
    · exact (eraseViews_modifyTab _ tabId (f := (·.recordFocusMru paneId)) fun _ => rfl).trans
        (eraseViews_modifyClient session clientId fun client => client.eraseView_updateFocusedPane tabId paneId)
    · intro event hm
      rw [mem_singleton.1 hm]
      rfl

theorem isViewEvent_buildTooSmallEvents {tabId : TabId} {clientId : ClientId} {verdict : FocusRepairResult}
    (h : event ∈ buildTerminalTooSmallEvents session tabId clientId verdict) :
    isViewEvent event = true := by
  unfold buildTerminalTooSmallEvents at h
  split_ifs at h
  · cases hcl : session.clients.get? clientId with
    | none =>
      rw [hcl] at h
      exact absurd h not_mem_nil
    | some client =>
      rw [hcl] at h
      simp only at h
      split_ifs at h
      · rw [mem_singleton.1 h]
        rfl
      · exact absurd h not_mem_nil
  · exact absurd h not_mem_nil

theorem quiet_applyInheritingPane (clientId : ClientId) (paneId : Option PaneId) :
    Quiet session (applyInheritingPane session tabId clientId paneId) := by
  cases paneId with
  | none =>
    exact quiet_modifyClient session clientId (fun client => client.eraseView_clearFocusHistory tabId)
      fun _ hm => absurd hm not_mem_nil
  | some paneId => exact quiet_updateClientTabFocus session clientId tabId paneId

theorem quiet_repairClientFocus (clientId : ClientId) (rankingRect : Rect) :
    Quiet session (repairClientFocus session tabId clientId rankingRect) := by
  unfold repairClientFocus
  cases session.clients.get? clientId with
  | none => exact .refl _ _
  | some client =>
    simp only
    cases session.computeClientSolve client tabId with
    | none => exact .refl _ _
    | some clientSolve =>
      have happlied := quiet_applyInheritingPane session tabId clientId (findInheritingPane session client tabId
        (computeClientFocusVerdict session client clientSolve tabId rankingRect))
      refine ⟨happlied.project_eq, fun event hm => ?_⟩
      rcases mem_append.1 hm with hm | hm
      · exact happlied.isViewEvent_of_mem event hm
      · exact isViewEvent_buildTooSmallEvents _ hm

variable (oldSolve : Option LayoutSolve)

theorem quiet_handOffSuppressedFocus : Quiet session (handOffSuppressedFocus session tabId oldSolve) := by
  unfold handOffSuppressedFocus
  cases session.tabs.get? tabId with
  | none => exact .refl _ _
  | some tab =>
    simp only
    split_ifs
    · exact .refl _ _
    · exact .forEach (fun session clientRect _ => quiet_repairClientFocus session tabId clientRect.1
        clientRect.2) session

theorem quiet_repairFloatingClientFocus (clientId : ClientId) (rankingRect : Rect) :
    Quiet session (repairFloatingPaneClientFocus session floatId clientId rankingRect) := by
  unfold repairFloatingPaneClientFocus
  cases session.clients.get? clientId with
  | none => exact .refl _ _
  | some client =>
    simp only
    split
    · split
      · exact .refl _ _
      · exact quiet_modifyClient session clientId (fun client => client.eraseView_updateFloatingFocusedPane floatId _)
          fun event hm => isViewEvent_buildPaneFocusedEvent hm
    · exact .refl _ _

theorem quiet_handOffSuppressedFloatingFocus :
    Quiet session (handOffSuppressedFloatingFocus session floatId oldSolve) := by
  unfold handOffSuppressedFloatingFocus
  cases FloatingSet.findFloatingPaneById session.floatingSet floatId with
  | none => exact .refl _ _
  | some floating =>
    simp only
    split_ifs
    · exact .refl _ _
    · exact .forEach (fun session clientRect _ =>
        quiet_repairFloatingClientFocus session floatId clientRect.1 clientRect.2) session

theorem quiet_minimizeClientFloatings : Quiet session (minimizeClientFloatingPanes session clientId) := by
  unfold minimizeClientFloatingPanes
  cases session.clients.get? clientId with
  | none => exact .refl _ _
  | some client =>
    refine quiet_modifyClient session clientId (fun client => client.eraseView_minimizeShownFloatings)
      fun event hm => ?_
    rcases mem_append.1 hm with hm | hm
    · exact isViewEvent_buildFloatingMinimizedEvents hm
    · exact isViewEvent_buildPaneFocusedEvent hm

theorem quiet_minimizeUndrawable : Quiet session (minimizeUndrawableFloatingPanes session) :=
  .forEach (fun session clientId _ => quiet_minimizeClientFloatings session clientId) session

theorem quiet_applyTabSolveChange : Quiet session (applyTabSolveChange session tabId oldSolve) :=
  (quiet_handOffSuppressedFocus session tabId oldSolve).trans (quiet_minimizeUndrawable _)

theorem quiet_landFocus (tabId : TabId) : Quiet session (landFocus session clientId tabId) := by
  unfold landFocus
  cases session.clients.get? clientId with
  | none => exact .refl _ _
  | some client =>
    simp only
    split_ifs
    · exact .refl _ _
    · cases session.findLandingPane client tabId with
      | none => exact .refl _ _
      | some paneId => exact quiet_updateClientTabFocus session clientId tabId paneId

theorem quiet_repairFocusAfterLeft (goneId : PaneId) (clientRects : List (ClientId × Rect)) :
    Quiet session (repairFocusAfterPaneLeft session tabId goneId clientRects) := by
  have hrepaired : Quiet session (forEach clientRects _ session) := .forEach (fun session clientRect _ =>
    quiet_repairClientFocus session tabId clientRect.1 clientRect.2) session
  have hrv := hrepaired.trans (quiet_modifyClients _ fun client =>
    client.eraseView_removePaneFromFocusHistory tabId goneId)
  rwa [append_nil] at hrv

theorem quiet_repairFloatingFocusAfterLeft (goneId : PaneId) (clientRects : List (ClientId × Rect)) :
    Quiet session (repairFloatingPaneFocusAfterPaneLeft session floatId goneId clientRects) := by
  have hrepaired : Quiet session (forEach clientRects _ session) := .forEach (fun session clientRect _ =>
    quiet_repairFloatingClientFocus session floatId clientRect.1 clientRect.2) session
  have hrv := hrepaired.trans (quiet_modifyClients _ fun client =>
    client.eraseView_removePaneFromFloatingHistory floatId goneId)
  rwa [append_nil] at hrv

theorem quiet_showNewFloating (floatId : FloatingPaneId) :
    Quiet session (showNewFloatingPane session clientId floatId) := by
  unfold showNewFloatingPane
  cases session.clients.get? clientId with
  | none => exact .refl _ _
  | some client =>
    simp only
    split_ifs
    · exact quiet_modifyClient session clientId (fun client => client.eraseView_focusFloating floatId)
        fun event hm => isViewEvent_buildPaneFocusedEvent hm
    · exact .refl _ _

theorem quiet_showForClients (clientPositions : List (ClientId × FloatingPanePosition))
    (floatId : FloatingPaneId) : Quiet session (showForClients session clientPositions floatId) :=
  .forEach (fun session clientPosition _ => quiet_showNewFloating session clientPosition.1 floatId) session

end Quiet

/-! ### Solving a tab -/

theorem settles_updateTabSolve (tabId : TabId) : Settles session (updateTabSolve session tabId) := by
  unfold updateTabSolve
  split
  · split_ifs
    · exact (quiet_applyTabSolveChange session tabId none).settles
    · have hresized := eraseSolves_modifyTab session tabId (f := (·.resize ‹Size› session.paneSizing)) fun _ => rfl
      exact ⟨(quiet_applyTabSolveChange _ tabId _).settles.project_eq.trans hresized,
        (quiet_applyTabSolveChange _ tabId _).isViewEvent_of_mem⟩
  · exact .refl _ _

theorem settles_updateTabSolves (tabIds : List TabId) : Settles session (updateTabSolves session tabIds) :=
  .forEach (fun session tabId _ => settles_updateTabSolve session tabId) session

theorem Keeps.cons {project : Session → Session} {session : Session} {outcome : Outcome}
    (h : Keeps project session outcome) (hev : isViewEvent event = true) :
    Keeps project session (outcome.1, event :: outcome.2) := by
  refine ⟨h.project_eq, fun other hm => ?_⟩
  rcases mem_cons.1 hm with rfl | hm
  · exact hev
  · exact h.isViewEvent_of_mem other hm

theorem settles_updateTabLayout {tabId : TabId} {tab : Tab}
    (htab : session.tabs.get? tabId = some tab) (t : LayoutNode) :
    Settles (session.modifyTab tabId (·.replaceLayout t session.paneSizing)) (updateTabLayout session tabId t) := by
  unfold updateTabLayout
  rw [htab]
  exact (quiet_applyTabSolveChange _ tabId _).settles

theorem quiet_updateFloatingLayout {floatId : FloatingPaneId} {floating : FloatingPane}
    (hfi : FloatingSet.findFloatingPaneById session.floatingSet floatId = some floating) (t : LayoutNode) :
    Quiet
      { session with
        floatingSet := session.floatingSet.modifyById floatId (·.replaceLayout t session.paneSizing) }
      (updateFloatingPaneLayout session floatId t) := by
  unfold updateFloatingPaneLayout
  rw [hfi]
  exact quiet_handOffSuppressedFloatingFocus _ floatId _

end Koshi.Sessions
