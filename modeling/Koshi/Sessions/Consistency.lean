import Koshi.Sessions.State

/-!
# The consistency check

`validate_session_consistency` of `koshi-session/src/session/state.rs`: every way the tabs, layout trees, solves,
floating panes, pane registry and client views of a session can disagree, in the order the source reports them.
-/

namespace Koshi.Sessions

open Base Koshi.Core Layout

/-- One disagreement between the stores of a session. -/
inductive SessionConsistencyError where
  | paneNotInRegistry (tabId : TabId) (paneId : PaneId)
  | orphanedPaneRecord (paneId : PaneId)
  | focusPaneNotInRegistry (clientId : ClientId) (tabId : TabId) (paneId : PaneId)
  | focusTabMissing (clientId : ClientId) (tabId : TabId)
  | focusTargetMissing (clientId : ClientId) (tabId : TabId) (paneId : PaneId)
  | zoomTargetMissing (clientId : ClientId) (tabId : TabId) (paneId : PaneId)
  | activeTabMissing (clientId : ClientId) (tabId : TabId)
  | paneInMultipleLayouts (paneId : PaneId) (tabIds : List TabId)
  | tabKeyMismatch (storedTabId reportedTabId : TabId)
  | clientSessionMismatch (clientId : ClientId) (foundSessionId : SessionId)
  | duplicateTabIndex (tabIndex : Nat)
  | tooManyFloatingPanes (floatingPaneCount : Nat)
  | emptyFloatingPane (floatingPaneId : FloatingPaneId)
  | duplicateFloatingPaneId (floatingPaneId : FloatingPaneId)
  | floatingPaneSolveSizeStale (floatingPaneId : FloatingPaneId) (solvedLayoutSize floatingLayoutSize : Size)
  | floatingPaneSolveStale (floatingPaneId : FloatingPaneId)
  | floatingPaneNotInRegistry (paneId : PaneId)
  | paneInMultipleFloatingPanes (paneId : PaneId) (floatingPaneIds : List FloatingPaneId)
  | floatingPaneInLayout (paneId : PaneId) (tabIds : List TabId)
  | floatingViewTargetMissing (clientId : ClientId) (floatingPaneId : FloatingPaneId)
  | floatingViewMissing (clientId : ClientId) (floatingPaneId : FloatingPaneId)
  | floatingFocusHistoryEmpty (clientId : ClientId) (floatingPaneId : FloatingPaneId)
  | floatingFocusTargetMissing (clientId : ClientId) (floatingPaneId : FloatingPaneId) (paneId : PaneId)
  | floatingZoomTargetMissing (clientId : ClientId) (floatingPaneId : FloatingPaneId) (paneId : PaneId)
  | shownFloatingPaneMissing (clientId : ClientId) (floatingPaneId : FloatingPaneId)
  | duplicateShownFloatingPane (clientId : ClientId) (floatingPaneId : FloatingPaneId)
  | floatingPaneShownStateMismatch (clientId : ClientId) (floatingPaneId : FloatingPaneId) (isMinimized : Bool)
  | floatingFocusNotNewestShown (clientId : ClientId)
      (focusedFloatingPaneId newestShownFloatingPaneId : Option FloatingPaneId)
  | undrawableFloatingPaneShown (clientId : ClientId) (floatingPaneId : FloatingPaneId)
  | tabSolveStale (tabId : TabId)
  | tabSolveSizeStale (tabId : TabId) (solvedTabSize tabSize : Size)
  | suppressedPaneFocused (clientId : ClientId) (tabId : TabId) (paneId : PaneId)
  deriving DecidableEq, Repr

def reportWhen (isViolated : Bool) (violation : SessionConsistencyError) : List SessionConsistencyError :=
  if isViolated then [violation] else []

@[simp] theorem reportWhen_eq_nil_iff (isViolated : Bool) (violation : SessionConsistencyError) :
    reportWhen isViolated violation = [] ↔ isViolated = false := by
  cases isViolated <;> simp [reportWhen]

namespace Session

variable (session : Session)

/-! ### Tabs -/

def listTabLeaves : List (PaneId × TabId) :=
  session.tabs.values.flatMap fun tab => tab.listPaneIds.map fun paneId => (paneId, tab.tabId)

/-- Every leaf of a floating pane's tree with its floating pane. -/
def listFloatingLeaves : List (PaneId × FloatingPaneId) :=
  session.floatingSet.flatMap fun floatingPane =>
    floatingPane.listPaneIds.map fun paneId => (paneId, floatingPane.floatingPaneId)

/-- One tab: its key, its leaves, its solve and its size. -/
def validateTab (entry : TabId × Tab) : List SessionConsistencyError :=
  let tab := entry.2
  reportWhen (entry.1 ≠ tab.tabId) (.tabKeyMismatch entry.1 tab.tabId) ++
    tab.listPaneIds.flatMap (fun paneId =>
      reportWhen (!session.panes.contains paneId) (.paneNotInRegistry tab.tabId paneId)) ++
    reportWhen (tab.layoutArea.computeLayoutSolve session.paneSizing ≠ tab.layoutArea.layoutSolve)
      (.tabSolveStale entry.1) ++
    (session.resolveTabSolveSize entry.1).toList.flatMap fun tabSize =>
      reportWhen (tabSize ≠ tab.layoutArea.solvedSize) (.tabSolveSizeStale entry.1 tab.layoutArea.solvedSize tabSize)

/-- Bar positions and leaves that two tabs claim. -/
def validateTabClaims : List SessionConsistencyError :=
  (OrdMap.groupEntries (session.tabs.values.map fun tab => (tab.tabIndex, tab.tabId))).entries.flatMap (fun group =>
      reportWhen (group.2.length > 1) (.duplicateTabIndex group.1)) ++
    (OrdMap.groupEntries session.listTabLeaves).entries.flatMap fun group =>
      reportWhen (group.2.length > 1) (.paneInMultipleLayouts group.1 group.2)

/-! ### Floating panes and the registry -/

/-- One floating pane: its leaves, its size and its solve. -/
def validateFloatingPane (floatingPane : FloatingPane) : List SessionConsistencyError :=
  reportWhen floatingPane.listPaneIds.isEmpty (.emptyFloatingPane floatingPane.floatingPaneId) ++
    reportWhen (floatingPane.layoutArea.solvedSize ≠ computeFloatingLayoutSize floatingPane.solvedSize)
      (.floatingPaneSolveSizeStale floatingPane.floatingPaneId floatingPane.layoutArea.solvedSize
        (computeFloatingLayoutSize floatingPane.solvedSize)) ++
    reportWhen (floatingPane.layoutArea.computeLayoutSolve session.paneSizing ≠ floatingPane.layoutArea.layoutSolve)
      (.floatingPaneSolveStale floatingPane.floatingPaneId)

/-- One pane of a floating pane: its record, and who else holds it. -/
def validateFloatingLeaf (group : PaneId × List FloatingPaneId) : List SessionConsistencyError :=
  reportWhen (!session.panes.contains group.1) (.floatingPaneNotInRegistry group.1) ++
    reportWhen (group.2.length > 1) (.paneInMultipleFloatingPanes group.1 group.2) ++
    ((OrdMap.groupEntries session.listTabLeaves).get? group.1).toList.flatMap fun tabIds =>
      [.floatingPaneInLayout group.1 tabIds]

def validateFloatingSet : List SessionConsistencyError :=
  reportWhen (session.floatingSet.length > maxFloatingPanesPerSession)
      (.tooManyFloatingPanes session.floatingSet.length) ++
    session.floatingSet.flatMap session.validateFloatingPane ++
    (OrdMap.groupEntries (session.floatingSet.map fun floatingPane =>
      (floatingPane.floatingPaneId, ()))).entries.flatMap (fun group =>
        reportWhen (group.2.length > 1) (.duplicateFloatingPaneId group.1)) ++
    (OrdMap.groupEntries session.listFloatingLeaves).entries.flatMap session.validateFloatingLeaf

/-- Records that no tree holds. -/
def validatePaneRecords : List SessionConsistencyError :=
  session.panes.values.flatMap fun paneRecord =>
    reportWhen (!(OrdMap.groupEntries session.listTabLeaves).contains paneRecord.paneId &&
        !(OrdMap.groupEntries session.listFloatingLeaves).contains paneRecord.paneId)
      (.orphanedPaneRecord paneRecord.paneId)

/-! ### Clients -/

/-- Whether the set holds a floating pane with this id. -/
def hasFloatingPane (floatingPaneId : FloatingPaneId) : Bool :=
  session.floatingSet.any fun floatingPane => floatingPane.floatingPaneId = floatingPaneId

variable (client : Client)

def validateClientTab : List SessionConsistencyError :=
  reportWhen (client.sessionId ≠ session.sessionId) (.clientSessionMismatch client.clientId client.sessionId) ++
    reportWhen (session.tabs.size ≠ 0 && !session.tabs.contains client.activeTabId)
      (.activeTabMissing client.clientId client.activeTabId)

def validateFocusHistory (entry : TabId × List PaneId) : List SessionConsistencyError :=
  entry.2.flatMap (fun historyPaneId =>
      reportWhen (!session.panes.contains historyPaneId)
          (.focusPaneNotInRegistry client.clientId entry.1 historyPaneId) ++
        reportWhen ((session.tabs.get? entry.1).any fun tab => !tab.layoutArea.layout.hasPane historyPaneId)
          (.focusTargetMissing client.clientId entry.1 historyPaneId)) ++
    reportWhen (session.tabs.get? entry.1).isNone (.focusTabMissing client.clientId entry.1)

def validateZoom (entry : TabId × PaneId) : List SessionConsistencyError :=
  reportWhen (!(session.panes.contains entry.2 &&
      (session.tabs.get? entry.1).any fun tab => tab.layoutArea.layout.hasPane entry.2))
    (.zoomTargetMissing client.clientId entry.1 entry.2)

def validateFloatingPaneView (floatingPane : FloatingPane) : List SessionConsistencyError :=
  let floatingPaneId := floatingPane.floatingPaneId
  match client.getFloatingPaneView floatingPaneId with
  | none => [.floatingViewMissing client.clientId floatingPaneId]
  | some floatingPaneView =>
    reportWhen (floatingPaneView.isMinimized = client.shownFloatingPaneIds.contains floatingPaneId)
        (.floatingPaneShownStateMismatch client.clientId floatingPaneId floatingPaneView.isMinimized) ++
      reportWhen floatingPaneView.focusHistory.isEmpty (.floatingFocusHistoryEmpty client.clientId floatingPaneId) ++
      floatingPaneView.focusHistory.flatMap (fun historyPaneId =>
        reportWhen (!floatingPane.hasPane historyPaneId)
          (.floatingFocusTargetMissing client.clientId floatingPaneId historyPaneId)) ++
      floatingPaneView.zoomedPaneId.toList.flatMap fun zoomedPaneId =>
        reportWhen (!floatingPane.hasPane zoomedPaneId)
          (.floatingZoomTargetMissing client.clientId floatingPaneId zoomedPaneId)

def validateShownFloatingPanes (client : Client) (seen : List FloatingPaneId) :
    List FloatingPaneId → List SessionConsistencyError
  | [] => []
  | shownFloatingPaneId :: shownFloatingPaneIds =>
    reportWhen (!session.hasFloatingPane shownFloatingPaneId)
        (.shownFloatingPaneMissing client.clientId shownFloatingPaneId) ++
      reportWhen (seen.contains shownFloatingPaneId)
        (.duplicateShownFloatingPane client.clientId shownFloatingPaneId) ++
      validateShownFloatingPanes client (shownFloatingPaneId :: seen) shownFloatingPaneIds

/-- A floating pane shown by a client that cannot draw it. -/
def validateDrawableFloatingPanes : List SessionConsistencyError :=
  if !session.canClientDrawFloatingPanes client then
    client.shownFloatingPaneIds.map fun shownFloatingPaneId =>
      .undrawableFloatingPaneShown client.clientId shownFloatingPaneId
  else []

/-- A focus on a pane the tab's solve suppresses, in a tiled view, while some pane of the tab is drawn. -/
def validateFocusVisible : List SessionConsistencyError :=
  match client.getLayoutMode client.activeTabId, session.tabs.get? client.activeTabId,
      client.getFocusedPaneId client.activeTabId with
  | .tiled, some tab, some focusedPaneId =>
    reportWhen (!tab.layoutArea.layoutSolve.isEveryPaneSuppressed &&
        tab.layoutArea.layoutSolve.suppressedPaneIds.contains focusedPaneId)
      (.suppressedPaneFocused client.clientId client.activeTabId focusedPaneId)
  | _, _, _ => []

def validateClient : List SessionConsistencyError :=
  session.validateClientTab client ++
    client.focusHistoryByTabId.entries.flatMap (session.validateFocusHistory client) ++
    client.zoomedPaneIdByTabId.entries.flatMap (session.validateZoom client) ++
    client.floatingPaneViewByFloatingPaneId.keys.flatMap (fun viewedFloatingPaneId =>
      reportWhen (!session.hasFloatingPane viewedFloatingPaneId)
        (.floatingViewTargetMissing client.clientId viewedFloatingPaneId)) ++
    session.floatingSet.flatMap (validateFloatingPaneView client) ++
    session.validateShownFloatingPanes client [] client.shownFloatingPaneIds ++
    reportWhen (client.focusedFloatingPaneId ≠ client.shownFloatingPaneIds.getLast?)
      (.floatingFocusNotNewestShown client.clientId client.focusedFloatingPaneId
        client.shownFloatingPaneIds.getLast?) ++
    session.validateDrawableFloatingPanes client ++
    session.validateFocusVisible client

def listConsistencyViolations : List SessionConsistencyError :=
  session.tabs.entries.flatMap session.validateTab ++ session.validateTabClaims ++ session.validateFloatingSet ++
    session.validatePaneRecords ++ session.listAttachedClients.flatMap session.validateClient

/-- `Ok` when there is no violation. -/
def validateSessionConsistency : Except (List SessionConsistencyError) Unit :=
  if session.listConsistencyViolations = [] then .ok () else .error session.listConsistencyViolations

end Session

end Koshi.Sessions
