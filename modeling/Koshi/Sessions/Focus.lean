import Koshi.Sessions.State

/-!
# Focus recovery and tab solves

Focus repair and focus events (`koshi-session/src/session/focus.rs`), the hand-off of a suppressed focus
(`cascade.rs`), and the solve updates of `state.rs` that run both. A loop over clients folds the session and
collects its events.
-/

namespace Koshi.Sessions

open Base Koshi.Core Layout

/-- Runs `body` for each item in turn, collecting the events. -/
def forEach {α : Type} (items : List α) (body : Session → α → Outcome) (session : Session) : Outcome :=
  items.foldl (fun outcome item =>
    let next := body outcome.1 item
    (next.1, outcome.2 ++ next.2)) (session, [])

/-! ### Choosing the heir -/

/-- The outcome of focus recovery. -/
inductive FocusRepairResult where
  | focused (paneId : PaneId)
  | terminalTooSmall
  deriving DecidableEq, Repr

/-- Picks the heir of a focus: the focus history, the spatial neighbor, the absorbed space, then layout order;
the first visible pane with a record wins. -/
def repairFocus (focusHistory : List PaneId) (panes : OrdMap PaneId PaneRecord)
    (rankedFocusCandidates : FocusCandidates) : FocusRepairResult :=
  let focusPaneId := (focusHistory ++ rankedFocusCandidates.spatialNeighborPaneId.toList ++
    rankedFocusCandidates.absorbedSpacePaneId.toList ++ rankedFocusCandidates.layoutOrderPaneIds).find? fun paneId =>
      rankedFocusCandidates.layoutOrderPaneIds.contains paneId && panes.contains paneId
  match focusPaneId with
  | some paneId => .focused paneId
  | none => .terminalTooSmall

/-! ### Focus events -/

/-- The event that reports a change of the pane taking `client`'s input. -/
def buildPaneFocusedEvent (client : Client) (previousFocusedPaneId : Option PaneId) : Option Event :=
  client.getActiveFocusedPaneId.bind fun focusedPaneId =>
    if some focusedPaneId = previousFocusedPaneId then none
    else some (.paneFocused client.clientId
      (if client.focusedFloatingPaneId.isSome then none else some client.activeTabId)
      focusedPaneId previousFocusedPaneId)

def buildFloatingPaneMinimizedChangedEvents (clientId : ClientId) (floatingSet : FloatingSet)
    (floatingPaneIds : List FloatingPaneId) (isMinimized : Bool) : List Event :=
  floatingPaneIds.filterMap fun floatingPaneId =>
    (FloatingSet.findFloatingPaneById floatingSet floatingPaneId).map fun floatingPane =>
      .floatingPaneMinimizedChanged clientId floatingPane.listPaneIds isMinimized

def updateClientTabFocus (session : Session) (clientId : ClientId) (tabId : TabId) (paneId : PaneId) : Outcome :=
  match session.clients.get? clientId with
  | none => (session, [])
  | some client =>
    ((session.modifyClient clientId (·.updateFocusedPane tabId paneId)).modifyTab tabId (·.recordFocusMru paneId),
      [.paneFocused clientId (some tabId) paneId (client.getFocusedPaneId tabId)])

/-! ### Repair in a tab -/

/-- Classifies why `clientId` has no visible pane area in `tabId`. -/
def resolveTerminalTooSmallCause (session : Session) (tabId : TabId) (clientId : ClientId) : TerminalTooSmallCause :=
  match session.clients.get? clientId with
  | none => .terminal
  | some client =>
    let isRegionShortage := match client.paneArea with
      | some .starving => true
      | some (.reported reportedPaneArea) =>
        !(computeDefaultPaneAreaSize client.viewportSize).canFitInside
          (reportedPaneArea.computeMinimumAxes client.viewportSize)
      | none => false
    if isRegionShortage then .regions
    else match client.getPaneArea, session.getTabSize tabId with
      | none, _ => .regions
      | some _, none => .terminal
      | some ownPaneArea, some tabSize =>
        let isConstraining := fun (otherViewer : Client) =>
          match otherViewer.getPaneArea with
          | none => false
          | some otherPaneArea =>
            (tabSize.columnCount < ownPaneArea.columnCount && otherPaneArea.columnCount = tabSize.columnCount) ||
              (tabSize.rowCount < ownPaneArea.rowCount && otherPaneArea.rowCount = tabSize.rowCount)
        match (session.listAttachedClients.filter fun otherViewer =>
            otherViewer.clientId ≠ clientId && otherViewer.activeTabId = tabId).find? isConstraining with
        | some otherClient => .otherClient otherClient.clientId
        | none => .terminal

def computeClientFocusVerdict (session : Session) (client : Client) (clientSolve : LayoutSolve) (tabId : TabId)
    (rankingPaneRect : Rect) : FocusRepairResult :=
  repairFocus (client.listFocusHistory tabId) session.panes
    (computeFocusCandidates rankingPaneRect clientSolve.paneRects clientSolve.stackHeaders)

def findInheritingPane (session : Session) (client : Client) (tabId : TabId) : FocusRepairResult → Option PaneId
  | .focused focusedPaneId => some focusedPaneId
  | .terminalTooSmall => session.findLandingPane client tabId

/-- Applies the heir: focuses it, or forgets the client's focus in the tab when there is none. -/
def applyInheritingPane (session : Session) (tabId : TabId) (clientId : ClientId) : Option PaneId → Outcome
  | some inheritingPaneId => updateClientTabFocus session clientId tabId inheritingPaneId
  | none => (session.modifyClient clientId (·.clearFocusHistory tabId), [])

def buildTerminalTooSmallEvents (session : Session) (tabId : TabId) (clientId : ClientId)
    (verdict : FocusRepairResult) : List Event :=
  if verdict = .terminalTooSmall then
    match session.clients.get? clientId with
    | some client =>
      if client.activeTabId = tabId then
        [.terminalTooSmallEntered clientId client.viewportSize client.paneArea
          (resolveTerminalTooSmallCause session tabId clientId)]
      else []
    | none => []
  else []

def repairClientFocus (session : Session) (tabId : TabId) (clientId : ClientId) (rankingPaneRect : Rect) : Outcome :=
  match session.clients.get? clientId with
  | none => (session, [])
  | some client =>
    match session.computeClientSolve client tabId with
    | none => (session, [])
    | some clientSolve =>
      let verdict := computeClientFocusVerdict session client clientSolve tabId rankingPaneRect
      let applied := applyInheritingPane session tabId clientId (findInheritingPane session client tabId verdict)
      (applied.1, applied.2 ++ buildTerminalTooSmallEvents applied.1 tabId clientId verdict)

def findRankingPaneRect (previousLayoutSolve : Option LayoutSolve) (layoutSolve : LayoutSolve) (paneId : PaneId) :
    Rect :=
  (((previousLayoutSolve.bind (·.findPaneRect paneId)).or (layoutSolve.findPaneRect paneId)).getD .buildEmptyAtOrigin)

def listSuppressedFocusClientRects (session : Session) (tabId : TabId) (previousLayoutSolve : Option LayoutSolve)
    (layoutSolve : LayoutSolve) : List (ClientId × Rect) :=
  layoutSolve.suppressedPaneIds.flatMap fun suppressedPaneId =>
    (session.listAttachedClients.filter fun client =>
      client.activeTabId = tabId && client.getLayoutMode tabId = .tiled &&
        client.getFocusedPaneId tabId = some suppressedPaneId).map fun client =>
      (client.clientId, findRankingPaneRect previousLayoutSolve layoutSolve suppressedPaneId)

def handOffSuppressedFocus (session : Session) (tabId : TabId) (previousLayoutSolve : Option LayoutSolve) : Outcome :=
  match session.tabs.get? tabId with
  | none => (session, [])
  | some tab =>
    let layoutSolve := tab.layoutArea.layoutSolve
    if layoutSolve.isEveryPaneSuppressed then (session, [])
    else forEach (listSuppressedFocusClientRects session tabId previousLayoutSolve layoutSolve)
      (fun session clientRect => repairClientFocus session tabId clientRect.1 clientRect.2) session

/-! ### Repair in a floating pane -/

def findFloatingInheritingPane (floatingPane : FloatingPane) : FocusRepairResult → Option PaneId
  | .focused focusedPaneId => some focusedPaneId
  | .terminalTooSmall => floatingPane.listPaneIds.head?

def repairFloatingPaneClientFocus (session : Session) (floatingPaneId : FloatingPaneId) (clientId : ClientId)
    (rankingPaneRect : Rect) : Outcome :=
  match session.clients.get? clientId with
  | none => (session, [])
  | some client =>
    match session.computeClientFloatingPaneSolve client floatingPaneId, client.getFloatingPaneView floatingPaneId,
        FloatingSet.findFloatingPaneById session.floatingSet floatingPaneId with
    | some clientSolve, some floatingPaneView, some floatingPane =>
      let verdict := repairFocus floatingPaneView.focusHistory session.panes
        (computeFocusCandidates rankingPaneRect clientSolve.paneRects clientSolve.stackHeaders)
      match findFloatingInheritingPane floatingPane verdict with
      | none => (session, [])
      | some inheritingPaneId =>
        (session.modifyClient clientId (·.updateFloatingPaneFocusedPane floatingPaneId inheritingPaneId),
          (buildPaneFocusedEvent (client.updateFloatingPaneFocusedPane floatingPaneId inheritingPaneId)
            client.getActiveFocusedPaneId).toList)
    | _, _, _ => (session, [])

def listSuppressedFloatingFocusClientRects (session : Session) (floatingPaneId : FloatingPaneId)
    (previousLayoutSolve : Option LayoutSolve) (layoutSolve : LayoutSolve) : List (ClientId × Rect) :=
  layoutSolve.suppressedPaneIds.flatMap fun suppressedPaneId =>
    (session.listAttachedClients.filter fun client =>
      client.findFloatingPaneInputPaneId floatingPaneId = some suppressedPaneId).map fun client =>
      (client.clientId, findRankingPaneRect previousLayoutSolve layoutSolve suppressedPaneId)

def handOffSuppressedFloatingFocus (session : Session) (floatingPaneId : FloatingPaneId)
    (previousLayoutSolve : Option LayoutSolve) : Outcome :=
  match FloatingSet.findFloatingPaneById session.floatingSet floatingPaneId with
  | none => (session, [])
  | some floatingPane =>
    let layoutSolve := floatingPane.layoutArea.layoutSolve
    if layoutSolve.isEveryPaneSuppressed then (session, [])
    else forEach (listSuppressedFloatingFocusClientRects session floatingPaneId previousLayoutSolve layoutSolve)
      (fun session clientRect => repairFloatingPaneClientFocus session floatingPaneId clientRect.1 clientRect.2) session

/-! ### Solve updates -/

/-- Minimizes every floating pane `clientId` shows. -/
def minimizeClientFloatingPanes (session : Session) (clientId : ClientId) : Outcome :=
  match session.clients.get? clientId with
  | none => (session, [])
  | some client =>
    (session.modifyClient clientId Client.minimizeShownFloatingPanes,
      buildFloatingPaneMinimizedChangedEvents clientId session.floatingSet client.shownFloatingPaneIds true ++
        (buildPaneFocusedEvent client.minimizeShownFloatingPanes client.getActiveFocusedPaneId).toList)

/-- The clients that show a floating pane they cannot draw. -/
def listMinimizingClientIds (session : Session) : List ClientId :=
  (session.listAttachedClients.filter fun client =>
    !client.shownFloatingPaneIds.isEmpty && !session.canClientDrawFloatingPanes client).map Client.clientId

def minimizeUndrawableFloatingPanes (session : Session) : Outcome :=
  forEach (listMinimizingClientIds session) minimizeClientFloatingPanes session

/-- The focus hand-off of `tabId`, then the floating check. -/
def applyTabSolveChange (session : Session) (tabId : TabId) (previousLayoutSolve : Option LayoutSolve) : Outcome :=
  let handedOff := handOffSuppressedFocus session tabId previousLayoutSolve
  let minimized := minimizeUndrawableFloatingPanes handedOff.1
  (minimized.1, handedOff.2 ++ minimized.2)

/-- Takes a new tab size and solves the tree at it. -/
def Tab.resize (tab : Tab) (tabSize : Size) (paneSizing : PaneSizing) : Tab :=
  { tab with layoutArea := ({ tab.layoutArea with solvedSize := tabSize }).updateLayoutSolve paneSizing }

/-- Replaces the tree and solves it at the size it is solved at. -/
def Tab.replaceLayout (tab : Tab) (layoutTree : LayoutNode) (paneSizing : PaneSizing) : Tab :=
  { tab with layoutArea := ({ tab.layoutArea with layout := layoutTree }).updateLayoutSolve paneSizing }

/-- Solves `tabId` again when its size changed, then runs the focus and floating checks. -/
def updateTabSolve (session : Session) (tabId : TabId) : Outcome :=
  match session.resolveTabSolveSize tabId, session.tabs.get? tabId with
  | some tabSize, some tab =>
    if tab.layoutArea.solvedSize = tabSize then applyTabSolveChange session tabId none
    else applyTabSolveChange (session.modifyTab tabId (·.resize tabSize session.paneSizing)) tabId
      (some tab.layoutArea.layoutSolve)
  | _, _ => (session, [])

/-- Replaces `tabId`'s tree, solves it, then runs the focus and floating checks. -/
def updateTabLayout (session : Session) (tabId : TabId) (layoutTree : LayoutNode) : Outcome :=
  match session.tabs.get? tabId with
  | none => (session, [])
  | some tab =>
    applyTabSolveChange (session.modifyTab tabId (·.replaceLayout layoutTree session.paneSizing)) tabId
      (some tab.layoutArea.layoutSolve)

/-- Replaces the tree of `floatingPaneId`, solves it, then hands off suppressed focuses inside it. -/
def updateFloatingPaneLayout (session : Session) (floatingPaneId : FloatingPaneId) (layoutTree : LayoutNode) :
    Outcome :=
  match FloatingSet.findFloatingPaneById session.floatingSet floatingPaneId with
  | none => (session, [])
  | some floatingPane =>
    handOffSuppressedFloatingFocus
      { session with
        floatingSet := session.floatingSet.modifyById floatingPaneId (·.replaceLayout layoutTree session.paneSizing) }
      floatingPaneId (some floatingPane.layoutArea.layoutSolve)

def updateTabSolves (session : Session) (tabIds : List TabId) : Outcome :=
  forEach tabIds.eraseDups updateTabSolve session

end Koshi.Sessions
