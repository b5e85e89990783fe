import Koshi.Layout.Placement
import Koshi.Sessions.TabOps

/-!
# Undock, dock and cross-tab placement

The commits of `koshi-session/src/session/placement.rs`, with the showing of a new floating pane (`pane_ops.rs`). A
commit gives the answer of the source and the session it leaves, also on an error; an outer `none` is a panic.
-/

namespace Koshi.Sessions

open Base Koshi.Core Layout

/-- Why a placement could not be installed. -/
inductive PlacementCommitError where
  | sameTab
  | sourceTabNotFound
  | destinationTabNotFound
  | sourcePaneNotFound
  | floatingSourceNotFound
  | paneOwnershipConflict
  | actingClientNotFound
  | lastTiledPane
  | aloneInFloatingPane (paneId : PaneId)
  | floatingPaneRefused (floatingSetError : FloatingSetError)
  deriving DecidableEq, Repr

inductive DockSource where
  | pane (paneId : PaneId)
  | wholeFloatingPane (floatingPaneId : FloatingPaneId)
  deriving DecidableEq, Repr

/-- Where a tiled placement goes. Only whether it stacks is read here. -/
inductive TiledPlacementTarget where
  | split (destinationTabId : TabId) (anchor : PanePlacementAnchor) (direction : Direction)
  | swap (targetPaneId : PaneId)
  | stack (targetPaneId : PaneId)

/-- The answer of a commit, with the session it leaves. -/
abbrev CommitResult := Except PlacementCommitError (List Event) × Session

/-! ### The clients that follow -/

variable (session : Session)

def listFollowingClientIds (movedPaneIds : List PaneId) (actingClientId : ClientId) : List ClientId :=
  (session.listAttachedClients.filter fun client =>
    client.clientId ≠ actingClientId && client.getActiveFocusedPaneId.any (movedPaneIds.contains ·)).map Client.clientId

def listMovingClientIds (movedPaneIds : List PaneId) (actingClientId : ClientId) : List ClientId :=
  actingClientId :: listFollowingClientIds session movedPaneIds actingClientId

def moveClientOntoTiledPane (clientId : ClientId) (tabId : TabId) (paneId : PaneId)
    (previousFloatingFocusedPaneId : Option PaneId) : Outcome :=
  match session.clients.get? clientId with
  | none => (session, [])
  | some client =>
    let moved := (client.clearZoom tabId).updateActiveTabId tabId
    let tiledPaneFocusChange := moved.computeTiledPaneFocusChange tabId
    ((session.modifyClient clientId fun client =>
        ((client.clearZoom tabId).updateActiveTabId tabId).focusTiledPane tabId paneId).modifyTab tabId
          (·.recordFocusMru paneId),
      (if client.activeTabId ≠ tabId then [.tabFocused clientId tabId client.activeTabId] else []) ++
      buildFloatingPaneMinimizedChangedEvents clientId session.floatingSet
        tiledPaneFocusChange.minimizedFloatingPaneIds true ++
      [.paneFocused clientId (some tabId) paneId
        (previousFloatingFocusedPaneId.or tiledPaneFocusChange.previousPaneId)])

/-! ### Undock -/

/-- The rect `client` draws `paneId`, a leaf of `tabId`, in, counted from its pane-area origin. -/
def findLiftedTabPaneRect (client : Client) (tabId : TabId) (paneId : PaneId) : Option Rect := do
  if client.activeTabId ≠ tabId then none else
  let paneArea ← client.getPaneArea
  let tab ← session.tabs.get? tabId
  let tabSize := tab.layoutArea.solvedSize
  let clientSolve ← session.computeClientSolve client tabId
  let paneRect ← if clientSolve.stackHeaders.any (·.paneId = paneId) then
      (solvePlacedTab tab.layoutArea.layout paneId (client.listFocusHistory tabId) tabSize
        session.paneSizing).layoutSolve.findPaneRect paneId
    else clientSolve.findPaneRect paneId
  let tabOrigin := paneArea.computeCenteredOrigin tabSize
  some ⟨⟨satAdd16 paneRect.origin.column tabOrigin.column, satAdd16 paneRect.origin.row tabOrigin.row⟩, paneRect.size⟩

/-- The box a client draws a pane of a floating pane in, grown up by the titlebar strip row. -/
def computeFloatingPaneMemberBox (floatingPaneRect paneRect : Rect) : Rect :=
  ⟨⟨satAdd16 floatingPaneRect.origin.column paneRect.origin.column,
      satAdd16 floatingPaneRect.origin.row paneRect.origin.row⟩,
    ⟨paneRect.size.columnCount, satAdd16 paneRect.size.rowCount floatingTitlebarStripRowCount⟩⟩

def findLiftedFloatingPaneMemberRect (client : Client) (floatingPaneId : FloatingPaneId) (paneId : PaneId) :
    Option Rect := do
  if !client.isFloatingPaneShown floatingPaneId then none else
  let floatingPaneRect ← session.findClientFloatingPaneRect client floatingPaneId
  let clientSolve ← session.computeClientFloatingPaneSolve client floatingPaneId
  let paneRect ← if clientSolve.stackHeaders.any (·.paneId = paneId) then do
      let floatingPane ← FloatingSet.findFloatingPaneById session.floatingSet floatingPaneId
      let floatingPaneView ← client.getFloatingPaneView floatingPaneId
      (solvePlacedTab floatingPane.layoutArea.layout paneId floatingPaneView.focusHistory
        floatingPane.layoutArea.solvedSize session.paneSizing).layoutSolve.findPaneRect paneId
    else clientSolve.findPaneRect paneId
  some (computeFloatingPaneMemberBox floatingPaneRect paneRect)

def findLiftedFloatingPaneRect (clientId : ClientId) (layoutAreaId : LayoutAreaId) (paneId : PaneId) :
    Option (FloatingPaneSize × Point) := do
  let client ← session.clients.get? clientId
  let liftedRect ← match layoutAreaId with
    | .tab tabId => findLiftedTabPaneRect session client tabId paneId
    | .floatingPane floatingPaneId => findLiftedFloatingPaneMemberRect session client floatingPaneId paneId
  if liftedRect.isEmpty then none
  else some (⟨.cells liftedRect.size.columnCount, .cells liftedRect.size.rowCount⟩, liftedRect.origin)

def checkUndock (sourceLayoutAreaId : LayoutAreaId) (sourcePaneId : PaneId) (actingClientId : ClientId) :
    Option PlacementCommitError :=
  let areaError := match sourceLayoutAreaId with
    | .tab sourceTabId =>
      match session.tabs.get? sourceTabId with
      | none => some .sourceTabNotFound
      | some sourceTab =>
        if !sourceTab.listPaneIds.contains sourcePaneId then some .sourcePaneNotFound
        else if session.tabs.size = 1 ∧ sourceTab.listPaneIds.length = 1 then some .lastTiledPane
        else none
    | .floatingPane sourceFloatingPaneId =>
      match FloatingSet.findFloatingPaneById session.floatingSet sourceFloatingPaneId with
      | none => some .floatingSourceNotFound
      | some sourceFloatingPane =>
        if !sourceFloatingPane.listPaneIds.contains sourcePaneId then some .floatingSourceNotFound
        else if sourceFloatingPane.listPaneIds.length = 1 then some (.aloneInFloatingPane sourcePaneId)
        else none
  match areaError with
  | some placementCommitError => some placementCommitError
  | none =>
    if !session.clients.contains actingClientId then some .actingClientNotFound
    else if FloatingSet.isFull session.floatingSet then some (.floatingPaneRefused .tooManyPanes)
    else none

def listUndockClientPositions (sourceLayoutAreaId : LayoutAreaId) (sourcePaneId : PaneId)
    (actingView : ClientId × FloatingPanePosition) : List (ClientId × FloatingPanePosition) :=
  actingView :: (listFollowingClientIds session [sourcePaneId] actingView.1).map fun followingClientId =>
    (followingClientId, match findLiftedFloatingPaneRect session followingClientId sourceLayoutAreaId sourcePaneId with
      | none => .default
      | some (_, topLeftCell) => .moved topLeftCell)

/-- The client looks at the floating pane, where it draws floating panes. -/
def showNewFloatingPane (session : Session) (clientId : ClientId) (floatingPaneId : FloatingPaneId) : Outcome :=
  match session.clients.get? clientId with
  | none => (session, [])
  | some client =>
    if session.canClientDrawFloatingPanes client then
      (session.modifyClient clientId (·.focusFloatingPane floatingPaneId),
        (buildPaneFocusedEvent (client.focusFloatingPane floatingPaneId) client.getActiveFocusedPaneId).toList)
    else (session, [])

def showForClients (clientPositions : List (ClientId × FloatingPanePosition)) (floatingPaneId : FloatingPaneId) :
    Outcome :=
  forEach clientPositions (fun session clientPosition => showNewFloatingPane session clientPosition.1 floatingPaneId)
    session

/-- Undocks `sourcePaneId` into a new floating pane; `floatingPaneId` is the id the source mints. -/
def commitUndockPlacement (floatingPaneId : FloatingPaneId) (sourceLayoutAreaId : LayoutAreaId) (sourcePaneId : PaneId)
    (desiredSize : FloatingPaneSize) (solvedSize : Size)
    (actingView : ClientId × FloatingPanePosition) : Option CommitResult :=
  match checkUndock session sourceLayoutAreaId sourcePaneId actingView.1 with
  | some placementCommitError => some (.error placementCommitError, session)
  | none =>
    let clientPositions := listUndockClientPositions session sourceLayoutAreaId sourcePaneId actingView
    let floatingPane := FloatingPane.fromPane floatingPaneId sourcePaneId desiredSize solvedSize session.paneSizing
    match sourceLayoutAreaId with
    | .tab sourceTabId =>
      match session.addFloatingPane floatingPane clientPositions with
      | .error floatingSetError => some (.error (.floatingPaneRefused floatingSetError), session)
      | .ok added =>
        (removePaneFromTab added sourceTabId sourcePaneId none).map fun removed =>
          let shown := showForClients removed.1 clientPositions floatingPaneId
          (.ok (removed.2 ++ shown.2), shown.1)
    | .floatingPane sourceFloatingPaneId =>
      let focusedClientRects := listFloatingPaneFocusedClientRects session sourceFloatingPaneId sourcePaneId
      (removePaneLeafFromFloatingPane session sourceFloatingPaneId sourcePaneId).bind fun removed =>
        match removed.1.addFloatingPane floatingPane clientPositions with
        -- the expect: the set is not full, and no floating pane holds the pane once it left
        | .error _ => none
        | .ok added =>
          let shown := showForClients added clientPositions floatingPaneId
          let repaired := repairFloatingPaneFocusAfterPaneLeft shown.1 sourceFloatingPaneId sourcePaneId
            focusedClientRects
          some (.ok (removed.2 ++ shown.2 ++ repaired.2), repaired.1)

/-! ### Dock -/

def findDockedPanes : DockSource → Option (FloatingPaneId × List PaneId)
  | .pane sourcePaneId =>
    (FloatingSet.findFloatingPaneByPaneId session.floatingSet sourcePaneId).map fun sourceFloatingPane =>
      (sourceFloatingPane.floatingPaneId, [sourcePaneId])
  | .wholeFloatingPane sourceFloatingPaneId =>
    (FloatingSet.findFloatingPaneById session.floatingSet sourceFloatingPaneId).map fun sourceFloatingPane =>
      (sourceFloatingPaneId, sourceFloatingPane.listPaneIds)

/-- Whether two lists hold the same panes (`HashSet` equality). -/
def hasSamePaneSet (first second : List PaneId) : Bool :=
  first.all (second.contains ·) && second.all (first.contains ·)

/-- The checks of a dock after its source was found. -/
def checkDock (dockedPaneIds : List PaneId) (destinationTabId : TabId) (destinationTree : LayoutNode)
    (actingClientId : ClientId) : Option PlacementCommitError :=
  match session.tabs.get? destinationTabId with
  | none => some .destinationTabNotFound
  | some destinationTab =>
    let destinationLeafPaneIds := destinationTree.listLeafPaneIds
    if !decide destinationLeafPaneIds.Nodup ||
        !hasSamePaneSet destinationLeafPaneIds (destinationTab.listPaneIds ++ dockedPaneIds) then
      some .paneOwnershipConflict
    else if !session.clients.contains actingClientId then some .actingClientNotFound
    else none

/-- One client that follows docked panes: its active tab, its floating input, and the pane it lands on. -/
structure MovingClient where
  clientId : ClientId
  previousTabId : TabId
  previousFloatingFocusedPaneId : Option PaneId
  landingPaneId : PaneId

variable (sourceFloatingPaneId : FloatingPaneId)

def listMovingClients (dockedPaneIds : List PaneId) (firstDockedPaneId : PaneId) (actingClientId : ClientId) :
    List MovingClient :=
  (listMovingClientIds session dockedPaneIds actingClientId).filterMap fun clientId =>
    (session.clients.get? clientId).map fun client =>
      { clientId
        previousTabId := client.activeTabId
        previousFloatingFocusedPaneId := client.findFocusedFloatingPaneInputPaneId
        landingPaneId := ((client.findFloatingPaneInputPaneId sourceFloatingPaneId).filter
          (dockedPaneIds.contains ·)).getD firstDockedPaneId }

def listFloatingFocusHistories : DockSource → List (ClientId × List PaneId)
  | .pane _ => []
  | .wholeFloatingPane sourceFloatingPaneId =>
    session.listAttachedClients.filterMap fun client =>
      (client.getFloatingPaneView sourceFloatingPaneId).map fun floatingPaneView =>
        (client.clientId, floatingPaneView.focusHistory)

def takeDockedPanes : DockSource → Option Outcome
  | .pane sourcePaneId => removePaneLeafFromFloatingPane session sourceFloatingPaneId sourcePaneId
  | .wholeFloatingPane _ => some (session.removeFloatingPane sourceFloatingPaneId, [])

def joinFocusHistory (destinationTabId : TabId) (movingClientIds : List ClientId) (isStackedOntoTarget : Bool)
    (session : Session) (entry : ClientId × List PaneId) : Session :=
  session.modifyClient entry.1 fun client =>
    let isMovingClient := movingClientIds.contains entry.1
    let focusHistoryLength := (client.listFocusHistory destinationTabId).length
    if !isMovingClient && (isStackedOntoTarget || focusHistoryLength = 0) then client
    else client.insertPanesIntoFocusHistory destinationTabId (if isMovingClient then 1 else focusHistoryLength) entry.2

def TiledPlacementTarget.isStack : TiledPlacementTarget → Bool
  | .stack _ => true
  | _ => false

def repairDockSource (focusedClientRects : List (ClientId × Rect)) : DockSource → Outcome
  | .pane sourcePaneId => repairFloatingPaneFocusAfterPaneLeft session sourceFloatingPaneId sourcePaneId
      focusedClientRects
  | .wholeFloatingPane _ => (session, [])

def listDockFocusedClientRects : DockSource → List (ClientId × Rect)
  | .pane sourcePaneId => listFloatingPaneFocusedClientRects session sourceFloatingPaneId sourcePaneId
  | .wholeFloatingPane _ => []

def moveDockClients (destinationTabId : TabId) (movingClients : List MovingClient) : Outcome :=
  forEach movingClients (fun session movingClient => moveClientOntoTiledPane session movingClient.clientId
    destinationTabId movingClient.landingPaneId movingClient.previousFloatingFocusedPaneId) session

/-- Docks the panes `dockSource` names into `destinationTabId`. -/
def commitDockPlacement (dockSource : DockSource) (destinationTabId : TabId) (destinationTree : LayoutNode)
    (tiledPlacementTarget : TiledPlacementTarget) (actingClientId : ClientId) :
    Option CommitResult :=
  match findDockedPanes session dockSource with
  | none => some (.error .floatingSourceNotFound, session)
  | some (sourceFloatingPaneId, dockedPaneIds) =>
    match checkDock session dockedPaneIds destinationTabId destinationTree actingClientId with
    | some placementCommitError => some (.error placementCommitError, session)
    | none =>
      let focusedClientRects := listDockFocusedClientRects session sourceFloatingPaneId dockSource
      -- `unwrap_or(docked_pane_ids[0])` indexes eagerly: no docked pane is a panic
      dockedPaneIds.head?.bind fun firstDockedPaneId =>
        let movingClients := listMovingClients session sourceFloatingPaneId dockedPaneIds firstDockedPaneId
          actingClientId
        let floatingFocusHistories := listFloatingFocusHistories session dockSource
        (takeDockedPanes session sourceFloatingPaneId dockSource).map fun taken =>
          let updated := updateTabLayout taken.1 destinationTabId destinationTree
          let moved := moveDockClients updated.1 destinationTabId movingClients
          let joined := floatingFocusHistories.foldl (joinFocusHistory destinationTabId
            (movingClients.map MovingClient.clientId) tiledPlacementTarget.isStack) moved.1
          let solved := updateTabSolves joined (destinationTabId :: movingClients.map MovingClient.previousTabId)
          let repaired := repairDockSource solved.1 sourceFloatingPaneId focusedClientRects dockSource
          (.ok (taken.2 ++ .layoutChanged destinationTabId :: updated.2 ++ moved.2 ++ solved.2 ++ repaired.2),
            repaired.1)

/-! ### Cross-tab placement -/

/-- The elements of `first` that `second` does not hold (`HashSet::difference`, in list order). -/
def listMovedPaneIds (first second : List PaneId) : List PaneId := first.filter fun paneId => !second.contains paneId

variable (sourceTabId destinationTabId : TabId) (sourcePaneId : PaneId) (preparedPlacement : CrossTabPlacement)

/-- The checks of a cross-tab placement, in the order of the source; the swapped pane when they pass. -/
def checkCrossTabPlacement (actingClientId : ClientId) : Except PlacementCommitError (Option PaneId) :=
  if sourceTabId = destinationTabId then .error .sameTab
  else match session.tabs.get? sourceTabId, session.tabs.get? destinationTabId with
    | none, _ => .error .sourceTabNotFound
    | some _, none => .error .destinationTabNotFound
    | some sourceTab, some destinationTab =>
      let sourceBefore := sourceTab.listPaneIds
      let destinationBefore := destinationTab.listPaneIds
      let sourceAfter := (preparedPlacement.sourceTree.map LayoutNode.listLeafPaneIds).getD []
      let destinationAfter := preparedPlacement.destinationTree.listLeafPaneIds
      if !sourceBefore.contains sourcePaneId then .error .sourcePaneNotFound
      else if !decide sourceAfter.Nodup || !decide destinationAfter.Nodup then .error .paneOwnershipConflict
      else if !destinationAfter.contains sourcePaneId || sourceAfter.any (destinationAfter.contains ·) then
        .error .paneOwnershipConflict
      else if !session.clients.contains actingClientId then .error .actingClientNotFound
      else if !decide sourceBefore.Nodup || !decide destinationBefore.Nodup then .error .paneOwnershipConflict
      else if sourceBefore.any (destinationBefore.contains ·) then .error .paneOwnershipConflict
      else if listMovedPaneIds sourceBefore sourceAfter ≠ [sourcePaneId] ∨
          (listMovedPaneIds destinationBefore destinationAfter).length > 1 then .error .paneOwnershipConflict
      else if !hasSamePaneSet (sourceBefore ++ destinationBefore) (sourceAfter ++ destinationAfter) then
        .error .paneOwnershipConflict
      else .ok (listMovedPaneIds destinationBefore destinationAfter).head?

def installSourceTree (sourceTabId : TabId) (sourcePaneId : PaneId) (swappedPaneId : Option PaneId) :
    Option LayoutNode → Outcome
  | none => (session, [])
  | some sourceTree =>
    let updated := updateTabLayout session sourceTabId sourceTree
    (updated.1.modifyTab sourceTabId fun tab =>
        let tab := tab.removeFocusMru sourcePaneId
        match swappedPaneId with
        | none => tab
        | some swappedPaneId => tab.recordFocusMru swappedPaneId,
      .layoutChanged sourceTabId :: updated.2)

def installDestinationTree (destinationTabId : TabId) (swappedPaneId : Option PaneId) (destinationTree : LayoutNode) :
    Outcome :=
  let updated := updateTabLayout session destinationTabId destinationTree
  (updated.1.modifyTab destinationTabId fun tab =>
      match swappedPaneId with
      | none => tab
      | some swappedPaneId => tab.removeFocusMru swappedPaneId,
    .layoutChanged destinationTabId :: updated.2)

def clearMovedZooms (swappedPaneId : Option PaneId) : Session :=
  session.modifyClients fun client =>
    let client := client.clearZoomOfPane sourcePaneId
    match swappedPaneId with
    | none => client
    | some swappedPaneId => client.clearZoomOfPane swappedPaneId

def moveClientsOnto (clientIds : List ClientId) (tabId : TabId) (paneId : PaneId) : Outcome :=
  forEach clientIds (fun session clientId => moveClientOntoTiledPane session clientId tabId paneId none) session

/-- The clients on the swapped pane follow it to the source tab. -/
def moveSwappedClients (clientIds : List ClientId) (sourceTabId : TabId) : Option PaneId → Outcome
  | none => (session, [])
  | some swappedPaneId => moveClientsOnto session clientIds sourceTabId swappedPaneId

/-- The focus repair of the source tab, unless it closes. -/
def repairPlacementSource (sourceTabId : TabId) (sourcePaneId : PaneId) (isSourceTabClosing : Bool)
    (focusedClientRects : List (ClientId × Rect)) : Outcome :=
  if isSourceTabClosing then (session, [])
  else repairFocusAfterPaneLeft session sourceTabId sourcePaneId focusedClientRects

def repairPlacementDestination (destinationTabId : TabId) (focusedClientRects : List (ClientId × Rect)) :
    Option PaneId → Outcome
  | none => (session, [])
  | some swappedPaneId => repairFocusAfterPaneLeft session destinationTabId swappedPaneId focusedClientRects

/-- The source tab closes when it has no tree left. -/
def closePlacementSource (sourceTabId : TabId) (isSourceTabClosing : Bool) : Outcome :=
  if isSourceTabClosing then closeAndRefocusTab session sourceTabId none else (session, [])

def listSwappedFocusedClientRects (destinationTabId : TabId) : Option PaneId → List (ClientId × Rect)
  | none => []
  | some swappedPaneId => listFocusedClientRects session destinationTabId swappedPaneId

/-- The clients that follow the swapped pane to the source tab. -/
def listSwappedMovingClientIds (actingClientId : ClientId) : Option PaneId → List ClientId
  | none => []
  | some swappedPaneId => listFollowingClientIds session [swappedPaneId] actingClientId

/-- Both trees are installed, the zooms on moved panes end and the clients follow their panes. -/
def installCrossTabPlacement (swappedPaneId : Option PaneId)
    (sourceMovingClientIds swappedMovingClientIds : List ClientId) : Outcome :=
  let destinationInstalled := installDestinationTree session destinationTabId swappedPaneId
    preparedPlacement.destinationTree
  let sourceInstalled := installSourceTree destinationInstalled.1 sourceTabId sourcePaneId swappedPaneId
    preparedPlacement.sourceTree
  let unzoomed := clearMovedZooms sourceInstalled.1 sourcePaneId swappedPaneId
  let moved := moveClientsOnto unzoomed sourceMovingClientIds destinationTabId sourcePaneId
  let swappedMoved := moveSwappedClients moved.1 swappedMovingClientIds sourceTabId swappedPaneId
  (swappedMoved.1, destinationInstalled.2 ++ sourceInstalled.2 ++ moved.2 ++ swappedMoved.2)

/-- The steps of a cross-tab placement whose checks passed. -/
def applyCrossTabPlacement (swappedPaneId : Option PaneId) (actingClientId : ClientId) : Outcome :=
  let isSourceTabClosing := preparedPlacement.sourceTree.isNone
  let sourceMovingClientIds := listMovingClientIds session [sourcePaneId] actingClientId
  let swappedMovingClientIds := listSwappedMovingClientIds session actingClientId swappedPaneId
  let leftTabIds := (sourceMovingClientIds ++ swappedMovingClientIds).filterMap fun clientId =>
    (session.clients.get? clientId).map Client.activeTabId
  let sourceFocusedClientRects := (listFocusedClientRects session sourceTabId sourcePaneId).filter
    fun clientRect => !swappedMovingClientIds.contains clientRect.1
  let destinationFocusedClientRects := (listSwappedFocusedClientRects session destinationTabId swappedPaneId).filter
    fun clientRect => !sourceMovingClientIds.contains clientRect.1
  let installed := installCrossTabPlacement session sourceTabId destinationTabId sourcePaneId preparedPlacement
    swappedPaneId sourceMovingClientIds swappedMovingClientIds
  let solved := updateTabSolves installed.1 ((destinationTabId :: sourceTabId :: leftTabIds).filter
    fun tabId => !(isSourceTabClosing && tabId = sourceTabId))
  let sourceRepaired := repairPlacementSource solved.1 sourceTabId sourcePaneId isSourceTabClosing
    sourceFocusedClientRects
  let destinationRepaired := repairPlacementDestination sourceRepaired.1 destinationTabId
    destinationFocusedClientRects swappedPaneId
  let closed := closePlacementSource destinationRepaired.1 sourceTabId isSourceTabClosing
  (closed.1, installed.2 ++ solved.2 ++ sourceRepaired.2 ++ destinationRepaired.2 ++ closed.2)

def commitCrossTabPlacement (actingClientId : ClientId) : CommitResult :=
  match checkCrossTabPlacement session sourceTabId destinationTabId sourcePaneId preparedPlacement actingClientId with
  | .error placementCommitError => (.error placementCommitError, session)
  | .ok swappedPaneId =>
    let applied := applyCrossTabPlacement session sourceTabId destinationTabId sourcePaneId preparedPlacement
      swappedPaneId actingClientId
    (.ok applied.2, applied.1)

end Koshi.Sessions
