import Koshi.Sessions.Area

/-!
# Attached clients

The view state of one client (`koshi-session/src/client.rs`): its active tab, the panes it focused in each tab,
its zooms, and its view of every floating pane. A mutator is a function from the client before to the client
after; what it returns besides is its own function.
-/

namespace Koshi.Sessions

open Base Koshi.Core Layout

/-- The smallest outer size of a floating pane: one pane box under the titlebar strip. -/
def minFloatingPaneSize : Size :=
  ⟨minPaneSize.columnCount + paneBorderSize.columnCount,
    minPaneSize.rowCount + paneBorderSize.rowCount + floatingTitlebarStripRowCount⟩

/-- The pane region of a client that reported none: the viewport less two chrome rows. -/
def computeDefaultPaneAreaSize (viewportSize : Size) : Size := ⟨viewportSize.columnCount, viewportSize.rowCount - 2⟩

structure FloatingPaneView where
  position : FloatingPanePosition
  isMinimized : Bool
  /-- The panes this client focused inside it, newest first. -/
  focusHistory : List PaneId
  zoomedPaneId : Option PaneId
  deriving DecidableEq, Repr

/-- How this client solves the floating pane's tree. -/
def FloatingPaneView.getLayoutMode (floatingPaneView : FloatingPaneView) : LayoutMode :=
  match floatingPaneView.zoomedPaneId with
  | some zoomedPaneId => .fullscreen zoomedPaneId
  | none => .tiled

structure TiledPaneFocusChange where
  previousPaneId : Option PaneId
  minimizedFloatingPaneIds : List FloatingPaneId
  deriving DecidableEq, Repr

def placeFloatingPane (position : FloatingPanePosition) (size : Size) (cascadeIndex : Nat) (clientViewport : Size) :
    Rect :=
  let freeColumnCount := clientViewport.columnCount - size.columnCount
  let freeRowCount := clientViewport.rowCount - size.rowCount
  let unclampedTopLeftCell : Point := match position with
    | .moved topLeftCell | .pinned topLeftCell => topLeftCell
    | .default =>
      let centeredCell := clientViewport.computeCenteredOrigin size
      let rightMargin := freeColumnCount - centeredCell.column
      let bottomMargin := freeRowCount - centeredCell.row
      let maxCascadeSteps := min (rightMargin / 2) bottomMargin
      let cascadeStep := asU16 (cascadeIndex % (maxCascadeSteps + 1))
      ⟨centeredCell.column + 2 * cascadeStep, centeredCell.row + cascadeStep⟩
  Rect.computeMovedInside ⟨unclampedTopLeftCell, size⟩ clientViewport

structure Client where
  clientId : ClientId
  sessionId : SessionId
  viewportSize : Size
  paneArea : Option PaneArea
  activeTabId : TabId
  /-- The panes this client focused in each tab, newest first. -/
  focusHistoryByTabId : OrdMap TabId (List PaneId)
  zoomedPaneIdByTabId : OrdMap TabId PaneId
  floatingPaneViewByFloatingPaneId : OrdMap FloatingPaneId FloatingPaneView
  /-- The floating panes this client shows, oldest first. -/
  shownFloatingPaneIds : List FloatingPaneId
  focusedFloatingPaneId : Option FloatingPaneId

namespace Client

/-- A newly attached client. -/
def fromAttachment (clientId : ClientId) (sessionId : SessionId) (viewportSize : Size) (paneArea : Option PaneArea)
    (activeTabId : TabId) : Client where
  clientId := clientId
  sessionId := sessionId
  viewportSize := viewportSize
  paneArea := paneArea
  activeTabId := activeTabId
  focusHistoryByTabId := .empty
  zoomedPaneIdByTabId := .empty
  floatingPaneViewByFloatingPaneId := .empty
  shownFloatingPaneIds := []
  focusedFloatingPaneId := none

/-! ### Reads -/

variable (client : Client) (tabId : TabId)

/-- The panes this client focused in `tabId`, newest first. -/
def listFocusHistory : List PaneId := (client.focusHistoryByTabId.get? tabId).getD []

def getFocusedPaneId : Option PaneId := (client.listFocusHistory tabId).head?

variable (floatingPaneId : FloatingPaneId)

def getFloatingPaneView : Option FloatingPaneView :=
  client.floatingPaneViewByFloatingPaneId.get? floatingPaneId

/-- The first pane of this client's focus history inside `floatingPaneId`. -/
def findFloatingPaneInputPaneId : Option PaneId :=
  (client.getFloatingPaneView floatingPaneId).bind (·.focusHistory.head?)

/-- The first pane of this client's focus history inside its focused floating pane. -/
def findFocusedFloatingPaneInputPaneId : Option PaneId :=
  client.focusedFloatingPaneId.bind client.findFloatingPaneInputPaneId

/-- The pane that takes this client's input. -/
def getActiveFocusedPaneId : Option PaneId :=
  client.findFocusedFloatingPaneInputPaneId.or (client.getFocusedPaneId client.activeTabId)

def getLayoutMode : LayoutMode :=
  match client.zoomedPaneIdByTabId.get? tabId with
  | some focusedPaneId => .fullscreen focusedPaneId
  | none => .tiled

/-- The pane region this client's tab is sized against; `none` for a starving client. -/
def getPaneArea : Option Size :=
  match client.paneArea with
  | none => some (computeDefaultPaneAreaSize client.viewportSize)
  | some (.reported size) => some (size.computeMinimumAxes client.viewportSize)
  | some .starving => none

/-- The pane region this client positions floating panes in. -/
def getFloatingViewport : Option Size :=
  client.getPaneArea.filter fun paneArea => minFloatingPaneSize.canFitInside (computeFloatingPaneSizeCap paneArea)

def isFloatingPaneShown : Bool :=
  (client.getFloatingPaneView floatingPaneId).any (!·.isMinimized)

/-! ### Focus and zoom in a tab -/

def clearZoom : Client :=
  { client with zoomedPaneIdByTabId := client.zoomedPaneIdByTabId.erase tabId }

def modifyFloatingPaneView (f : FloatingPaneView → FloatingPaneView) : Client :=
  { client with
    floatingPaneViewByFloatingPaneId := client.floatingPaneViewByFloatingPaneId.modify floatingPaneId f }

variable (paneId : PaneId)

/-- Leaves every zoom on `paneId`, in tabs and in floating panes. -/
def clearZoomOfPane : Client :=
  { client with
    zoomedPaneIdByTabId := client.zoomedPaneIdByTabId.filter fun _ zoomedPaneId => zoomedPaneId ≠ paneId
    floatingPaneViewByFloatingPaneId := client.floatingPaneViewByFloatingPaneId.mapValues fun _ floatingPaneView =>
      if floatingPaneView.zoomedPaneId = some paneId then { floatingPaneView with zoomedPaneId := none }
      else floatingPaneView }

def updateFocusedPane : Client :=
  { client with
    zoomedPaneIdByTabId := client.zoomedPaneIdByTabId.modify tabId fun _ => paneId
    focusHistoryByTabId := client.focusHistoryByTabId.insert tabId
      (paneId :: (client.listFocusHistory tabId).filter (· ≠ paneId)) }

def removePaneFromFocusHistory : Client :=
  match client.focusHistoryByTabId.get? tabId with
  | none => client
  | some focusHistory =>
    let focusHistory := focusHistory.filter (· ≠ paneId)
    { client with
      focusHistoryByTabId := if focusHistory = [] then client.focusHistoryByTabId.erase tabId
        else client.focusHistoryByTabId.insert tabId focusHistory }

def insertPanesIntoFocusHistory (historyIndex : Nat) (paneIds : List PaneId) :
    Client :=
  let focusHistory := client.listFocusHistory tabId
  let insertedPaneIds := paneIds.filter fun paneId => !focusHistory.contains paneId
  if insertedPaneIds = [] then client
  else { client with
    focusHistoryByTabId := client.focusHistoryByTabId.insert tabId
      (focusHistory.take historyIndex ++ insertedPaneIds ++ focusHistory.drop historyIndex) }

/-- Forgets every pane focused in `tabId` and leaves any zoom there. -/
def clearFocusHistory : Client :=
  { client with
    focusHistoryByTabId := client.focusHistoryByTabId.erase tabId
    zoomedPaneIdByTabId := client.zoomedPaneIdByTabId.erase tabId }

def updateActiveTabId : Client := { client with activeTabId := tabId }

/-! ### Floating panes -/

def addFloatingPaneView (floatingPane : FloatingPane) (position : FloatingPanePosition) : Client :=
  if client.floatingPaneViewByFloatingPaneId.contains floatingPane.floatingPaneId then client
  else { client with
    floatingPaneViewByFloatingPaneId := client.floatingPaneViewByFloatingPaneId.insert floatingPane.floatingPaneId
      { position
        isMinimized := true
        focusHistory := floatingPane.listPaneIds.take 1
        zoomedPaneId := none } }

/-- Shows and focuses `floatingPaneId`, above the other floating panes. -/
def focusFloatingPane : Client :=
  match client.getFloatingPaneView floatingPaneId with
  | none => client
  | some _ =>
    { client.modifyFloatingPaneView floatingPaneId fun floatingPaneView =>
        { floatingPaneView with isMinimized := false } with
      shownFloatingPaneIds := client.shownFloatingPaneIds.filter (· ≠ floatingPaneId) ++ [floatingPaneId]
      focusedFloatingPaneId := some floatingPaneId }

/-- Moves `paneId` to the front of the focus history inside `floatingPaneId`; a zoom there follows. -/
def updateFloatingPaneFocusedPane : Client :=
  client.modifyFloatingPaneView floatingPaneId fun floatingPaneView =>
    if floatingPaneView.focusHistory.head? = some paneId then floatingPaneView
    else { floatingPaneView with
      focusHistory := paneId :: floatingPaneView.focusHistory.filter (· ≠ paneId)
      zoomedPaneId := floatingPaneView.zoomedPaneId.map fun _ => paneId }

def removePaneFromFloatingPaneFocusHistory :
    Client :=
  client.modifyFloatingPaneView floatingPaneId fun floatingPaneView =>
    { floatingPaneView with focusHistory := floatingPaneView.focusHistory.filter (· ≠ paneId) }

/-- Takes `floatingPaneId` out of the shown ones; a floating focus on it moves to the newest still shown. -/
def removeShownFloatingPane : Client :=
  let shownFloatingPaneIds := client.shownFloatingPaneIds.filter (· ≠ floatingPaneId)
  { client with
    shownFloatingPaneIds
    focusedFloatingPaneId := if client.focusedFloatingPaneId = some floatingPaneId then shownFloatingPaneIds.getLast?
      else client.focusedFloatingPaneId }

/-- Minimizes every floating pane this client shows; it returns `shownFloatingPaneIds` before the call. -/
def minimizeShownFloatingPanes : Client :=
  { client with
    floatingPaneViewByFloatingPaneId :=
      client.floatingPaneViewByFloatingPaneId.mapValues fun floatingPaneId floatingPaneView =>
        if client.shownFloatingPaneIds.contains floatingPaneId then { floatingPaneView with isMinimized := true }
        else floatingPaneView
    shownFloatingPaneIds := []
    focusedFloatingPaneId := none }

def removeFloatingPaneView : Client :=
  removeShownFloatingPane
    { client with
      floatingPaneViewByFloatingPaneId := client.floatingPaneViewByFloatingPaneId.erase floatingPaneId }
    floatingPaneId

/-- Focuses `paneId` in `tabId`; in the active tab it also takes the input: every shown floating pane is
minimized. -/
def focusTiledPane : Client :=
  (if tabId = client.activeTabId then client.minimizeShownFloatingPanes else client).updateFocusedPane tabId paneId

def computeTiledPaneFocusChange : TiledPaneFocusChange :=
  if tabId = client.activeTabId then
    ⟨client.findFocusedFloatingPaneInputPaneId.or (client.getFocusedPaneId tabId), client.shownFloatingPaneIds⟩
  else ⟨client.getFocusedPaneId tabId, []⟩

end Client

end Koshi.Sessions
