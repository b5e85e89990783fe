import Koshi.Base.MachineInt
import Koshi.Core.Action

/-!
# The tab bar

The columns of the tab bar row (`koshi-renderer/src/render/tabline.rs`): the session block at the left, the mode tag at
the right end with the tray button and the notification button before it, and the tabs in what is left, scrolled when
they do not all fit. Columns are `u16`.
-/

namespace Koshi.Renderer

open Base Koshi.Core

/-! ### Inputs -/

structure TabMetadata where
  tabName : String
  tabIndex : Nat
  isActive : Bool

structure NotificationButton where
  unreadEntryCount : Nat

structure Reconnecting where
  attempt : Nat
  retryInSeconds : Option Nat

structure TablineInputs where
  sessionName : String
  tabsMetadata : List TabMetadata
  lockMode : LockMode
  isMouseSelectionEnabled : Bool
  reconnecting : Option Reconnecting
  tablineOffset : Option Nat
  notificationButton : NotificationButton

/-- The row the tab bar is drawn in. -/
structure TablineArea where
  x : Nat
  width : Nat
  xBound : x ≤ u16Max

def TablineArea.right (tablineArea : TablineArea) : Nat := satAdd16 tablineArea.x tablineArea.width

/-! ### Texts -/

def koshiVersion : String := "0.7.0-pr.1"

def formatVersionBadgeText : String := "[v" ++ koshiVersion ++ "] "

def lockModeTag : LockMode → Option String
  | .normal => none
  | .locked => some "LOCK"
  | .panePlacement => some "PLACE PANE"
  | .paneMoveChoice => some "MOVE"
  | .floatingPaneMove => some "MOVE FLOAT"
  | .floatingPaneTray => some "TRAY"
  | .notificationCenter => some "NOTIFICATIONS"

def formatReconnectTag (reconnecting : Reconnecting) : String :=
  match reconnecting.retryInSeconds with
  | some retryInSeconds =>
    "RECONNECTING (attempt " ++ toString reconnecting.attempt ++ ", retry in " ++ toString retryInSeconds ++ "s)"
  | none => "RECONNECTING (attempt " ++ toString reconnecting.attempt ++ ", dialing)"

def buildModeTags (lockMode : LockMode) (isMouseSelectionEnabled : Bool) (reconnecting : Option Reconnecting) :
    String :=
  let modeTagLabels := (reconnecting.map formatReconnectTag).toList ++ (lockModeTag lockMode).toList ++
    if isMouseSelectionEnabled then ["SELECT"] else []
  if modeTagLabels.isEmpty then "BASE" else " · ".intercalate modeTagLabels

def formatRightBlockText (tablineInputs : TablineInputs) : String :=
  " " ++ buildModeTags tablineInputs.lockMode tablineInputs.isMouseSelectionEnabled tablineInputs.reconnecting ++ " "

def formatNotificationButtonText (notificationButton : NotificationButton) : String :=
  if notificationButton.unreadEntryCount = 0 then " ● "
  else if notificationButton.unreadEntryCount ≤ 99 then " ●" ++ toString notificationButton.unreadEntryCount ++ " "
  else " ●99+ "

def getTabTextBlocks (tabMetadata : TabMetadata) : String × String :=
  (" #" ++ toString (tabMetadata.tabIndex + 1) ++ " ", " " ++ tabMetadata.tabName ++ " ")

/-! ### The layout -/

def tablineArrowWidth : Nat := 1

def floatingPaneTrayButtonColumnCount : Nat := 3

structure VisibleTabSpan where
  tabMetadataIndex : Nat
  startColumn : Nat
  columnCount : Nat

structure TablineLayout where
  sessionBlockWidth : Nat
  rightBlockStartColumn : Nat
  floatingPaneTrayButtonColumn : Option Nat
  /-- The first column, and the one after the last. -/
  notificationButtonColumns : Option (Nat × Nat)
  tabStripEndColumn : Nat
  firstVisibleTabIndex : Nat
  visibleTabSpans : List VisibleTabSpan
  leftScrollArrowColumn : Option Nat
  rightScrollArrowColumn : Option Nat

def packVisibleTabs (tabColumnCounts : List Nat)
    (firstVisibleTabIndex visibleTabsStartColumn visibleTabsEndColumn : Nat) :
    List VisibleTabSpan :=
  packFrom firstVisibleTabIndex visibleTabsStartColumn (tabColumnCounts.drop firstVisibleTabIndex)
where
  packFrom (tabMetadataIndex startColumn : Nat) : List Nat → List VisibleTabSpan
    | [] => []
    | columnCount :: tabColumnCounts =>
      if startColumn + columnCount > visibleTabsEndColumn then []
      else
        ⟨tabMetadataIndex, startColumn, columnCount⟩ ::
          packFrom (tabMetadataIndex + 1) (satAdd16 (satAdd16 startColumn columnCount) 1) tabColumnCounts

def isActiveTabVisible (tabColumnCounts : List Nat)
    (activeTabIndex visibleTabsStartColumn visibleTabsEndColumn firstVisibleTabIndex : Nat) : Bool :=
  (packVisibleTabs tabColumnCounts firstVisibleTabIndex visibleTabsStartColumn visibleTabsEndColumn).any
    (·.tabMetadataIndex = activeTabIndex)

def findFirstVisibleTabIndex (tabColumnCounts : List Nat)
    (activeTabIndex visibleTabsStartColumn visibleTabsEndColumn : Nat) : Nat :=
  if isActiveTabVisible tabColumnCounts activeTabIndex visibleTabsStartColumn visibleTabsEndColumn 0 then 0
  else searchDown activeTabIndex
where
  searchDown : Nat → Nat
    | 0 => 0
    | firstVisibleTabIndex + 1 =>
      if isActiveTabVisible tabColumnCounts activeTabIndex visibleTabsStartColumn visibleTabsEndColumn
        firstVisibleTabIndex then searchDown firstVisibleTabIndex
      else firstVisibleTabIndex + 1

def findFloatingPaneTrayButtonColumn (tablineArea : TablineArea) (rightBlockStartColumn : Nat) : Option Nat :=
  if floatingPaneTrayButtonColumnCount ≤ rightBlockStartColumn - tablineArea.x then
    some (rightBlockStartColumn - floatingPaneTrayButtonColumnCount)
  else none

section

-- the cells of a text's graphemes, summed
variable (countSpanCells : String → Nat)

def getTextWidth (text : String) : Nat := min (countSpanCells text) u16Max

def computeRightBlockStartColumn (tablineInputs : TablineInputs) (tablineArea : TablineArea) : Nat :=
  max (tablineArea.right - getTextWidth countSpanCells (formatRightBlockText tablineInputs)) tablineArea.x

def findNotificationButtonColumns (notificationButton : NotificationButton) (tablineArea : TablineArea)
    (buttonEndColumn : Nat) : Option (Nat × Nat) :=
  let buttonColumnCount := getTextWidth countSpanCells (formatNotificationButtonText notificationButton)
  if buttonColumnCount ≤ buttonEndColumn - tablineArea.x then some (buttonEndColumn - buttonColumnCount,
    buttonEndColumn)
  else none

/-- The cells of the session block: with the version badge where both fit. -/
def buildSessionBlock (sessionName : String) (sessionBlockRoom : Nat) : Nat :=
  let sessionNameWidth := getTextWidth countSpanCells (" " ++ sessionName ++ " ")
  let combinedWidth := satAdd16 sessionNameWidth (getTextWidth countSpanCells formatVersionBadgeText)
  if combinedWidth ≤ sessionBlockRoom then combinedWidth else sessionNameWidth

def computeTabColumnCounts (tabsMetadata : List TabMetadata) : List Nat :=
  tabsMetadata.map fun tabMetadata =>
    let (tabIndexText, tabNameText) := getTabTextBlocks tabMetadata
    satAdd16 (getTextWidth countSpanCells tabIndexText) (getTextWidth countSpanCells tabNameText)

def findActiveTabIndex (tabsMetadata : List TabMetadata) : Nat := (tabsMetadata.findIdx? (·.isActive)).getD 0

def solveTablineLayout (tablineInputs : TablineInputs) (tablineArea : TablineArea) : TablineLayout :=
  let rightBlockStartColumn := computeRightBlockStartColumn countSpanCells tablineInputs tablineArea
  let floatingPaneTrayButtonColumn := findFloatingPaneTrayButtonColumn tablineArea rightBlockStartColumn
  let notificationButtonColumns := floatingPaneTrayButtonColumn.bind
    (findNotificationButtonColumns countSpanCells tablineInputs.notificationButton tablineArea)
  let tabStripEndColumn :=
    ((notificationButtonColumns.map (·.1)).or floatingPaneTrayButtonColumn).getD rightBlockStartColumn
  let sessionBlockRoom := tabStripEndColumn - tablineArea.x
  let cellCount := buildSessionBlock countSpanCells tablineInputs.sessionName sessionBlockRoom
  let sessionBlockWidth := min cellCount sessionBlockRoom
  let tabStripStartColumn := satAdd16 (satAdd16 tablineArea.x sessionBlockWidth) 1
  let tabCount := tablineInputs.tabsMetadata.length
  let emptyLayout : TablineLayout := {
    sessionBlockWidth, rightBlockStartColumn, floatingPaneTrayButtonColumn, notificationButtonColumns, tabStripEndColumn
    firstVisibleTabIndex := 0
    visibleTabSpans := []
    leftScrollArrowColumn := none
    rightScrollArrowColumn := none }
  if tabCount = 0 ∨ tabStripStartColumn ≥ tabStripEndColumn then emptyLayout
  else
    let tabColumnCounts := computeTabColumnCounts countSpanCells tablineInputs.tabsMetadata
    let unscrolledVisibleTabSpans := packVisibleTabs tabColumnCounts 0 tabStripStartColumn tabStripEndColumn
    if unscrolledVisibleTabSpans.length =
        tabCount then { emptyLayout with visibleTabSpans := unscrolledVisibleTabSpans }
    else
      -- one cell on each side is kept for an arrow, drawn or not
      let visibleTabsStartColumn := satAdd16 tabStripStartColumn tablineArrowWidth
      let visibleTabsEndColumn := tabStripEndColumn - tablineArrowWidth
      if visibleTabsStartColumn ≥ visibleTabsEndColumn then emptyLayout
      else
        let firstVisibleTabIndex :=
          match tablineInputs.tablineOffset with
          | some peekedTabIndex => min peekedTabIndex (tabCount - 1)
          | none => findFirstVisibleTabIndex tabColumnCounts (findActiveTabIndex tablineInputs.tabsMetadata)
              visibleTabsStartColumn visibleTabsEndColumn
        let visibleTabSpans :=
          packVisibleTabs tabColumnCounts firstVisibleTabIndex visibleTabsStartColumn visibleTabsEndColumn
        let afterWindowTabIndex := firstVisibleTabIndex + visibleTabSpans.length
        { emptyLayout with
          firstVisibleTabIndex
          visibleTabSpans
          leftScrollArrowColumn := if firstVisibleTabIndex > 0 then some tabStripStartColumn else none
          rightScrollArrowColumn :=
            if afterWindowTabIndex < tabCount then some (tabStripEndColumn - tablineArrowWidth) else none }

end

end Koshi.Renderer
