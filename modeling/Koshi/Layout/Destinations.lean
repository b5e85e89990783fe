import Koshi.Layout.Placement
import Koshi.Layout.View

/-!
# Listing the destinations of a placement

`list_placement_destinations` of `koshi-layout/src/placement.rs`: from a solved layout, every slot a swap or a stack
may target and every span an insertion may split.
-/

namespace Koshi.Layout

open Base Koshi.Core

structure TargetPaneSlot where
  paneId : PaneId
  slotRect : Rect
  deriving DecidableEq, Repr

structure InsertionSpan where
  anchor : PanePlacementAnchor
  spanRect : Rect
  deriving DecidableEq, Repr

structure PlacementDestinations where
  targetPaneSlots : List TargetPaneSlot
  insertionSpans : List InsertionSpan
  deriving DecidableEq, Repr

def computeRightEdge (paneRect : Rect) : Nat := satAdd16 paneRect.origin.column paneRect.size.columnCount

def computeBottomEdge (paneRect : Rect) : Nat := satAdd16 paneRect.origin.row paneRect.size.rowCount

structure BoundingEdges where
  leftEdge : Nat
  topEdge : Nat
  rightEdge : Nat
  bottomEdge : Nat

/-- The edges around one rectangle. -/
def BoundingEdges.fromRect (rect : Rect) : BoundingEdges :=
  ⟨rect.origin.column, rect.origin.row, computeRightEdge rect, computeBottomEdge rect⟩

/-- The edges moved out around another rectangle. -/
def BoundingEdges.expand (edges : BoundingEdges) (rect : Rect) : BoundingEdges where
  leftEdge := min edges.leftEdge rect.origin.column
  topEdge := min edges.topEdge rect.origin.row
  rightEdge := max edges.rightEdge (computeRightEdge rect)
  bottomEdge := max edges.bottomEdge (computeBottomEdge rect)

/-- The smallest rectangle covering every nonempty rectangle. -/
def computeBoundingRect (rects : List Rect) : Option Rect :=
  match rects.filter (!·.isEmpty) with
  | [] => none
  | firstRect :: nonEmptyRects =>
    let edges := nonEmptyRects.foldl BoundingEdges.expand (.fromRect firstRect)
    some ⟨⟨edges.leftEdge, edges.topEdge⟩, ⟨edges.rightEdge - edges.leftEdge, edges.bottomEdge - edges.topEdge⟩⟩

structure InsertionSpanWalk where
  sourcePaneId : PaneId
  layoutSolve : LayoutSolve
  /-- Every leaf of the tree, sorted. -/
  allPaneIds : List PaneId
  paneSpans : List InsertionSpan
  groupSpans : List InsertionSpan
  listedGroupPaneIdSets : List (List PaneId)

namespace InsertionSpanWalk

/-- The rect of a pane, the last one where the solve lists several. -/
def findPaneRect (spanWalk : InsertionSpanWalk) (paneId : PaneId) : Option Rect :=
  spanWalk.layoutSolve.paneRects.reverse.lookup paneId

/-- Lists `paneId` when it is not the source and shows its own content. -/
def collectPaneSpan (spanWalk : InsertionSpanWalk) (paneId : PaneId) : InsertionSpanWalk :=
  if paneId = spanWalk.sourcePaneId then spanWalk
  else
    match spanWalk.findPaneRect paneId with
    | none => spanWalk
    | some paneRect =>
      if isContentVisible paneId paneRect spanWalk.layoutSolve.stackHeaders then
        { spanWalk with paneSpans := spanWalk.paneSpans ++ [⟨.pane paneId, paneRect⟩] }
      else spanWalk

/-- Lists `groupPaneIds` when it holds two or more leaves, is not the whole tree, repeats no listed group, has no
suppressed member, and its members cover cells. -/
def collectGroupSpan (spanWalk : InsertionSpanWalk) (groupPaneIds : List PaneId) : InsertionSpanWalk :=
  let sortedGroupPaneIds := sortPaneIds groupPaneIds
  if groupPaneIds.length < 2 ∨ sortedGroupPaneIds = spanWalk.allPaneIds ∨
      sortedGroupPaneIds ∈ spanWalk.listedGroupPaneIdSets ∨
      groupPaneIds.any (spanWalk.layoutSolve.suppressedPaneIds.contains ·) = true then spanWalk
  else
    match computeBoundingRect (groupPaneIds.filterMap spanWalk.findPaneRect) with
    | none => spanWalk
    | some spanRect => { spanWalk with
        groupSpans := spanWalk.groupSpans ++ [⟨.group groupPaneIds, spanRect⟩]
        listedGroupPaneIdSets := spanWalk.listedGroupPaneIdSets ++ [sortedGroupPaneIds] }

mutual

/-- Visits a node and its subtree in pre-order. `isInsideStack` when some ancestor of the node is a stack. -/
def collectInsertionSpans (spanWalk : InsertionSpanWalk) (isInsideStack : Bool) : LayoutNode → InsertionSpanWalk
  | .pane paneId => if !isInsideStack then spanWalk.collectPaneSpan paneId else spanWalk
  | .split ⟨direction, children, weights, activeChildIndex⟩ =>
    let spanWalk :=
      if !isInsideStack then
        spanWalk.collectGroupSpan (LayoutNode.split ⟨direction, children, weights, activeChildIndex⟩).listLeafPaneIds
      else spanWalk
    collectChildSpans spanWalk (isInsideStack || direction = .stacked) children

def collectChildSpans (spanWalk : InsertionSpanWalk) (isChildInsideStack : Bool) : List LayoutNode → InsertionSpanWalk
  | [] => spanWalk
  | child :: children =>
    collectChildSpans (collectInsertionSpans spanWalk isChildInsideStack child) isChildInsideStack children

end

end InsertionSpanWalk

/-- Lists the destinations `sourcePaneId` may move to in `layoutTree`, solved as `layoutSolve` over `tabRect`. -/
def listPlacementDestinations (layoutTree : LayoutNode) (layoutSolve : LayoutSolve) (tabRect : Rect)
    (sourcePaneId : PaneId) : PlacementDestinations :=
  let targetPaneSlots := (layoutSolve.paneRects.filter fun entry => entry.1 ≠ sourcePaneId ∧ !entry.2.isEmpty).map
    fun entry => TargetPaneSlot.mk entry.1 entry.2
  let allPaneIds := sortPaneIds layoutTree.listLeafPaneIds
  let hasOtherPane := allPaneIds.any (· ≠ sourcePaneId)
  let spanWalk := InsertionSpanWalk.collectInsertionSpans
    ⟨sourcePaneId, layoutSolve, allPaneIds, [], [], []⟩ false layoutTree
  { targetPaneSlots
    insertionSpans := spanWalk.paneSpans ++ spanWalk.groupSpans ++ if hasOtherPane then [⟨.tab, tabRect⟩] else [] }

/-- Lists the destinations in `layoutTree` as one client draws it: each stack shows the member its focus history
gives. -/
def listShownPlacementDestinations (layoutTree : LayoutNode) (focusHistory : List PaneId) (tabSize : Size)
    (paneSizing : PaneSizing) (sourcePaneId : PaneId) : PlacementDestinations :=
  let tabRect := Rect.fromSizeAtOrigin tabSize
  let drawnLayoutTree := (layoutTree.buildShownLayoutTree focusHistory).getD layoutTree
  let layoutSolve := solveLayoutWithSizing drawnLayoutTree tabRect paneSizing
  listPlacementDestinations drawnLayoutTree layoutSolve tabRect sourcePaneId

end Koshi.Layout
