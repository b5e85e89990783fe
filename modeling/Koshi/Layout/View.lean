import Koshi.Layout.Solver

/-!
# One client's view of a tree

A client solves a shared tree its own way: zoomed on one pane (`koshi-layout/src/mode.rs`), or tiled with each
stack showing the member its focus history gives (`tree.rs`, `placement.rs`). When a focused pane leaves, the
panes such a view draws are ranked as its heirs (`focus.rs`).
-/

namespace Koshi.Layout

open Koshi.Core

/-- How one client's view of a tree is solved. -/
inductive LayoutMode where
  | tiled
  /-- `focusedPaneId` fills the whole tab. -/
  | fullscreen (focusedPaneId : PaneId)
  deriving DecidableEq, Repr

def LayoutSolve.findPaneRect (layoutSolve : LayoutSolve) (paneId : PaneId) : Option Rect :=
  (layoutSolve.paneRects.find? (·.1 = paneId)).map (·.2)

def LayoutSolve.default : LayoutSolve := ⟨[], [], false, []⟩

/-! ### Stacks as a focus history shows them -/

namespace LayoutNode

mutual

def hasStackShowingInactiveMember (focusHistory : List PaneId) : LayoutNode → Bool
  | .pane _ => false
  | .split ⟨direction, children, weights, activeChildIndex⟩ =>
    let splitNode : SplitNode LayoutNode := ⟨direction, children, weights, activeChildIndex⟩
    (direction = .stacked && splitNode.getShownChildIndex focusHistory ≠ splitNode.getActiveChildIndex) ||
      anyChildShowsInactiveMember focusHistory children

def anyChildShowsInactiveMember (focusHistory : List PaneId) : List LayoutNode → Bool
  | [] => false
  | child :: children =>
    child.hasStackShowingInactiveMember focusHistory || anyChildShowsInactiveMember focusHistory children

end

mutual

def applyShownStackMembers (focusHistory : List PaneId) : LayoutNode → LayoutNode
  | .pane paneId => .pane paneId
  | .split ⟨direction, children, weights, activeChildIndex⟩ =>
    .split ⟨direction, applyShownStackMembersInChildren focusHistory children, weights,
      if direction = .stacked then
        SplitNode.getShownChildIndex ⟨direction, children, weights, activeChildIndex⟩ focusHistory
      else activeChildIndex⟩

def applyShownStackMembersInChildren (focusHistory : List PaneId) : List LayoutNode → List LayoutNode
  | [] => []
  | child :: children =>
    child.applyShownStackMembers focusHistory :: applyShownStackMembersInChildren focusHistory children

end

/-- The tree with every stack's active member set to the member it shows for `focusHistory`; `none` when every
stack already shows its active member. -/
def buildShownLayoutTree (layoutNode : LayoutNode) (focusHistory : List PaneId) : Option LayoutNode :=
  if layoutNode.hasStackShowingInactiveMember focusHistory then
    some (layoutNode.applyShownStackMembers focusHistory)
  else none

theorem applyShownInChildren_eq (focusHistory : List PaneId) (children : List LayoutNode) :
    applyShownStackMembersInChildren focusHistory children = children.map (applyShownStackMembers focusHistory) := by
  induction children with
  | nil => rfl
  | cons child children ih => rw [applyShownStackMembersInChildren, ih, List.map_cons]

@[simp] theorem listLeafPaneIds_applyShown (focusHistory : List PaneId) (layoutNode : LayoutNode) :
    (layoutNode.applyShownStackMembers focusHistory).listLeafPaneIds = layoutNode.listLeafPaneIds := by
  induction layoutNode with
  | pane paneId => rfl
  | split splitNode ih =>
    obtain ⟨direction, children, weights, activeChildIndex⟩ := splitNode
    rw [applyShownStackMembers, listLeafPaneIds_split, listLeafPaneIds_split, applyShownInChildren_eq, List.flatMap_map]
    exact List.flatMap_congr ih

end LayoutNode

/-! ### Solves of a view -/

/-- One leaf of a zoomed tree: the focused pane takes the whole rect, or is suppressed when it does not fit;
every other pane has zero area. -/
def zoomLeafStep (focusedPaneId : PaneId) (tabRect : Rect) (solveState : LayoutSolveState) (paneId : PaneId) :
    LayoutSolveState :=
  if paneId ≠ focusedPaneId then
    { solveState with paneRects := solveState.paneRects ++ [(paneId, .buildEmptyAtOrigin)] }
  else if !isLeafWithinMinimum tabRect solveState.paneSizing then
    { solveState with
      paneRects := solveState.paneRects ++ [(paneId, .buildEmptyAtOrigin)]
      suppressedPaneIds := solveState.suppressedPaneIds ++ [paneId] }
  else { solveState with paneRects := solveState.paneRects ++ [(paneId, tabRect)] }

def solveLayoutWithMode (layoutTree : LayoutNode) (layoutMode : LayoutMode) (tabRect : Rect)
    (paneSizing : PaneSizing) : LayoutSolve :=
  match layoutMode with
  | .tiled => solveLayoutWithSizing layoutTree tabRect paneSizing
  | .fullscreen focusedPaneId =>
    if !layoutTree.hasPane focusedPaneId then solveLayoutWithSizing layoutTree tabRect paneSizing
    else (layoutTree.listLeafPaneIds.foldl (zoomLeafStep focusedPaneId tabRect)
      (.fromPaneSizing paneSizing)).intoLayoutSolve

/-- The solve a client draws a tab with once it focuses `placedPaneId` there. -/
structure PlacedTabSolve where
  focusHistory : List PaneId
  layoutSolve : LayoutSolve
  deriving DecidableEq, Repr

def solvePlacedTab (layoutTree : LayoutNode) (placedPaneId : PaneId) (focusHistory : List PaneId) (tabSize : Size)
    (paneSizing : PaneSizing) : PlacedTabSolve :=
  let leafPaneIds := layoutTree.listLeafPaneIds
  let placedFocusHistory := (placedPaneId :: focusHistory.filter (· ≠ placedPaneId)).filter (leafPaneIds.contains ·)
  let shownLayoutTree := layoutTree.buildShownLayoutTree placedFocusHistory
  { focusHistory := placedFocusHistory
    layoutSolve := solveLayoutWithSizing (shownLayoutTree.getD layoutTree) (.fromSizeAtOrigin tabSize) paneSizing }

/-! ### Focus candidates -/

def isContentVisible (paneId : PaneId) (paneRect : Rect) (stackHeaders : List StackHeader) : Bool :=
  !paneRect.isEmpty && !stackHeaders.any (·.paneId = paneId)

/-- Focus targets after a removal. -/
structure FocusCandidates where
  spatialNeighborPaneId : Option PaneId
  absorbedSpacePaneId : Option PaneId
  layoutOrderPaneIds : List PaneId
  deriving DecidableEq, Repr

def computeDoubledCenter (paneRect : Rect) : Nat × Nat :=
  (2 * paneRect.origin.column + paneRect.size.columnCount, 2 * paneRect.origin.row + paneRect.size.rowCount)

/-- Squared distance between two rect centers, in doubled coordinates. -/
def computeCenterDistance (removedPaneRect candidatePaneRect : Rect) : Nat :=
  let removedCenter := computeDoubledCenter removedPaneRect
  let candidateCenter := computeDoubledCenter candidatePaneRect
  let columnDistance : Int := removedCenter.1 - candidateCenter.1
  let rowDistance : Int := removedCenter.2 - candidateCenter.2
  (columnDistance * columnDistance + rowDistance * rowDistance).toNat

/-- One candidate of the spatial neighbor: the nearest center wins, the earlier pane on a tie. -/
def nearestPaneStep (removedPaneRect : Rect) (nearest : Option (PaneId × Nat)) (paneRect : PaneId × Rect) :
    Option (PaneId × Nat) :=
  let distance := computeCenterDistance removedPaneRect paneRect.2
  match nearest with
  | some (nearestPaneId, nearestDistance) =>
    if distance < nearestDistance then some (paneRect.1, distance) else some (nearestPaneId, nearestDistance)
  | none => some (paneRect.1, distance)

/-- One candidate of the absorbed space: the largest overlap wins, the earlier pane on a tie. -/
def absorbedPaneStep (removedPaneRect : Rect) (largest : Option (PaneId × Nat)) (paneRect : PaneId × Rect) :
    Option (PaneId × Nat) :=
  match paneRect.2.computeIntersection removedPaneRect with
  | none => largest
  | some overlapRect =>
    let absorbedCellArea := overlapRect.size.computeCellCount
    match largest with
    | some (largestPaneId, largestCellArea) =>
      if absorbedCellArea > largestCellArea then some (paneRect.1, absorbedCellArea)
      else some (largestPaneId, largestCellArea)
    | none => some (paneRect.1, absorbedCellArea)

/-- Ranks the panes of a solve as focus targets for a pane that occupied `removedPaneRect`. -/
def computeFocusCandidates (removedPaneRect : Rect) (survivingPaneRects : List (PaneId × Rect))
    (stackHeaders : List StackHeader) : FocusCandidates :=
  let visiblePaneRects := survivingPaneRects.filter fun paneRect =>
    isContentVisible paneRect.1 paneRect.2 stackHeaders
  { spatialNeighborPaneId := (visiblePaneRects.foldl (nearestPaneStep removedPaneRect) none).map (·.1)
    absorbedSpacePaneId := (visiblePaneRects.foldl (absorbedPaneStep removedPaneRect) none).map (·.1)
    layoutOrderPaneIds := visiblePaneRects.map (·.1) }

end Koshi.Layout
