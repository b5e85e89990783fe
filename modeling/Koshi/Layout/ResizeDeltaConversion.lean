import Koshi.Base.MachineInt
import Koshi.Layout.Solver

/-!
# Rewriting resize deltas for the current solve

A tree stored by an earlier release was laid out by a solve that applies each resize delta before the
preferred targets; the current one applies it after them (`koshi-layout/src/solver/resize_delta_conversion.rs`).
At a known rect each split is rewritten to the sizes the earlier solve gave. Without one, each preferred
child's delta is folded onto the sibling that takes its cells.
-/

namespace Koshi.Layout

open Base Koshi.Core

/-! ### The earlier solve -/

/-- The earlier solve of one axis: the resize deltas directly on the shares, then the preferred targets. -/
def distributeAxisCellsEarlier (weights : List SizeWeight) (floors : List Nat) (availableCellCount : Nat) : List Nat :=
  let earlierCellCounts := computeShareCellCounts weights availableCellCount
  let earlierCellCounts := applyResizeDeltas earlierCellCounts weights availableCellCount
  let earlierCellCounts := applyPreferredCellCounts earlierCellCounts weights floors
  clampCellCountsToFloors earlierCellCounts weights floors availableCellCount

section With

variable (distribute : List SizeWeight → List Nat → Nat → List Nat)

def computeDirectionalChildRectsWith (splitNode : SplitNode LayoutNode) (splitRect : Rect)
    (paneSizing : PaneSizing) : List Rect :=
  let keptChildren := listKeptChildren splitNode splitRect paneSizing
  let childCellCounts := distribute keptChildren.keptWeights keptChildren.keptFloors keptChildren.sharedCellCount
  layChildRects (splitNode.direction = .horizontal) splitRect paneSizing.gapCellCount
    keptChildren.isChildKept childCellCounts 0

mutual

/-- `solveLayoutNode` with another distribution along the axis of every split. -/
def solveLayoutNodeWith (layoutRect : Rect) (solveState : LayoutSolveState) : LayoutNode → LayoutSolveState
  | .pane paneId => solveLayoutNode layoutRect solveState (.pane paneId)
  | .split ⟨direction, children, weights, activeChildIndex⟩ =>
    let splitNode : SplitNode LayoutNode := ⟨direction, children, weights, activeChildIndex⟩
    match direction with
    | .stacked => solveStackedChildrenWith splitNode.getActiveChildIndex children.length 0
        (computeStackedChildRects splitNode layoutRect solveState.paneSizing) solveState children
    | _ => solveDirectionalChildrenWith
        (computeDirectionalChildRectsWith distribute splitNode layoutRect solveState.paneSizing) solveState children

def solveDirectionalChildrenWith (childRects : List Rect) (solveState : LayoutSolveState) :
    List LayoutNode → LayoutSolveState
  | [] => solveState
  | child :: children =>
    match childRects with
    | [] => solveState
    | childRect :: childRects =>
      let solveState := if childRect.isEmpty then suppressLayoutSubtree child solveState
        else solveLayoutNodeWith childRect solveState child
      solveDirectionalChildrenWith childRects solveState children

def solveStackedChildrenWith (activeMemberIndex memberCount memberIndex : Nat) (memberRects : List Rect)
    (solveState : LayoutSolveState) : List LayoutNode → LayoutSolveState
  | [] => solveState
  | child :: children =>
    match memberRects with
    | [] => solveState
    | childRect :: memberRects =>
      let solveState := if childRect.isEmpty then suppressLayoutSubtree child solveState
        else if memberIndex = activeMemberIndex then solveLayoutNodeWith childRect solveState child
        else emitStackHeader child childRect memberIndex memberCount solveState
      solveStackedChildrenWith activeMemberIndex memberCount (memberIndex + 1) memberRects solveState children

end

def solveLayoutWithSizingWith (layoutTree : LayoutNode) (tabRect : Rect) (paneSizing : PaneSizing) : LayoutSolve :=
  (solveLayoutNodeWith distribute tabRect (.fromPaneSizing paneSizing) layoutTree).intoLayoutSolve

end With

/-! ### The rewrite at a rect -/

/-- What the share and the preferred target of each child give, before any resize delta. -/
def computeTargetCellCounts (weights : List SizeWeight) (floors : List Nat) (availableCellCount : Nat) : List Nat :=
  let targetCellCounts := computeShareCellCounts weights availableCellCount
  let targetCellCounts := repairCellCountSum targetCellCounts availableCellCount
  applyPreferredCellCounts targetCellCounts weights floors

/-- Missing weights are added with the default share. -/
def padWeights (weights : List SizeWeight) (childCount : Nat) : List SizeWeight :=
  weights ++ List.replicate (childCount - weights.length) .default

def listKeptIndexes (isChildKept : List Bool) : List Nat :=
  isChildKept.zipIdx.filterMap fun (isKept, childIndex) => if isKept then some childIndex else none

/-- Writes one kept child's resize delta: the earlier size minus the target size. -/
def writeResizeDeltaStep (weights : List SizeWeight) (write : Nat × Nat × Nat) : List SizeWeight :=
  weights.modify write.1 fun weight =>
    { weight with resizeDelta := (write.2.1 : Int) - write.2.2 }

/-- Rewrites the resize delta of each child `splitNode` keeps inside `splitRect`. A split whose two solves
agree keeps its values. -/
def convertSplitResizeDeltas (splitNode : SplitNode LayoutNode) (splitRect : Rect) (paneSizing : PaneSizing) :
    SplitNode LayoutNode :=
  let keptChildren := listKeptChildren splitNode splitRect paneSizing
  let earlierCellCounts := distributeAxisCellsEarlier keptChildren.keptWeights keptChildren.keptFloors
    keptChildren.sharedCellCount
  if earlierCellCounts = distributeAxisCells keptChildren.keptWeights keptChildren.keptFloors
      keptChildren.sharedCellCount then splitNode
  else
    let targetCellCounts := computeTargetCellCounts keptChildren.keptWeights keptChildren.keptFloors
      keptChildren.sharedCellCount
    let keptChildIndexes := listKeptIndexes keptChildren.isChildKept
    { splitNode with
      weights := (keptChildIndexes.zip (earlierCellCounts.zip targetCellCounts)).foldl writeResizeDeltaStep
        (padWeights splitNode.weights splitNode.children.length) }

mutual

/-- Rewrites the resize deltas of a tree laid out over `tabRect`, split by split at the rect the rewritten
parent gives it. A child solved to no cells keeps every value in its subtree; every member of a stack is
rewritten at the rect of the shown one. -/
def convertResizeDeltasAtRect (paneSizing : PaneSizing) (tabRect : Rect) : LayoutNode → LayoutNode
  | .pane paneId => .pane paneId
  | .split ⟨direction, children, weights, activeChildIndex⟩ =>
    let splitNode : SplitNode LayoutNode := ⟨direction, children, weights, activeChildIndex⟩
    match direction with
    | .stacked =>
      match (computeStackedChildRects splitNode tabRect paneSizing)[splitNode.getActiveChildIndex]? with
      | none => .split splitNode
      | some shownMemberRect =>
        if shownMemberRect.isEmpty then .split splitNode
        else .split { splitNode with children := convertMembersAtRect paneSizing shownMemberRect children }
    | _ =>
      let splitNode := convertSplitResizeDeltas splitNode tabRect paneSizing
      .split { splitNode with
        children := convertChildrenAtRects paneSizing
          (computeDirectionalChildRects splitNode tabRect paneSizing) children }

/-- The loop over the children of a directional split and their rects. -/
def convertChildrenAtRects (paneSizing : PaneSizing) (childRects : List Rect) : List LayoutNode → List LayoutNode
  | [] => []
  | child :: children =>
    match childRects with
    | [] => child :: children
    | childRect :: childRects =>
      (if childRect.isEmpty then child else convertResizeDeltasAtRect paneSizing childRect child) ::
        convertChildrenAtRects paneSizing childRects children

/-- The loop over the members of a stack. -/
def convertMembersAtRect (paneSizing : PaneSizing) (shownMemberRect : Rect) : List LayoutNode → List LayoutNode
  | [] => []
  | member :: members =>
    convertResizeDeltasAtRect paneSizing shownMemberRect member ::
      convertMembersAtRect paneSizing shownMemberRect members

end

/-! ### The fold -/

/-- Moves the resize delta of the child at `childIndex`, when it has a preferred target, onto the
trailing-most flexible sibling; a child with no flexible sibling keeps its delta. -/
def foldChildResizeDelta (childCount : Nat) (weights : List SizeWeight) (childIndex : Nat) : List SizeWeight :=
  match weights[childIndex]? with
  | none => weights
  | some childWeight =>
    if (getPreferredCellCount childWeight).isNone then weights
    else
      let receiverChildIndex := (List.range childCount).reverse.find? fun siblingIndex =>
        siblingIndex ≠ childIndex && isFlexible (weights.getD siblingIndex .default)
      match receiverChildIndex with
      | none => weights
      | some receiverChildIndex =>
        let weights := if weights.length ≤ receiverChildIndex then padWeights weights childCount else weights
        (weights.modify childIndex ({ · with resizeDelta := 0 })).modify receiverChildIndex fun receiverWeight =>
          { receiverWeight with resizeDelta := satAddI32 receiverWeight.resizeDelta childWeight.resizeDelta }

/-- Moves the resize delta of each child with a preferred target, in child order. -/
def foldSplitPreferredResizeDeltas (splitNode : SplitNode LayoutNode) : SplitNode LayoutNode :=
  { splitNode with
    weights := (List.range splitNode.children.length).foldl
      (foldChildResizeDelta splitNode.children.length) splitNode.weights }

mutual

/-- The fold in every horizontal and vertical split of the tree, stack members included. -/
def foldPreferredResizeDeltas : LayoutNode → LayoutNode
  | .pane paneId => .pane paneId
  | .split ⟨direction, children, weights, activeChildIndex⟩ =>
    let splitNode : SplitNode LayoutNode := ⟨direction, children, weights, activeChildIndex⟩
    let splitNode := if direction ≠ .stacked then foldSplitPreferredResizeDeltas splitNode else splitNode
    .split { splitNode with children := foldChildrenPreferredResizeDeltas children }

def foldChildrenPreferredResizeDeltas : List LayoutNode → List LayoutNode
  | [] => []
  | child :: children => foldPreferredResizeDeltas child :: foldChildrenPreferredResizeDeltas children

end

end Koshi.Layout
