import Koshi.Layout.Tree

/-!
# The geometry solver

A layout tree and a tab rectangle in, exact pane rectangles out (`koshi-layout/src/solver.rs`). Along a
split axis the children claim cells in passes: shares, sum repair, preferred targets, resize deltas, sum
repair, floors. A loop over child indices is a fold over `List.range`, with the mutated slice as the
folded state.
-/

namespace Koshi.Layout

open Base Koshi.Core

/-- The smallest content size of a pane: two columns by one row. -/
def minPaneSize : Size := ⟨2, 1⟩

/-- The smallest content size of a leaf pane and the blank cells between two children of one directional
split. -/
structure PaneSizing where
  minimumSize : Size
  gapCellCount : Nat
  deriving DecidableEq, Repr

def PaneSizing.default : PaneSizing := ⟨minPaneSize, 0⟩

/-- The one-row strip standing in for a collapsed stack member. -/
structure StackHeader where
  paneId : PaneId
  headerRect : Rect
  memberIndex : Nat
  memberCount : Nat
  deriving DecidableEq, Repr

/-- The solved placement for one tree over one tab rectangle. -/
structure LayoutSolve where
  paneRects : List (PaneId × Rect)
  suppressedPaneIds : List PaneId
  isEveryPaneSuppressed : Bool
  stackHeaders : List StackHeader
  deriving DecidableEq, Repr

/-- Accumulators threaded through the solve recursion. -/
structure LayoutSolveState where
  paneSizing : PaneSizing
  paneRects : List (PaneId × Rect)
  suppressedPaneIds : List PaneId
  stackHeaders : List StackHeader
  deriving DecidableEq, Repr

namespace LayoutSolveState

def fromPaneSizing (paneSizing : PaneSizing) : LayoutSolveState := ⟨paneSizing, [], [], []⟩

/-- `isEveryPaneSuppressed` is set when some pane was suppressed and every rect is empty. -/
def intoLayoutSolve (solveState : LayoutSolveState) : LayoutSolve where
  paneRects := solveState.paneRects
  suppressedPaneIds := solveState.suppressedPaneIds
  isEveryPaneSuppressed :=
    !solveState.suppressedPaneIds.isEmpty && solveState.paneRects.all fun paneRect => paneRect.2.isEmpty
  stackHeaders := solveState.stackHeaders

end LayoutSolveState

/-! ## Minimum sizes -/

/-- The cells a pane's border takes from its box. -/
def paneBorderSize : Size := ⟨2, 2⟩

/-- The smallest box of one leaf pane whose content is `contentMinimumSize`. -/
def computeBorderInclusiveMinimum (contentMinimumSize : Size) : RequiredSize :=
  .fromSizeSum contentMinimumSize paneBorderSize

/-- The two counts ordered along the split axis, then across it. -/
def splitAxisAndCrossCellCounts (columnCount rowCount : Nat) (isHorizontalSplit : Bool) : Nat × Nat :=
  if isHorizontalSplit then (columnCount, rowCount) else (rowCount, columnCount)

/-- The floor a weight declares: a `minimum` primary or the `minimumCellCount` overlay. -/
def getWeightFloor (sizeWeight : SizeWeight) : Nat :=
  let primaryFloor := match sizeWeight.primaryConstraint with
    | .minimum minimumCellCount => minimumCellCount
    | _ => 0
  max primaryFloor (sizeWeight.minimumCellCount.getD 0)

/-- The floor for one child slot: the larger of the subtree's own minimum and the floor its weight
declares. A missing weight declares no floor. -/
def computeChildFloor (splitNode : SplitNode LayoutNode) (childIndex subtreeAxisMinimum : Nat) : Nat :=
  max subtreeAxisMinimum ((splitNode.weights[childIndex]?.map getWeightFloor).getD 0)

/-- One child of a directional split's minimum: its floor is summed along the split axis, its minimum
across it is maximized. -/
def directionalMinimumStep (splitNode : SplitNode LayoutNode) : Nat × Nat → RequiredSize × Nat → Nat × Nat
  | (splitAxisCellCount, crossAxisCellCount), (childMinimumSize, childIndex) =>
    let (axisMinimum, crossMinimum) := splitAxisAndCrossCellCounts childMinimumSize.columnCount
      childMinimumSize.rowCount (splitNode.direction = .horizontal)
    (satAdd32 splitAxisCellCount (computeChildFloor splitNode childIndex axisMinimum),
      max crossAxisCellCount crossMinimum)

/-- A directional split's minimum from its children's minimums, with one gap between each pair of
children. -/
def computeDirectionalMinimumSize (splitNode : SplitNode LayoutNode) (childMinimumSizes : List RequiredSize)
    (paneSizing : PaneSizing) : RequiredSize :=
  let (splitAxisCellCount, crossAxisCellCount) :=
    childMinimumSizes.zipIdx.foldl (directionalMinimumStep splitNode) (0, 0)
  let gapCount := tryU32OrMax (splitNode.children.length - 1)
  let gapCellTotal := satMul32 paneSizing.gapCellCount gapCount
  let splitAxisCellCount := satAdd32 splitAxisCellCount gapCellTotal
  if splitNode.direction = .horizontal then ⟨splitAxisCellCount, crossAxisCellCount⟩
  else ⟨crossAxisCellCount, splitAxisCellCount⟩

def stackMinimumStep (activeMemberIndex : Nat) : Nat × Nat → RequiredSize × Nat → Nat × Nat
  | (maximumColumnCount, activeRowCount), (childMinimumSize, childIndex) =>
    (max maximumColumnCount childMinimumSize.columnCount,
      if childIndex = activeMemberIndex then childMinimumSize.rowCount else activeRowCount)

/-- A stack's minimum from its members' minimums: its widest member by one header row per collapsed
member plus the active member's rows. -/
def computeStackMinimumSizeFrom (splitNode : SplitNode LayoutNode)
    (childMinimumSizes : List RequiredSize) : RequiredSize :=
  let (maximumColumnCount, activeRowCount) :=
    childMinimumSizes.zipIdx.foldl (stackMinimumStep splitNode.getActiveChildIndex) (0, 0)
  let headerRowCount := tryU32OrMax (splitNode.children.length - 1)
  ⟨maximumColumnCount, satAdd32 headerRowCount activeRowCount⟩

mutual

/-- The smallest rectangle this subtree can be solved into. -/
def computeMinimumSize (paneSizing : PaneSizing) : LayoutNode → RequiredSize
  | .pane _ => computeBorderInclusiveMinimum paneSizing.minimumSize
  | .split ⟨direction, children, weights, activeChildIndex⟩ =>
    let childMinimumSizes := computeMinimumSizes paneSizing children
    match direction with
    | .stacked => computeStackMinimumSizeFrom ⟨.stacked, children, weights, activeChildIndex⟩ childMinimumSizes
    | direction => computeDirectionalMinimumSize ⟨direction, children, weights, activeChildIndex⟩
        childMinimumSizes paneSizing

def computeMinimumSizes (paneSizing : PaneSizing) : List LayoutNode → List RequiredSize
  | [] => []
  | child :: children => computeMinimumSize paneSizing child :: computeMinimumSizes paneSizing children

end

/-- The smallest rectangle a stack can be solved into. -/
def computeStackMinimumSize (splitNode : SplitNode LayoutNode) (paneSizing : PaneSizing) : RequiredSize :=
  computeStackMinimumSizeFrom splitNode (computeMinimumSizes paneSizing splitNode.children)

/-- Every pane of `layoutTree` can be placed inside `layoutRect` at minimum size. -/
def isLayoutWithinRect (layoutTree : LayoutNode) (layoutRect : Rect) (paneSizing : PaneSizing) : Bool :=
  (computeMinimumSize paneSizing layoutTree).canFitInside layoutRect.size

def isLeafWithinMinimum (rect : Rect) (paneSizing : PaneSizing) : Bool :=
  (computeBorderInclusiveMinimum paneSizing.minimumSize).canFitInside rect.size

/-! ## Distribution along one axis -/

/-- Cuts `excessCellCount` cells from the front of a list, each entry toward zero. -/
def trimCellCounts : List Nat → Nat → List Nat
  | [], _ => []
  | cellCount :: cellCounts, excessCellCount =>
    let trimmedCellCount := min excessCellCount cellCount
    let remainingExcess := excessCellCount - trimmedCellCount
    (cellCount - trimmedCellCount) ::
      (if remainingExcess = 0 then cellCounts else trimCellCounts cellCounts remainingExcess)

/-- Forces the counts to sum to `availableCellCount`: a shortfall goes to the last child, an excess is
trimmed from the trailing children toward zero. -/
def repairCellCountSum (childCellCounts : List Nat) (availableCellCount : Nat) : List Nat :=
  let totalCellCount := childCellCounts.sum
  if totalCellCount < availableCellCount then
    childCellCounts.modify (childCellCounts.length - 1) (· + asU16 (availableCellCount - totalCellCount))
  else if totalCellCount > availableCellCount then
    (trimCellCounts childCellCounts.reverse (totalCellCount - availableCellCount)).reverse
  else childCellCounts

def claimFixedStep : List Nat × Nat → SizeWeight × Nat → List Nat × Nat
  | (childCellCounts, remainingCellCount), (weight, childIndex) =>
    match weight.primaryConstraint with
    | .fixed fixedCellCount =>
      let claimedCellCount := min fixedCellCount remainingCellCount
      (childCellCounts.set childIndex claimedCellCount, remainingCellCount - claimedCellCount)
    | _ => (childCellCounts, remainingCellCount)

/-- The second pass of the shares: a percent child claims its share of the whole axis, never more than
remain. -/
def claimPercentStep (availableCellCount : Nat) : List Nat × Nat → SizeWeight × Nat → List Nat × Nat
  | (childCellCounts, remainingCellCount), (weight, childIndex) =>
    match weight.primaryConstraint with
    | .percent percentValue =>
      let requestedCellCount := computePercentCellCount availableCellCount percentValue
      let claimedCellCount := min requestedCellCount remainingCellCount
      (childCellCounts.set childIndex claimedCellCount, remainingCellCount - claimedCellCount)
    | _ => (childCellCounts, remainingCellCount)

/-- The flexible children with their weights; `minimum` and `preferred` flex with weight `1`. -/
def listFlexibleChildWeightPairs (weights : List SizeWeight) : List (Nat × Nat) :=
  weights.zipIdx.filterMap fun (sizeWeight, childIndex) =>
    match sizeWeight.primaryConstraint with
    | .flex flexWeight => some (childIndex, flexWeight)
    | .minimum _ | .preferred _ => some (childIndex, 1)
    | .fixed _ | .percent _ => none

/-- The third pass of the shares: a flexible child gets its part of the pool, rounded down. The state is
the counts and the cells assigned so far. -/
def shareFlexibleStep (flexibleCellPool totalFlexibleWeight : Nat) : List Nat × Nat → Nat × Nat → List Nat × Nat
  | (childCellCounts, assignedCellCount), (childIndex, flexWeight) =>
    -- `checked_div(..).unwrap_or(0)`: division by a zero total gives `0`, as it does on `Nat`
    let shareCellCount := asU16 (flexibleCellPool * flexWeight / totalFlexibleWeight)
    (childCellCounts.set childIndex shareCellCount, assignedCellCount + shareCellCount)

/-- One cell that flooring left over goes to this child. -/
def addLeftoverStep (childCellCounts : List Nat) (pair : Nat × Nat) : List Nat :=
  childCellCounts.modify pair.1 (· + 1)

/-- Each child's share before any target, resize delta or floor: fixed sizes first, then percentages of
the whole axis, then the flexible children by weight, leftovers to the trailing ones. -/
def computeShareCellCounts (weights : List SizeWeight) (availableCellCount : Nat) : List Nat :=
  let claims := weights.zipIdx.foldl claimFixedStep (List.replicate weights.length 0, availableCellCount)
  let (childCellCounts, remainingCellCount) :=
    weights.zipIdx.foldl (claimPercentStep availableCellCount) claims
  let flexibleChildWeightPairs := listFlexibleChildWeightPairs weights
  let totalFlexibleWeight := (flexibleChildWeightPairs.map (·.2)).sum
  if flexibleChildWeightPairs.isEmpty then childCellCounts
  else
    let (childCellCounts, assignedCellCount) := flexibleChildWeightPairs.foldl
      (shareFlexibleStep remainingCellCount totalFlexibleWeight) (childCellCounts, 0)
    let leftoverCellCount := remainingCellCount - assignedCellCount
    (flexibleChildWeightPairs.reverse.take leftoverCellCount).foldl addLeftoverStep childCellCounts

def applyResizeDeltaStep (availableCellCount : Nat) (childCellCounts : List Nat) : SizeWeight × Nat → List Nat
  | (weight, childIndex) =>
    let adjustedCellCount := (childCellCounts.getD childIndex 0 : Int) + weight.resizeDelta
    childCellCounts.set childIndex (min (max adjustedCellCount 0) availableCellCount).toNat

/-- Adds each child's `resizeDelta`, clamps to `0..=availableCellCount`, then repairs the sum. -/
def applyResizeDeltas (childCellCounts : List Nat) (weights : List SizeWeight) (availableCellCount : Nat) : List Nat :=
  let childCellCounts := weights.zipIdx.foldl (applyResizeDeltaStep availableCellCount) childCellCounts
  repairCellCountSum childCellCounts availableCellCount

/-- This weight may give up or take cells during adjustment. -/
def isFlexible (weight : SizeWeight) : Bool :=
  match weight.primaryConstraint with
  | .flex _ | .minimum _ | .preferred _ => true
  | _ => false

/-- The target a child aims for when slack allows. -/
def getPreferredCellCount (weight : SizeWeight) : Option Nat :=
  weight.preferredCellCount <|> match weight.primaryConstraint with
    | .preferred preferredCellCount => some preferredCellCount
    | _ => none

/-- Who may give up cells in `takeDonorCellCount`. -/
inductive DonorPool where
  | flexibleOnly
  | allChildren
  deriving DecidableEq, Repr

/-- One donor: gives up to what is still needed, keeping its floor. The state is the counts and the cells
taken so far. -/
def takeDonorStep (weights : List SizeWeight) (floors : List Nat) (neededCellCount skippedChildIndex : Nat)
    (isFlexibleDonorPass : Bool) :
    List Nat × Nat → Nat → List Nat × Nat
  | (childCellCounts, takenCellCount), childIndex =>
    if takenCellCount = neededCellCount then (childCellCounts, takenCellCount)
    else if childIndex = skippedChildIndex ∨ isFlexible (weights.getD childIndex .default) ≠ isFlexibleDonorPass then
      (childCellCounts, takenCellCount)
    else
      let spareCellCount := childCellCounts.getD childIndex 0 - floors.getD childIndex 0
      let givenCellCount := min spareCellCount (neededCellCount - takenCellCount)
      (childCellCounts.modify childIndex (· - givenCellCount), takenCellCount + givenCellCount)

/-- Takes up to `neededCellCount` cells from siblings other than `skippedChildIndex`, trailing-first:
flexible donors first, the others only when the pool allows it. -/
def takeDonorCellCount (childCellCounts : List Nat) (weights : List SizeWeight) (floors : List Nat)
    (neededCellCount skippedChildIndex : Nat) (donorPool : DonorPool) : List Nat × Nat :=
  let donorIndexes := (List.range childCellCounts.length).reverse
  let taken := donorIndexes.foldl
    (takeDonorStep weights floors neededCellCount skippedChildIndex true) (childCellCounts, 0)
  if donorPool = .flexibleOnly then taken
  else donorIndexes.foldl (takeDonorStep weights floors neededCellCount skippedChildIndex false) taken

/-- The trailing-most flexible sibling of `childIndex`. -/
def findSurplusReceiver (weights : List SizeWeight) (childIndex : Nat) : Option Nat :=
  (List.range weights.length).reverse.find? fun candidateChildIndex =>
    candidateChildIndex ≠ childIndex && isFlexible (weights.getD candidateChildIndex .default)

/-- Pulls one preferred child toward its target using only slack. -/
def applyPreferredCellCount (weights : List SizeWeight) (floors : List Nat) (childCellCounts : List Nat)
    (childIndex : Nat) : List Nat :=
  match getPreferredCellCount (weights.getD childIndex .default) with
  | none => childCellCounts
  | some targetCellCount =>
    let currentCellCount := childCellCounts.getD childIndex 0
    if currentCellCount > targetCellCount then
      let surplusCellCount := currentCellCount - max targetCellCount (floors.getD childIndex 0)
      match findSurplusReceiver weights childIndex with
      | some receiverChildIndex =>
        (childCellCounts.modify childIndex (· - surplusCellCount)).modify receiverChildIndex
          (satAdd16 · surplusCellCount)
      | none => childCellCounts
    else if currentCellCount < targetCellCount then
      let neededCellCount := targetCellCount - currentCellCount
      let (childCellCounts, takenCellCount) := takeDonorCellCount childCellCounts weights floors
        neededCellCount childIndex .flexibleOnly
      childCellCounts.modify childIndex (satAdd16 · takenCellCount)
    else childCellCounts

/-- Pulls each preferred child toward its target, in child order. -/
def applyPreferredCellCounts (childCellCounts : List Nat) (weights : List SizeWeight) (floors : List Nat) : List Nat :=
  (List.range weights.length).foldl (applyPreferredCellCount weights floors) childCellCounts

/-- Raises one child to its floor, funding the deficit from siblings above theirs. -/
def clampCellCountToFloor (weights : List SizeWeight) (floors : List Nat) (childCellCounts : List Nat)
    (childIndex : Nat) : List Nat :=
  let floorCellCount := floors.getD childIndex 0
  let currentCellCount := childCellCounts.getD childIndex 0
  if currentCellCount < floorCellCount then
    let (childCellCounts, takenCellCount) := takeDonorCellCount childCellCounts weights floors
      (floorCellCount - currentCellCount) childIndex .allChildren
    childCellCounts.modify childIndex (· + takenCellCount)
  else childCellCounts

/-- Raises every child to its floor; does nothing when the floors do not fit. -/
def clampCellCountsToFloors (childCellCounts : List Nat) (weights : List SizeWeight) (floors : List Nat)
    (availableCellCount : Nat) : List Nat :=
  if floors.sum > availableCellCount then childCellCounts
  else (List.range childCellCounts.length).foldl (clampCellCountToFloor weights floors) childCellCounts

/-- Splits `availableCellCount` cells among children according to their weights. -/
def distributeAxisCells (weights : List SizeWeight) (floors : List Nat) (availableCellCount : Nat) : List Nat :=
  let childCellCounts := computeShareCellCounts weights availableCellCount
  let childCellCounts := repairCellCountSum childCellCounts availableCellCount
  let childCellCounts := applyPreferredCellCounts childCellCounts weights floors
  let childCellCounts := applyResizeDeltas childCellCounts weights availableCellCount
  clampCellCountsToFloors childCellCounts weights floors availableCellCount

/-! ## Child rectangles -/

/-- The children of a directional split that keep a rect inside its split rect, and the cells they
share. -/
structure KeptChildren where
  isChildKept : List Bool
  keptWeights : List SizeWeight
  keptFloors : List Nat
  sharedCellCount : Nat
  deriving DecidableEq, Repr

structure KeptState where
  isChildKept : List Bool
  keptWeights : List SizeWeight
  keptFloors : List Nat
  canKeepChildren : Bool
  claimedCellCount : Nat

/-- One child of `listKeptChildren`, given its minimum. A child whose cross minimum exceeds the rect drops
on its own; the first one whose floor does not fit drops every later one too. -/
def keepChildStep (splitNode : SplitNode LayoutNode) (splitRect : Rect) (paneSizing : PaneSizing)
    (keptState : KeptState) : RequiredSize × Nat → KeptState
  | (childMinimumSize, childIndex) =>
    let isHorizontalSplit := splitNode.direction = .horizontal
    let (availableCellCount, availableCrossAxisCellCount) := splitAxisAndCrossCellCounts
      splitRect.size.columnCount splitRect.size.rowCount isHorizontalSplit
    let (axisMinimum, crossMinimum) := splitAxisAndCrossCellCounts childMinimumSize.columnCount
      childMinimumSize.rowCount isHorizontalSplit
    let childFloor := computeChildFloor splitNode childIndex axisMinimum
    if crossMinimum > availableCrossAxisCellCount then
      { keptState with isChildKept := keptState.isChildKept ++ [false] }
    else
      let leadingGapCellCount := if keptState.keptWeights.isEmpty then 0 else paneSizing.gapCellCount
      let claimedCellCountWithChild :=
        satAdd32 (satAdd32 keptState.claimedCellCount leadingGapCellCount) childFloor
      if keptState.canKeepChildren ∧ claimedCellCountWithChild ≤ availableCellCount then
        { isChildKept := keptState.isChildKept ++ [true]
          keptWeights := keptState.keptWeights ++ [splitNode.weights.getD childIndex .default]
          keptFloors := keptState.keptFloors ++ [childFloor]
          canKeepChildren := keptState.canKeepChildren
          claimedCellCount := claimedCellCountWithChild }
      else
        { keptState with isChildKept := keptState.isChildKept ++ [false], canKeepChildren := false }

def listKeptChildren (splitNode : SplitNode LayoutNode) (splitRect : Rect) (paneSizing : PaneSizing) :
    KeptChildren :=
  let isHorizontalSplit := splitNode.direction = .horizontal
  let (availableCellCount, _) := splitAxisAndCrossCellCounts splitRect.size.columnCount
    splitRect.size.rowCount isHorizontalSplit
  let keptState := (computeMinimumSizes paneSizing splitNode.children).zipIdx.foldl
    (keepChildStep splitNode splitRect paneSizing) ⟨[], [], [], true, 0⟩
  let gapCellTotal := satMul16 paneSizing.gapCellCount (asU16 (keptState.keptWeights.length - 1))
  { isChildKept := keptState.isChildKept
    keptWeights := keptState.keptWeights
    keptFloors := keptState.keptFloors
    sharedCellCount := availableCellCount - gapCellTotal }

def buildAxisChildRect (isHorizontalSplit : Bool) (splitRect : Rect) (axisOffset childCellCount : Nat) : Rect :=
  if isHorizontalSplit then
    ⟨⟨satAdd16 splitRect.origin.column axisOffset, splitRect.origin.row⟩, ⟨childCellCount, splitRect.size.rowCount⟩⟩
  else
    ⟨⟨splitRect.origin.column, satAdd16 splitRect.origin.row axisOffset⟩, ⟨splitRect.size.columnCount, childCellCount⟩⟩

/-- Lays the rects in child order; a suppressed child sits at its position with zero area. -/
def layChildRects (isHorizontalSplit : Bool) (splitRect : Rect) (gapCellCount : Nat) :
    List Bool → List Nat → Nat → List Rect
  | [], _, _ => []
  | false :: isChildKept, childCellCounts, axisOffset =>
    .buildEmptyAtOrigin :: layChildRects isHorizontalSplit splitRect gapCellCount isChildKept childCellCounts axisOffset
  | true :: isChildKept, childCellCounts, axisOffset =>
    let childCellCount := childCellCounts.headD 0
    buildAxisChildRect isHorizontalSplit splitRect axisOffset childCellCount ::
      layChildRects isHorizontalSplit splitRect gapCellCount isChildKept childCellCounts.tail
        (satAdd16 (satAdd16 axisOffset childCellCount) gapCellCount)

/-- The rectangle each child of a directional split receives, in child order. -/
def computeDirectionalChildRects (splitNode : SplitNode LayoutNode) (splitRect : Rect)
    (paneSizing : PaneSizing) : List Rect :=
  let keptChildren := listKeptChildren splitNode splitRect paneSizing
  let childCellCounts := distributeAxisCells keptChildren.keptWeights keptChildren.keptFloors
    keptChildren.sharedCellCount
  layChildRects (splitNode.direction = .horizontal) splitRect paneSizing.gapCellCount
    keptChildren.isChildKept childCellCounts 0

def layMemberRects (splitRect : Rect) (activeMemberIndex activeRowCount : Nat) :
    (memberIndex remainingCount rowOffset : Nat) → List Rect
  | _, 0, _ => []
  | memberIndex, remainingCount + 1, rowOffset =>
    let memberRowCount := if memberIndex = activeMemberIndex then activeRowCount else 1
    ⟨⟨splitRect.origin.column, rowOffset⟩, ⟨splitRect.size.columnCount, memberRowCount⟩⟩ ::
      layMemberRects splitRect activeMemberIndex activeRowCount (memberIndex + 1) remainingCount
        (satAdd16 rowOffset memberRowCount)

/-- The rectangle each child of a stacked split receives, in child order: all empty when the stack does
not fit. -/
def computeStackedChildRects (splitNode : SplitNode LayoutNode) (splitRect : Rect)
    (paneSizing : PaneSizing) : List Rect :=
  let memberCount := splitNode.children.length
  if memberCount = 0 then []
  else if !(computeStackMinimumSize splitNode paneSizing).canFitInside splitRect.size then
    List.replicate memberCount .buildEmptyAtOrigin
  else
    let headerRowCount := asU16 (memberCount - 1)
    let activeRowCount := splitRect.size.rowCount - headerRowCount
    layMemberRects splitRect splitNode.getActiveChildIndex activeRowCount 0 memberCount splitRect.origin.row

/-! ## The solve recursion -/

/-- Zeroes out a whole subtree and records every leaf as suppressed. -/
def suppressLayoutSubtree (layoutNode : LayoutNode) (solveState : LayoutSolveState) : LayoutSolveState :=
  layoutNode.listLeafPaneIds.foldl (fun solveState paneId =>
    { solveState with
      paneRects := solveState.paneRects ++ [(paneId, .buildEmptyAtOrigin)]
      suppressedPaneIds := solveState.suppressedPaneIds ++ [paneId] }) solveState

/-- Places one collapsed stack member on its header strip: its first leaf stands on the strip, its other
leaves solve to zero area and are not listed as suppressed. -/
def emitStackHeader (child : LayoutNode) (headerRect : Rect) (memberIndex memberCount : Nat)
    (solveState : LayoutSolveState) : LayoutSolveState :=
  match child.listLeafPaneIds with
  | [] => solveState
  | firstPaneId :: remainingPaneIds =>
    { solveState with
      paneRects := solveState.paneRects ++ (firstPaneId, headerRect) ::
        remainingPaneIds.map fun paneId => (paneId, .buildEmptyAtOrigin)
      stackHeaders := solveState.stackHeaders ++ [⟨firstPaneId, headerRect, memberIndex, memberCount⟩] }

mutual

def solveLayoutNode (layoutRect : Rect) (solveState : LayoutSolveState) : LayoutNode → LayoutSolveState
  | .pane paneId =>
    if isLeafWithinMinimum layoutRect solveState.paneSizing then
      { solveState with paneRects := solveState.paneRects ++ [(paneId, layoutRect)] }
    else
      { solveState with
        paneRects := solveState.paneRects ++ [(paneId, .buildEmptyAtOrigin)]
        suppressedPaneIds := solveState.suppressedPaneIds ++ [paneId] }
  | .split ⟨direction, children, weights, activeChildIndex⟩ =>
    let splitNode : SplitNode LayoutNode := ⟨direction, children, weights, activeChildIndex⟩
    match direction with
    | .stacked => solveStackedChildren splitNode.getActiveChildIndex children.length 0
        (computeStackedChildRects splitNode layoutRect solveState.paneSizing) solveState children
    | _ => solveDirectionalChildren
        (computeDirectionalChildRects splitNode layoutRect solveState.paneSizing) solveState children

/-- The loop of `solve_directional_split` over children and their rects. -/
def solveDirectionalChildren (childRects : List Rect) (solveState : LayoutSolveState) :
    List LayoutNode → LayoutSolveState
  | [] => solveState
  | child :: children =>
    match childRects with
    | [] => solveState
    | childRect :: childRects =>
      let solveState := if childRect.isEmpty then suppressLayoutSubtree child solveState
        else solveLayoutNode childRect solveState child
      solveDirectionalChildren childRects solveState children

/-- The loop of `solve_stacked_split` over members and their rects. -/
def solveStackedChildren (activeMemberIndex memberCount memberIndex : Nat) (memberRects : List Rect)
    (solveState : LayoutSolveState) : List LayoutNode → LayoutSolveState
  | [] => solveState
  | child :: children =>
    match memberRects with
    | [] => solveState
    | childRect :: memberRects =>
      let solveState := if childRect.isEmpty then suppressLayoutSubtree child solveState
        else if memberIndex = activeMemberIndex then solveLayoutNode childRect solveState child
        else emitStackHeader child childRect memberIndex memberCount solveState
      solveStackedChildren activeMemberIndex memberCount (memberIndex + 1) memberRects solveState children

end

def solveLayoutWithSizing (layoutTree : LayoutNode) (tabRect : Rect) (paneSizing : PaneSizing) : LayoutSolve :=
  (solveLayoutNode tabRect (.fromPaneSizing paneSizing) layoutTree).intoLayoutSolve

end Koshi.Layout
