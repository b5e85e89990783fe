import Koshi.Layout.Path
import Koshi.Layout.ResizeDeltaConversion

/-!
# The resize transaction

One pane border moved by up to a signed cell count (`koshi-layout/src/resize.rs`): cells of resize offset go from one
sibling to the other, and a search finds how many of them move the border as far as asked. The source changes one copy
of the split for every count it tries; here each count is applied to the split the search starts from, as both offsets
are written from their starting values. A path found in the tree leads to a node of it, so the walks along such a path
have no failure.
-/

namespace Koshi.Layout

open Base Koshi.Core

inductive ResizeError where
  | paneNotFound (paneId : PaneId)
  /-- The pane touches the tree's outer edge on that side at every level. -/
  | noAdjacentBorder (paneId : PaneId) (direction : Direction)
  /-- The donating side holds no cell above its minimum size. -/
  | donorAtMinimumSize (paneId : PaneId) (direction : Direction) (isPaneGrowing : Bool)
  /-- The donating side has cells to give, and no offset tried moved the border. -/
  | borderHeld (paneId : PaneId) (direction : Direction) (isPaneGrowing : Bool)
  deriving DecidableEq, Repr

variable (splitNode : SplitNode LayoutNode)

/-- The floor of one child slot, from the child's own minimum and its weight. -/
def computeSlotFloor (childIndex : Nat) (isHorizontalSplit : Bool) (paneSizing : PaneSizing) : Nat :=
  let childMinimumSize := (splitNode.children[childIndex]?.map (computeMinimumSize paneSizing)).getD ⟨0, 0⟩
  let (axisMinimum, _) := splitAxisAndCrossCellCounts childMinimumSize.columnCount childMinimumSize.rowCount
    isHorizontalSplit
  computeChildFloor splitNode childIndex axisMinimum

def LayoutNode.getSplitAtPath (layoutNode : LayoutNode) (layoutPath : List Nat) : Option (SplitNode LayoutNode) :=
  match layoutNode.getNodeAtPath layoutPath with
  | some (.split splitNode) => some splitNode
  | _ => none

/-! ### The border of a pane -/

/-- How many splits along the path stand above the first stack whose path child is collapsed. -/
def countVisiblePathLength : LayoutNode → List Nat → Nat
  | _, [] => 0
  | .pane _, panePath => panePath.length
  | .split splitNode, childIndex :: panePath =>
    if splitNode.direction = .stacked ∧ childIndex ≠ splitNode.getActiveChildIndex then 0
    else match splitNode.children[childIndex]? with
      | none => 0
      | some child => countVisiblePathLength child panePath + 1

/-- The sibling on the `direction` side. -/
def findAdjacentChildIndex (direction : Direction) (childCount panePathChildIndex : Nat) : Option Nat :=
  match direction with
  | .left | .up => if panePathChildIndex = 0 then none else some (panePathChildIndex - 1)
  | .right | .down => if panePathChildIndex + 1 < childCount then some (panePathChildIndex + 1) else none

/-- The deepest ancestor split of `splitDirection` whose path child has a sibling on the `direction` side: its depth,
the path child's index and the sibling's index. -/
def findResizeBorder (layoutTree : LayoutNode) (panePath : List Nat) (splitDirection : SplitDirection)
    (direction : Direction) : Option (Nat × Nat × Nat) :=
  (List.range (countVisiblePathLength layoutTree panePath)).reverse.findSome? fun ancestorDepth =>
    match layoutTree.getSplitAtPath (panePath.take ancestorDepth) with
    | none => none
    | some splitNode =>
      if splitNode.direction ≠ splitDirection then none
      else
        let panePathChildIndex := panePath.getD ancestorDepth 0
        (findAdjacentChildIndex direction splitNode.children.length panePathChildIndex).map
          fun adjacentChildIndex => (ancestorDepth, panePathChildIndex, adjacentChildIndex)

def computeChildRect (splitRect : Rect) (paneSizing : PaneSizing) (childIndex : Nat) : Rect :=
  match splitNode.direction with
  | .horizontal | .vertical =>
    (computeDirectionalChildRects splitNode splitRect paneSizing).getD childIndex .buildEmptyAtOrigin
  | .stacked => (computeStackedChildRects splitNode splitRect paneSizing).getD childIndex .buildEmptyAtOrigin

def computeRectAtPath (paneSizing : PaneSizing) : LayoutNode → Rect → List Nat → Rect
  | _, currentLayoutNodeRect, [] => currentLayoutNodeRect
  | .pane _, currentLayoutNodeRect, _ :: _ => currentLayoutNodeRect
  | .split splitNode, currentLayoutNodeRect, childIndex :: panePath =>
    let childRect := computeChildRect splitNode currentLayoutNodeRect paneSizing childIndex
    match splitNode.children[childIndex]? with
    | none => childRect
    | some child => computeRectAtPath paneSizing child childRect panePath

/-- The border one resize moves: the split it belongs to, padded to a weight a child, the rect that split solves into
and the two siblings beside the border. -/
structure ResizeBorder where
  splitPath : List Nat
  splitNode : SplitNode LayoutNode
  splitRect : Rect
  paneSizing : PaneSizing
  isHorizontalSplit : Bool
  receivingChildIndex : Nat
  donatingChildIndex : Nat
  deriving Repr

/-- The border a resize of `paneId` toward `direction` moves, and which sibling gives the cells. -/
def resolveResizeBorder (layoutTree : LayoutNode) (layoutRect : Rect) (paneId : PaneId) (direction : Direction)
    (isPaneGrowing : Bool) (paneSizing : PaneSizing) : Except ResizeError ResizeBorder :=
  match layoutTree.findPanePath paneId with
  | none => .error (.paneNotFound paneId)
  | some panePath =>
    let splitDirection := computeSplitDirection direction
    match findResizeBorder layoutTree panePath splitDirection direction with
    | none => .error (.noAdjacentBorder paneId direction)
    | some (resizeSplitDepth, targetPaneChildIndex, adjacentChildIndex) =>
      let splitPath := panePath.take resizeSplitDepth
      let splitNode := (layoutTree.getSplitAtPath splitPath).getD ⟨splitDirection, [], [], 0⟩
      .ok {
        splitPath
        splitNode := { splitNode with weights := padWeights splitNode.weights splitNode.children.length }
        splitRect := computeRectAtPath paneSizing layoutTree layoutRect splitPath
        paneSizing
        isHorizontalSplit := splitDirection = .horizontal
        receivingChildIndex := if isPaneGrowing then targetPaneChildIndex else adjacentChildIndex
        donatingChildIndex := if isPaneGrowing then adjacentChildIndex else targetPaneChildIndex }

/-! ### Measuring a border -/

/-- Where the border stands at one added count. -/
structure BorderMeasure where
  /-- Cells the border moved from where it started, in the direction asked for. -/
  movedCellCount : Int
  /-- Cells the donor's solved size holds above its floor. -/
  spareCellCount : Nat
  deriving DecidableEq, Repr

/-- Added counts from `firstCount` to `lastCount`; none when the last is below the first. -/
structure OffsetWindow where
  firstCount : Int
  lastCount : Int
  deriving DecidableEq, Repr

namespace ResizeBorder

variable (border : ResizeBorder)

def donatingSlotFloor : Nat :=
  computeSlotFloor border.splitNode border.donatingChildIndex border.isHorizontalSplit border.paneSizing

/-- The border is the leading edge of whichever sibling comes second. -/
def borderChildIndex : Nat := max border.receivingChildIndex border.donatingChildIndex

def isBorderMovingForward : Bool := border.receivingChildIndex < border.donatingChildIndex

/-- The border's cell on the split axis, and the cells the donor holds above its floor. -/
def measureBorder : Nat × Nat :=
  let childRects := computeDirectionalChildRects splitNode border.splitRect border.paneSizing
  let borderRect := childRects.getD border.borderChildIndex .buildEmptyAtOrigin
  let donatingPaneRect := childRects.getD border.donatingChildIndex .buildEmptyAtOrigin
  let (borderCell, donatingCellCount) :=
    if border.isHorizontalSplit then (borderRect.origin.column, donatingPaneRect.size.columnCount)
    else (borderRect.origin.row, donatingPaneRect.size.rowCount)
  let spareCellCount :=
    if border.donatingSlotFloor ≤ u16Max then donatingCellCount - border.donatingSlotFloor else 0
  (borderCell, spareCellCount)

def startingReceivingResizeDelta : Int :=
  (border.splitNode.weights.getD border.receivingChildIndex .default).resizeDelta

def startingDonatingResizeDelta : Int :=
  (border.splitNode.weights.getD border.donatingChildIndex .default).resizeDelta

/-- The receiver gains `addedCellCount` cells of offset and the donor loses as many. -/
def setAddedCellCount (addedCellCount : Int) : SplitNode LayoutNode :=
  let receivingDelta := clampI32 (border.startingReceivingResizeDelta + addedCellCount)
  let donatingDelta := clampI32 (border.startingDonatingResizeDelta - addedCellCount)
  { border.splitNode with
    weights := (border.splitNode.weights.modify border.receivingChildIndex
      fun weight => { weight with resizeDelta := receivingDelta }).modify border.donatingChildIndex
        fun weight => { weight with resizeDelta := donatingDelta } }

/-- The measure of one added count against the split before the resize. -/
def measureAddedCellCount (addedCellCount : Int) : BorderMeasure :=
  let (startingBorderCell, _) := border.measureBorder border.splitNode
  let (borderCell, spareCellCount) := border.measureBorder (border.setAddedCellCount addedCellCount)
  let movedCellCount : Int :=
    if border.isBorderMovingForward then (borderCell : Int) - startingBorderCell
    else (startingBorderCell : Int) - borderCell
  ⟨movedCellCount, spareCellCount⟩

/-! ### The candidate counts -/

def axisCellCount : Int :=
  if border.isHorizontalSplit then border.splitRect.size.columnCount else border.splitRect.size.rowCount

/-- The counts at which the receiver's offset crosses the range in which an offset changes the solve. -/
def receivingOffsetWindow : OffsetWindow :=
  ⟨max (1 - border.axisCellCount - border.startingReceivingResizeDelta) 1,
    border.axisCellCount - border.startingReceivingResizeDelta⟩

/-- The same of the donor's offset. -/
def donatingOffsetWindow : OffsetWindow :=
  ⟨max (1 - border.axisCellCount + border.startingDonatingResizeDelta) 1,
    border.axisCellCount + border.startingDonatingResizeDelta⟩

def firstOffsetWindow : OffsetWindow :=
  if border.receivingOffsetWindow.firstCount ≤ border.donatingOffsetWindow.firstCount then
    border.receivingOffsetWindow
  else border.donatingOffsetWindow

def secondOffsetWindow : OffsetWindow :=
  if border.receivingOffsetWindow.firstCount ≤ border.donatingOffsetWindow.firstCount then
    border.donatingOffsetWindow
  else border.receivingOffsetWindow

def firstWindowLength : Int :=
  max (border.firstOffsetWindow.lastCount - border.firstOffsetWindow.firstCount + 1) 0

def secondWindowStart : Int :=
  max border.secondOffsetWindow.firstCount (border.firstOffsetWindow.lastCount + 1)

def secondWindowLength : Int := max (border.secondOffsetWindow.lastCount - border.secondWindowStart + 1) 0

def candidateCount : Int := border.firstWindowLength + border.secondWindowLength

/-- Candidate number `n`, counted from one: first the counts of the first window, then those of the second past it. -/
def getAddedCellCount (candidateNumber : Int) : Int :=
  if candidateNumber ≤ border.firstWindowLength then border.firstOffsetWindow.firstCount + candidateNumber - 1
  else border.secondWindowStart + candidateNumber - border.firstWindowLength - 1

def measureCandidate (candidateNumber : Int) : BorderMeasure :=
  border.measureAddedCellCount (border.getAddedCellCount candidateNumber)

end ResizeBorder

/-! ### The search -/

/-- The move stops here: the border moved the whole request, or the donor holds no spare cell. -/
def isMoveStopped (requestedMovedCellCount : Int) (borderMeasure : BorderMeasure) : Bool :=
  requestedMovedCellCount ≤ borderMeasure.movedCellCount || borderMeasure.spareCellCount = 0

section Search

variable (measureCandidate : Int → BorderMeasure)

/-- The loop of `findFirstCandidate`; `stepBound` bounds its steps. -/
def narrowCandidates (isFound : BorderMeasure → Bool) : (stepBound : Nat) → (lowestCandidateNumber
    highestCandidateNumber : Int) → (highestMeasure : BorderMeasure) → Int × BorderMeasure
  | 0, _, highestCandidateNumber, highestMeasure => (highestCandidateNumber, highestMeasure)
  | stepBound + 1, lowestCandidateNumber, highestCandidateNumber, highestMeasure =>
    if lowestCandidateNumber < highestCandidateNumber then
      let middleCandidateNumber := lowestCandidateNumber + (highestCandidateNumber - lowestCandidateNumber) / 2
      let middleMeasure := measureCandidate middleCandidateNumber
      if isFound middleMeasure then
        narrowCandidates isFound stepBound lowestCandidateNumber middleCandidateNumber middleMeasure
      else narrowCandidates isFound stepBound (middleCandidateNumber + 1) highestCandidateNumber highestMeasure
    else (highestCandidateNumber, highestMeasure)

/-- The first candidate of a range that is found, when its last one is. Every step drops a candidate of the range. -/
def findFirstCandidate (lowestCandidateNumber highestCandidateNumber : Int) (highestMeasure : BorderMeasure)
    (isFound : BorderMeasure → Bool) : Int × BorderMeasure :=
  narrowCandidates measureCandidate isFound (highestCandidateNumber - lowestCandidateNumber).toNat
    lowestCandidateNumber highestCandidateNumber highestMeasure

/-- The candidate at which the move stops, with its measure. -/
def findStoppingCandidate (requestedCellCount : Nat) (candidateCount : Int) : Int × BorderMeasure :=
  let isMoveStopped := isMoveStopped requestedCellCount
  let probedCandidateNumber := min (requestedCellCount : Int) candidateCount
  let probedMeasure := measureCandidate probedCandidateNumber
  if isMoveStopped probedMeasure then
    if 0 < probedMeasure.spareCellCount then (probedCandidateNumber, probedMeasure)
    else findFirstCandidate measureCandidate 1 probedCandidateNumber probedMeasure isMoveStopped
  else if probedCandidateNumber = candidateCount then (probedCandidateNumber, probedMeasure)
  else
    let lastMeasure := measureCandidate candidateCount
    if isMoveStopped lastMeasure then
      findFirstCandidate measureCandidate (probedCandidateNumber + 1) candidateCount lastMeasure isMoveStopped
    else (candidateCount, lastMeasure)

end Search

def ResizeBorder.selectAddedCellCount (border : ResizeBorder) (requestedCellCount : Nat) : Int × Nat :=
  let (_, startingSpareCellCount) := border.measureBorder border.splitNode
  if 0 < requestedCellCount ∧ 0 < startingSpareCellCount ∧ 0 < border.candidateCount then
    let (stoppingCandidateNumber, stoppingMeasure) :=
      findStoppingCandidate border.measureCandidate requestedCellCount border.candidateCount
    let stoppingMovedCellCount := stoppingMeasure.movedCellCount
    if 0 < stoppingMovedCellCount then
      let (firstCandidateNumber, _) := findFirstCandidate border.measureCandidate stoppingMovedCellCount
        stoppingCandidateNumber stoppingMeasure
        fun borderMeasure => stoppingMovedCellCount ≤ borderMeasure.movedCellCount
      (border.getAddedCellCount firstCandidateNumber, asU16 stoppingMovedCellCount.toNat)
    else (0, 0)
  else (0, 0)

/-- Moves the border of `paneId` on the `direction` side by up to `resizeCellDelta` cells: outward when it is
positive, inward when it is negative. -/
def resizeLayoutWithSizing (layoutTree : LayoutNode) (layoutRect : Rect) (paneId : PaneId) (direction : Direction)
    (resizeCellDelta : Int) (paneSizing : PaneSizing) : Except ResizeError (LayoutNode × Nat) :=
  let isPaneGrowing : Bool := 0 < resizeCellDelta
  match resolveResizeBorder layoutTree layoutRect paneId direction isPaneGrowing paneSizing with
  | .error resizeError => .error resizeError
  | .ok border =>
    let requestedCellCount := resizeCellDelta.natAbs
    let (keptAddedCellCount, movedCellCount) := border.selectAddedCellCount requestedCellCount
    if 0 < requestedCellCount ∧ movedCellCount = 0 then
      let (_, startingSpareCellCount) := border.measureBorder border.splitNode
      .error (if startingSpareCellCount = 0 then .donorAtMinimumSize paneId direction isPaneGrowing
        else .borderHeld paneId direction isPaneGrowing)
    else
      let resizedNode := LayoutNode.split (border.setAddedCellCount keptAddedCellCount)
      .ok ((layoutTree.editNodeAtPath (fun _ => resizedNode) border.splitPath).getD layoutTree, movedCellCount)

end Koshi.Layout
