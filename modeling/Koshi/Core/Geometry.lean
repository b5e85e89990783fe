import Koshi.Base.MachineInt

/-!
# Terminal-cell geometry

Points, sizes and rectangles in terminal cells (`koshi-core/src/geometry.rs`). A coordinate is a `u16`
in the source and a natural number here; `Rect.WithinU16` says where the two agree.
-/

namespace Koshi.Core

open Base

/-- A single cell coordinate. -/
structure Point where
  column : Nat
  row : Nat
  deriving DecidableEq, Repr

structure Size where
  columnCount : Nat
  rowCount : Nat
  deriving DecidableEq, Repr

/-- The per-axis minimum of the two sizes. -/
def Size.computeMinimumAxes (size otherSize : Size) : Size where
  columnCount := min size.columnCount otherSize.columnCount
  rowCount := min size.rowCount otherSize.rowCount

/-- Whether each axis of a size is at most the same axis of `containerSize`. -/
def Size.canFitInside (size containerSize : Size) : Bool :=
  size.columnCount ≤ containerSize.columnCount && size.rowCount ≤ containerSize.rowCount

def Size.computeCellCount (size : Size) : Nat := size.columnCount * size.rowCount

/-- The top-left cell of `contentSize`, cut to `size`, centered in an area of `size`. -/
def Size.computeCenteredOrigin (size contentSize : Size) : Point where
  column := (size.columnCount - min contentSize.columnCount size.columnCount) / 2
  row := (size.rowCount - min contentSize.rowCount size.rowCount) / 2

/-- The per-axis minimum of a list of sizes; `none` when the list is empty. -/
def Size.reduceMinimumAxes : List Size → Option Size
  | [] => none
  | size :: sizes => some (sizes.foldl Size.computeMinimumAxes size)

/-- The cells a layout needs on each axis (`u32`: an axis can be larger than any `Size`). -/
structure RequiredSize where
  columnCount : Nat
  rowCount : Nat
  deriving DecidableEq, Repr

/-- The per-axis sum of the two sizes. -/
def RequiredSize.fromSizeSum (firstSize secondSize : Size) : RequiredSize where
  columnCount := firstSize.columnCount + secondSize.columnCount
  rowCount := firstSize.rowCount + secondSize.rowCount

/-- Whether each axis of a required size is at most the same axis of `containerSize`. -/
def RequiredSize.canFitInside (requiredSize : RequiredSize) (containerSize : Size) : Bool :=
  requiredSize.columnCount ≤ containerSize.columnCount && requiredSize.rowCount ≤ containerSize.rowCount

@[simp] theorem RequiredSize.canFitInside_iff (requiredSize : RequiredSize) (containerSize : Size) :
    requiredSize.canFitInside containerSize = true ↔
      requiredSize.columnCount ≤ containerSize.columnCount ∧ requiredSize.rowCount ≤ containerSize.rowCount := by
  simp [RequiredSize.canFitInside]

def computePercentCellCount (axisCellCount percent : Nat) : Nat :=
  asU16 (axisCellCount * min percent 100 / 100)

/-- The pane region one client reports for the tab it views. -/
inductive PaneArea where
  | reported (size : Size)
  /-- The client has no room to draw a pane. -/
  | starving
  deriving DecidableEq, Repr

/-- One axis of a floating pane's desired size. -/
inductive FloatingPaneDimension where
  /-- A nonzero number of cells. -/
  | cells (cellCount : Nat)
  /-- A whole percent of the axis, from `1` to `100`. -/
  | percent (axisPercent : Nat)
  deriving DecidableEq, Repr

structure FloatingPaneSize where
  width : FloatingPaneDimension
  height : FloatingPaneDimension
  deriving DecidableEq, Repr

inductive FloatingPanePosition where
  | default
  | moved (topLeftCell : Point)
  | pinned (topLeftCell : Point)
  deriving DecidableEq, Repr

/-- A rectangular region of cells. -/
structure Rect where
  origin : Point
  size : Size
  deriving DecidableEq, Repr

inductive Direction where
  | left
  | right
  | up
  | down
  deriving DecidableEq, Repr

/-- How a split divides space between its children. -/
inductive SplitDirection where
  | horizontal
  | vertical
  | stacked
  deriving DecidableEq, Repr

namespace Rect

/-- The rect of the given size anchored at `(0, 0)`. -/
def fromSizeAtOrigin (size : Size) : Rect := ⟨⟨0, 0⟩, size⟩

def buildEmptyAtOrigin : Rect := fromSizeAtOrigin ⟨0, 0⟩

variable (rect : Rect)

/-- The rect covers no cells. -/
def isEmpty : Bool := rect.size.columnCount == 0 || rect.size.rowCount == 0

def getRightEdge : Nat := rect.origin.column + rect.size.columnCount

def getBottomEdge : Nat := rect.origin.row + rect.size.rowCount

/-- The origin is at or past the outer origin, and the edges stop at or before the outer edges. -/
def isInsideRect (rect outerRect : Rect) : Bool :=
  outerRect.origin.column ≤ rect.origin.column && outerRect.origin.row ≤ rect.origin.row &&
    rect.getRightEdge ≤ outerRect.getRightEdge && rect.getBottomEdge ≤ outerRect.getBottomEdge

/-- `point` lies within the half-open rect. -/
def isPointInside (point : Point) : Bool :=
  rect.origin.column ≤ point.column && rect.origin.row ≤ point.row &&
    point.column < rect.getRightEdge && point.row < rect.getBottomEdge

/-- The rect moved left and up until it lies inside the container; a rect larger than it starts at `0`. -/
def computeMovedInside (containerSize : Size) : Rect where
  origin := ⟨min rect.origin.column (containerSize.columnCount - rect.size.columnCount),
    min rect.origin.row (containerSize.rowCount - rect.size.rowCount)⟩
  size := rect.size

/-- The common cells of two rects; `none` when they share none. -/
def computeIntersection (rect otherRect : Rect) : Option Rect :=
  let leftEdge := max rect.origin.column otherRect.origin.column
  let topEdge := max rect.origin.row otherRect.origin.row
  let rightEdge := min rect.getRightEdge otherRect.getRightEdge
  let bottomEdge := min rect.getBottomEdge otherRect.getBottomEdge
  if rightEdge > leftEdge ∧ bottomEdge > topEdge then
    some ⟨⟨leftEdge, topEdge⟩, ⟨asU16 (rightEdge - leftEdge), asU16 (bottomEdge - topEdge)⟩⟩
  else none

/-- The right and bottom edges are `u16` values, so no coordinate of a cell saturates. -/
def WithinU16 : Prop := rect.getRightEdge ≤ u16Max ∧ rect.getBottomEdge ≤ u16Max

instance (rect : Rect) : Decidable rect.WithinU16 := inferInstanceAs (Decidable (_ ∧ _))

theorem isPointInside_iff (pt : Point) : rect.isPointInside pt = true ↔
    rect.origin.column ≤ pt.column ∧ rect.origin.row ≤ pt.row ∧
      pt.column < rect.origin.column + rect.size.columnCount ∧
      pt.row < rect.origin.row + rect.size.rowCount := by
  simp only [isPointInside, Bool.and_eq_true, decide_eq_true_eq, and_assoc]
  rfl

theorem isInsideRect_iff (rect outRect : Rect) : rect.isInsideRect outRect = true ↔
    outRect.origin.column ≤ rect.origin.column ∧ outRect.origin.row ≤ rect.origin.row ∧
      rect.getRightEdge ≤ outRect.getRightEdge ∧ rect.getBottomEdge ≤ outRect.getBottomEdge := by
  simp [isInsideRect, and_assoc]

@[simp] theorem isEmpty_iff : rect.isEmpty = true ↔ rect.size.columnCount = 0 ∨ rect.size.rowCount = 0 := by
  simp [isEmpty]

@[simp] theorem isEmpty_buildEmpty : buildEmptyAtOrigin.isEmpty = true := rfl

@[simp] theorem isPointInside_buildEmpty (pt : Point) : buildEmptyAtOrigin.isPointInside pt = false := by
  simp [isPointInside, buildEmptyAtOrigin, fromSizeAtOrigin, getRightEdge]

theorem isInsideRect_of_points {rect outRect : Rect} (hne : rect.isEmpty = false)
    (h : ∀ pt, rect.isPointInside pt = true → outRect.isPointInside pt = true) :
    rect.isInsideRect outRect = true := by
  have hsize : ¬ (rect.size.columnCount = 0 ∨ rect.size.rowCount = 0) := by
    rw [← isEmpty_iff, hne]
    simp
  have hf := h rect.origin ((isPointInside_iff _ _).2 (by omega))
  have hl := h ⟨rect.origin.column + rect.size.columnCount - 1,
    rect.origin.row + rect.size.rowCount - 1⟩ ((isPointInside_iff _ _).2 (by simp only; omega))
  rw [isPointInside_iff] at hf hl
  rw [isInsideRect_iff]
  simp only [getRightEdge, getBottomEdge] at hl ⊢
  omega

end Rect

end Koshi.Core
