import Koshi.Base.Checked
import Koshi.Core.Geometry

/-!
# Edge regions

Ordered regions taken from the four viewport edges (`koshi-layout/src/regions.rs`). The cell arithmetic is `u16` in
the source: `none` is a sum or a difference that leaves it.
-/

namespace Koshi.Layout

open Base Koshi.Core

/-- The viewport edge that owns a region. -/
inductive Edge where
  | top
  | bottom
  | left
  | right
  deriving DecidableEq, Repr

structure RegionGeometry where
  edge : Edge
  extentCellCount : Nat
  deriving DecidableEq, Repr

/-- The rectangles of ordered edge regions, and the rectangle left for panes. -/
structure SolvedRegions where
  regionRects : List Rect
  paneRect : Rect
  deriving DecidableEq, Repr

/-- One turn of the loop of `solve_region_rects`: the region's rectangle and what remains for panes. -/
def takeRegion (remainingPaneRect : Rect) (regionGeometry : RegionGeometry) : Option (Rect × Rect) :=
  let ⟨origin, size⟩ := remainingPaneRect
  match regionGeometry.edge with
  | .top => do
    let rowCount := min regionGeometry.extentCellCount size.rowCount
    let row ← checkedAdd u16Max origin.row rowCount
    let remainingRowCount ← checkedSub size.rowCount rowCount
    some (⟨origin, ⟨size.columnCount, rowCount⟩⟩, ⟨⟨origin.column, row⟩, ⟨size.columnCount, remainingRowCount⟩⟩)
  | .bottom => do
    let rowCount := min regionGeometry.extentCellCount size.rowCount
    let bottomEdge ← checkedAdd u16Max origin.row size.rowCount
    let row ← checkedSub bottomEdge rowCount
    let remainingRowCount ← checkedSub size.rowCount rowCount
    some (⟨⟨origin.column, row⟩, ⟨size.columnCount, rowCount⟩⟩, ⟨origin, ⟨size.columnCount, remainingRowCount⟩⟩)
  | .left => do
    let columnCount := min regionGeometry.extentCellCount size.columnCount
    let column ← checkedAdd u16Max origin.column columnCount
    let remainingColumnCount ← checkedSub size.columnCount columnCount
    some (⟨origin, ⟨columnCount, size.rowCount⟩⟩, ⟨⟨column, origin.row⟩, ⟨remainingColumnCount, size.rowCount⟩⟩)
  | .right => do
    let columnCount := min regionGeometry.extentCellCount size.columnCount
    let rightEdge ← checkedAdd u16Max origin.column size.columnCount
    let column ← checkedSub rightEdge columnCount
    let remainingColumnCount ← checkedSub size.columnCount columnCount
    some (⟨⟨column, origin.row⟩, ⟨columnCount, size.rowCount⟩⟩, ⟨origin, ⟨remainingColumnCount, size.rowCount⟩⟩)

def solveRegionRectsFrom (remainingPaneRect : Rect) : List RegionGeometry → Option SolvedRegions
  | [] => some ⟨[], remainingPaneRect⟩
  | regionGeometry :: regionGeometries => do
    let (regionRect, remainingPaneRect) ← takeRegion remainingPaneRect regionGeometry
    let solvedRegions ← solveRegionRectsFrom remainingPaneRect regionGeometries
    some { solvedRegions with regionRects := regionRect :: solvedRegions.regionRects }

/-- The rectangles of ordered edge regions inside a viewport; earlier regions are outermost. -/
def solveRegionRects (viewportSize : Size) (regionGeometries : List RegionGeometry) : Option SolvedRegions :=
  solveRegionRectsFrom (.fromSizeAtOrigin viewportSize) regionGeometries

end Koshi.Layout
