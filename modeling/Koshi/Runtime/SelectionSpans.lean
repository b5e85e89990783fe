import Koshi.Terminal.SelectionText

/-!
# Selection spans

The part of a selection that a frame shows (`koshi-runtime/src/runtime/snapshot.rs`), with what it reads of the pane's
terminal (`koshi-terminal/src/state.rs`). Absolute rows are unsigned words of 64 bits, rows of the window signed ones:
a cast takes the same bits, and a subtraction wraps as in a release build.
-/

namespace Koshi.Runtime

open Base Koshi.Core Terminal

structure PaneText where
  scrollback : Scrollback
  activeGrid : Grid
  isPrimaryScreenActive : Bool
  rowCount_le : activeGrid.rows.length ≤ u16Max
  retainedLineCount_le : scrollback.retainedLines.length ≤ scrollback.totalPushedLineCount
  /-- The newest row has a number of 64 bits. -/
  lastRowIndex_lt : scrollback.totalPushedLineCount + (activeGrid.rows.length - 1) < 2 ^ 64

namespace PaneText

def getTextView (pane : PaneText) : TextView :=
  if pane.isPrimaryScreenActive then .fromScrollbackAndGrid pane.scrollback pane.activeGrid
  else .fromGridWithoutScrollback pane.activeGrid pane.scrollback.totalPushedLineCount

/-- How far the view is scrolled when an offset was asked for. -/
def computeEffectiveViewOffset (pane : PaneText) (offset : Nat) : Nat :=
  if !pane.isPrimaryScreenActive then 0 else min offset pane.scrollback.retainedLines.length

/-- The rows the window shows and its offset. -/
def getScrolledView (pane : PaneText) (offset : Nat) : List RowSnapshot × Nat :=
  let scrolled := pane.computeEffectiveViewOffset offset
  if scrolled = 0 then (pane.activeGrid.listRowSnapshots.1, 0)
  else
    let history := pane.scrollback.retainedLines
    ((history.drop (history.length - scrolled) ++ pane.activeGrid.listRowSnapshots.1).take
      pane.activeGrid.getGridDimensions.1, scrolled)

end PaneText

/-- The grid one frame shows of a pane. -/
structure GridView where
  rowSnapshots : List RowSnapshot
  columnCount : Nat

def GridView.getViewDimensions (gridView : GridView) : Nat × Nat :=
  (min gridView.rowSnapshots.length u16Max, gridView.columnCount)

/-- The `as i64` cast, and what a wrapping operation on `i64` leaves. -/
def asI64 (a : Int) : Int := a.bmod (2 ^ 64)

/-- The columns highlighted on each row of the window, first and last; `none` where there is no such row. -/
def computeSelectionSpans (selection : Selection) (gridView : GridView) (totalPushedLineCount scrollbackOffset : Nat) :
    Option (List (Nat × Nat × Nat)) :=
  let (rowCount, columnCount) := gridView.getViewDimensions
  if rowCount = 0 ∨ columnCount = 0 then none
  else
    let topRowIndex := asI64 (asI64 totalPushedLineCount - asI64 scrollbackOffset)
    let ⟨startPosition, endPosition⟩ := orderSelectionPositions selection.anchor selection.cursor
    let firstVisibleRowIndex := asI64 (asI64 startPosition.rowIndex - topRowIndex)
    let lastVisibleRowIndex := asI64 (asI64 endPosition.rowIndex - topRowIndex)
    let bottomRowIndex : Int := rowCount - 1
    if lastVisibleRowIndex < 0 ∨ firstVisibleRowIndex > bottomRowIndex then none
    else
      let lastColumnIndex := columnCount - 1
      let firstRow := (max firstVisibleRowIndex 0).toNat
      let rowSpans := (List.range' firstRow ((min lastVisibleRowIndex bottomRowIndex).toNat + 1 - firstRow)).filterMap
        fun (visibleRowIndex : Nat) =>
          let (startColumnIndex, endColumnIndex) :=
            if selection.selectionKind = .block then
              (min startPosition.columnIndex endPosition.columnIndex,
                max startPosition.columnIndex endPosition.columnIndex)
            else
              (if (visibleRowIndex : Int) = firstVisibleRowIndex then startPosition.columnIndex else 0,
                if (visibleRowIndex : Int) = lastVisibleRowIndex then endPosition.columnIndex else lastColumnIndex)
          let endColumnIndex := min endColumnIndex lastColumnIndex
          if startColumnIndex ≤ endColumnIndex then some (visibleRowIndex, startColumnIndex, endColumnIndex) else none
      if rowSpans.isEmpty then none else some rowSpans

def PaneText.buildSelectionSpans (pane : PaneText) (offset : Nat) (selection : Selection) :
    Option (List (Nat × Nat × Nat)) :=
  let (rowSnapshots, effectiveScrollbackOffset) := pane.getScrolledView offset
  computeSelectionSpans selection ⟨rowSnapshots, pane.activeGrid.getGridDimensions.2⟩
    pane.scrollback.totalPushedLineCount effectiveScrollbackOffset

end Koshi.Runtime
