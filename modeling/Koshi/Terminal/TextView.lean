import Koshi.Terminal.Reflow

/-!
# Text view

One pane's text addressed by absolute row number (`koshi-terminal/src/selection.rs`): the history rows count back from
the number of lines ever pushed, the rows of the live screen count up from it. A history row is decoded when a read
reaches it, into one buffer that the view keeps, so a read is a step of the view.
-/

namespace Koshi.Terminal

open Base Koshi.Core

structure DecodedHistoryRow where
  rowIndex : Option Nat
  rowCells : List Cell
  deriving DecidableEq

def DecodedHistoryRow.default : DecodedHistoryRow := ⟨none, []⟩

/-- A pane's text by absolute row number. -/
structure TextView where
  /-- The history, oldest row first; `none` for a screen that keeps none. -/
  scrollbackLines : Option (List RowSnapshot)
  screenGrid : Grid
  liveScreenTopRowNumber : Nat
  decodedHistoryRow : DecodedHistoryRow
  deriving DecidableEq

namespace TextView

def fromScrollbackAndGrid (scrollback : Scrollback) (screenGrid : Grid) : TextView :=
  ⟨some scrollback.retainedLines, screenGrid, scrollback.totalPushedLineCount, .default⟩

def fromGridWithoutScrollback (screenGrid : Grid) (liveScreenTopRowNumber : Nat) : TextView :=
  ⟨none, screenGrid, liveScreenTopRowNumber, .default⟩

variable (view : TextView)

def getScrollbackRowCount : Nat := (view.scrollbackLines.map (·.length)).getD 0

/-- The oldest row still readable. -/
def getFirstRowIndex : Nat := view.liveScreenTopRowNumber - view.getScrollbackRowCount

def getColumnCount : Nat := view.screenGrid.getGridDimensions.2

/-- The history row at `rowIndex`, which lies above the live screen's top row. -/
def findHistoryRow (rowIndex : Nat) : Option RowSnapshot := do
  let scrollbackLines ← view.scrollbackLines
  let scrollbackLineOffsetFromTop := view.liveScreenTopRowNumber - rowIndex
  if scrollbackLineOffsetFromTop ≤ scrollbackLines.length then
    scrollbackLines[scrollbackLines.length - scrollbackLineOffsetFromTop]?
  else none

def findLiveRowIndex (rowIndex : Nat) : Option Nat :=
  let gridRowIndex := rowIndex - view.liveScreenTopRowNumber
  if gridRowIndex ≤ u16Max ∧ gridRowIndex < view.screenGrid.getGridDimensions.1 then some gridRowIndex else none

/-- The cells of a row and how it ended. A history row comes without its trailing default blanks. The outer `none` is
where the source panics, on bytes that do not decode. -/
def readRow (rowIndex : Nat) : Option (Option (List Cell × RowEnd) × TextView) :=
  if rowIndex ≥ view.liveScreenTopRowNumber then
    let liveRow := do
      let gridRowIndex ← view.findLiveRowIndex rowIndex
      let rowCells ← view.screenGrid.getRowCells gridRowIndex
      some (rowCells, view.screenGrid.getRowEnd gridRowIndex)
    some (liveRow, view)
  else
    match view.findHistoryRow rowIndex with
    | none => some (none, view)
    | some rowSnapshot =>
      if view.decodedHistoryRow.rowIndex = some rowIndex then
        some (some (view.decodedHistoryRow.rowCells, rowSnapshot.rowMetadata.rowEnd), view)
      else
        (rowSnapshot.decodeRowRunCellsInto []).map fun (_, rowCells) =>
          (some (rowCells, rowSnapshot.rowMetadata.rowEnd), { view with decodedHistoryRow :=
            ⟨some rowIndex, rowCells⟩ })

/-- How a row ended. Decodes nothing. -/
def getRowEnd (view : TextView) (rowIndex : Nat) : Option RowEnd :=
  if rowIndex ≥ view.liveScreenTopRowNumber then
    (view.findLiveRowIndex rowIndex).map view.screenGrid.getRowEnd
  else (view.findHistoryRow rowIndex).map (·.rowMetadata.rowEnd)

/-- The cell at a column of a row; a column past the row's last cell is a default blank up to the screen's width. -/
def getCell (rowIndex columnIndex : Nat) : Option (Option Cell × TextView) :=
  (view.readRow rowIndex).map fun (row, nextView) =>
    (row.bind fun (rowCells, _) =>
      match rowCells[columnIndex]? with
      | some cell => some cell
      | none => if columnIndex < view.getColumnCount then some .buildBlank else none, nextView)

end TextView

/-! ## Scrolling into history -/

/-- One turn of the loop of `delete_lines_into_scrollback`: the row's snapshot becomes the newest history line. -/
def feedScrollbackRow (gridAndScrollback : Grid × Scrollback) (rowIndex : Nat) : Grid × Scrollback :=
  let (grid, scrollback) := gridAndScrollback
  let scrollback := scrollback.evictOldestLineForNextPush.2
  match grid.takeRowSnapshot rowIndex with
  | (some rowSnapshot, grid) => (grid, (scrollback.pushRowWithEvicted rowSnapshot).2)
  | (none, grid) => (grid, scrollback)

/-- `delete_lines_into_scrollback` on the primary screen from its top row on, at full width: the rows that leave go
into history first. -/
def deleteTopLinesIntoScrollback (grid : Grid) (scrollback : Scrollback) (bottomRowIndex lineCount : Nat)
    (fillStyle : Style) : Grid × Scrollback :=
  let (gridRowCount, _) := grid.getGridDimensions
  if gridRowCount = 0 then (grid, scrollback)
  else
    let bottomRowIndex := min bottomRowIndex (gridRowCount - 1)
    let shiftedRowCount := min lineCount (satAdd16 bottomRowIndex 1)
    let (grid, scrollback) := (List.range shiftedRowCount).foldl feedScrollbackRow (grid, scrollback)
    (grid.deleteLines 0 bottomRowIndex lineCount fillStyle, scrollback)

end Koshi.Terminal
