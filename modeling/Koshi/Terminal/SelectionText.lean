import Koshi.Core.KeyText
import Koshi.Core.Selection
import Koshi.Terminal.WordSelection

/-!
# The text of a selection

What a copy places on the clipboard (`koshi-terminal/src/selection.rs`). A text is the list of its characters; the
room reserved for it is left out.
-/

namespace Koshi.Terminal

open Koshi.Core

structure OrderedSelection where
  startPosition : GridPosition
  endPosition : GridPosition
  deriving DecidableEq

/-- Two positions in text order: earlier row first, and within one row, earlier column first. -/
def orderSelectionPositions (selectionAnchor selectionCursor : GridPosition) : OrderedSelection :=
  if selectionAnchor.rowIndex < selectionCursor.rowIndex ∨
      selectionAnchor.rowIndex = selectionCursor.rowIndex ∧ selectionAnchor.columnIndex ≤
        selectionCursor.columnIndex then
    ⟨selectionAnchor, selectionCursor⟩
  else ⟨selectionCursor, selectionAnchor⟩

/-- The first and the last column a copy takes from a row between the two ends. -/
def selectedColumns (isBlockSelection : Bool) (selection : OrderedSelection) (lastColumnIndex rowIndex : Nat) :
    Nat × Nat :=
  let ⟨selectionStart, selectionEnd⟩ := selection
  if isBlockSelection then
    (min selectionStart.columnIndex selectionEnd.columnIndex, max selectionStart.columnIndex selectionEnd.columnIndex)
  else
    (if rowIndex = selectionStart.rowIndex then selectionStart.columnIndex else 0,
      if rowIndex = selectionEnd.rowIndex then selectionEnd.columnIndex else lastColumnIndex)

/-- The characters a copy takes from one cell: none from the right half of a wide glyph. -/
def Cell.listSelectedCharacters (cell : Cell) : List Char :=
  if cell.displayWidth = 0 then [] else cell.character :: cell.listCombiningCharacters

/-- The text of the selected columns of a row. The spacer of a wide glyph that wrapped is left out, and columns past
the row's last cell are blanks. -/
def serializeSelectedColumns (rowCells : List Cell) (rowEnd : RowEnd)
    (columnCount firstColumn lastSelectedColumn : Nat) :
    List Char :=
  let textColumnCount := if rowEnd = .softWide then columnCount - 1 else columnCount
  let selectedColumnEnd := min (lastSelectedColumn + 1) textColumnCount
  let selectedCellEnd := min selectedColumnEnd rowCells.length
  let paddingStart := max firstColumn rowCells.length
  ((rowCells.take selectedCellEnd).drop firstColumn).flatMap Cell.listSelectedCharacters ++
    List.replicate (selectedColumnEnd - paddingStart) ' '

def trimEnd (text : List Char) : List Char := (text.reverse.dropWhile isWhitespace).reverse

def serializeSelectedRow (view : TextView) (selection : Selection) (shouldTrimTrailingWhitespace : Bool)
    (written : List Char × Bool) (rowIndex : Nat) : List Char × Bool :=
  match view.getRowEnd rowIndex with
  | none => written
  | some rowEnd =>
    let isBlockSelection := decide (selection.selectionKind = .block)
    let (firstColumn, lastSelectedColumn) := selectedColumns isBlockSelection
      (orderSelectionPositions selection.anchor selection.cursor) (view.getColumnCount - 1) rowIndex
    let (selectedText, hasWrittenSelectedRow) := written
    let lineBreak := if hasWrittenSelectedRow && (isBlockSelection || !view.isSoftWrapped (rowIndex - 1))
        then ['\n'] else []
    let rowText := match (view.readRow rowIndex).bind (·.1) with
      | some (rowCells, _) =>
        serializeSelectedColumns rowCells rowEnd view.getColumnCount firstColumn lastSelectedColumn
      | none => []
    let rowText :=
      if shouldTrimTrailingWhitespace && (isBlockSelection || rowEnd = .hard) then trimEnd rowText else rowText
    (selectedText ++ lineBreak ++ rowText, true)

/-- The text a copy places on the clipboard. -/
def serializeSelectionText (view : TextView) (selection : Selection) (shouldTrimTrailingWhitespace : Bool) :
    List Char :=
  let ⟨selectionStart, selectionEnd⟩ := orderSelectionPositions selection.anchor selection.cursor
  let firstSelectedRowIndex := max selectionStart.rowIndex view.getFirstRowIndex
  let lastSelectedRowIndex := min selectionEnd.rowIndex view.getLastRowIndex
  ((List.range' firstSelectedRowIndex (lastSelectedRowIndex + 1 - firstSelectedRowIndex)).foldl
    (serializeSelectedRow view selection shouldTrimTrailingWhitespace) ([], false)).1

end Koshi.Terminal
