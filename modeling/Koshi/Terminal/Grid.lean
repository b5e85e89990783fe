import Koshi.Base.Slice
import Koshi.Terminal.RowSnapshot

/-!
# The cell grid

The rows of cells behind one screen buffer (`koshi-terminal/src/grid/state.rs`). A row keeps three facts beside its
cells: how far it was written, the one style of a plain row, and the snapshot the last frame took. A function that
hands out a mutable reference is a function that takes the change made through it.
-/

namespace Koshi.Terminal

open Base

/-! ## Rows -/

structure GridRow where
  cells : List Cell
  rowMetadata : RowMetadata
  /-- Every cell at or past this column is a blank in `blankFillStyle`. -/
  writtenCellCount : Nat
  blankFillStyle : Style
  plainRowStyle : Option Style
  publishedRowSnapshot : Option RowSnapshot
  deriving DecidableEq

variable (startColumn endColumn : Nat)

namespace GridRow

def fromBlank (columnCount : Nat) (fillStyle : Style) : GridRow :=
  ⟨List.replicate columnCount (.buildBlankWithStyle fillStyle), .default, 0, fillStyle, some fillStyle, none⟩

/-- A row holding `cells`, all of which count as written. -/
def fromCells (cells : List Cell) (rowMetadata : RowMetadata) : GridRow :=
  ⟨cells, rowMetadata, cells.length, .default, none, none⟩

variable (row : GridRow)

/-- A change to the cells in `startColumn..endColumn`. The row's snapshot goes away, and the row no longer counts as
plain. -/
def getCellsMut (change : List Cell → List Cell) : GridRow :=
  { row with
    publishedRowSnapshot := none
    plainRowStyle := none
    writtenCellCount := max row.writtenCellCount endColumn
    cells := updateRange row.cells startColumn endColumn change }

/-- Writes one narrow cell for each byte from `firstColumnIndex` on. The row stays plain when it was plain in
`style`, and becomes plain when the bytes cover it whole. -/
def writeAsciiCells (firstColumnIndex : Nat) (asciiBytes : List UInt8) (style : Style) : GridRow :=
  let endColumn := firstColumnIndex + asciiBytes.length
  let isWholeRow := firstColumnIndex = 0 ∧ endColumn = row.cells.length
  let plainRowStyle := if row.plainRowStyle = some style ∨ isWholeRow then some style else none
  let row := row.getCellsMut firstColumnIndex endColumn fun _ =>
    asciiBytes.map fun asciiByte => .fromCharacter (Char.ofNat asciiByte.toNat) 1 style
  { row with plainRowStyle }

/-- A change to the row's metadata. The row's snapshot goes away. -/
def getRowMetadataMut (change : RowMetadata → RowMetadata) : GridRow :=
  { row with publishedRowSnapshot := none, rowMetadata := change row.rowMetadata }

/-- Blanks `startColumn..endColumn`, which ends at or before the row's end. A span that reaches the end rewrites only
the cells that can differ from the blank. -/
def fillWithBlank (fillStyle : Style) : GridRow :=
  let blankCell := Cell.buildBlankWithStyle fillStyle
  let isWholeRow := startColumn = 0 ∧ endColumn = row.cells.length
  let plainRowStyle := if row.plainRowStyle = some fillStyle ∨ isWholeRow then some fillStyle else none
  if endColumn < row.cells.length then
    let row := row.getCellsMut startColumn endColumn fun slice => List.replicate slice.length blankCell
    { row with plainRowStyle }
  else
    let (rewrittenEndIndex, writtenCellCount) :=
      if fillStyle = row.blankFillStyle then
        (max row.writtenCellCount startColumn, min row.writtenCellCount startColumn)
      else (row.cells.length, startColumn)
    { row with
      publishedRowSnapshot := none
      plainRowStyle
      cells := fillRange row.cells startColumn rewrittenEndIndex blankCell
      writtenCellCount
      blankFillStyle := fillStyle }

/-- Blanks the whole row and gives it default metadata. -/
def resetToBlank (fillStyle : Style) : GridRow :=
  { row.fillWithBlank 0 row.cells.length fillStyle with rowMetadata := .default }

def encodeRowSnapshot : RowSnapshot :=
  .fromPaddedRowCells row.cells row.cells.length row.plainRowStyle row.rowMetadata

/-- The row's snapshot: the one the last frame took, or a new one, which the row keeps. -/
def getRowSnapshot : RowSnapshot × GridRow :=
  let snapshot := row.publishedRowSnapshot.getD row.encodeRowSnapshot
  (snapshot, { row with publishedRowSnapshot := some snapshot })

/-- The row's snapshot for history. The row keeps none afterwards. -/
def takeRowSnapshot : RowSnapshot × GridRow :=
  (row.publishedRowSnapshot.getD row.encodeRowSnapshot, { row with publishedRowSnapshot := none })

end GridRow

/-! ## The grid -/

/-- A fixed-size grid of cells. -/
structure Grid where
  rows : List GridRow
  deriving DecidableEq

namespace Grid

def buildBlank (rowCount columnCount : Nat) (fillStyle : Style) : Grid :=
  ⟨List.replicate rowCount (.fromBlank columnCount fillStyle)⟩

def resizeCells (rowCells : List Cell) (columnCount : Nat) (blankCell : Cell) : List Cell :=
  rowCells.take columnCount ++ List.replicate (columnCount - rowCells.length) blankCell

def fromRowsWithMetadata (rowCells : List (List Cell × RowMetadata)) (columnCount : Nat) (fillStyle : Style) : Grid :=
  ⟨rowCells.map fun (rowCells, rowMetadata) =>
    .fromCells (resizeCells rowCells columnCount (.buildBlankWithStyle fillStyle)) rowMetadata⟩

variable (grid : Grid)

def getRowMetadata (rowIndex : Nat) : RowMetadata :=
  (grid.rows[rowIndex]?.map (·.rowMetadata)).getD .default

def getRowEnd (rowIndex : Nat) : RowEnd := (grid.getRowMetadata rowIndex).rowEnd

def setRowEnd (rowIndex : Nat) (rowEnd : RowEnd) : Grid :=
  ⟨grid.rows.modify rowIndex fun row =>
    if row.rowMetadata.rowEnd ≠ rowEnd then row.getRowMetadataMut ({ · with rowEnd }) else row⟩

/-- Records whether a shell reported a prompt on a row. -/
def setPromptMark (rowIndex : Nat) (hasPromptMark : Bool) : Grid :=
  ⟨grid.rows.modify rowIndex fun row =>
    if row.rowMetadata.hasPromptMark ≠ hasPromptMark then
      row.getRowMetadataMut ({ · with hasPromptMark })
    else row⟩

/-- The row count and the column count. -/
def getGridDimensions : Nat × Nat :=
  (asU16 grid.rows.length, asU16 ((grid.rows.head?.map (·.cells.length)).getD 0))

def getCell (rowIndex columnIndex : Nat) : Option Cell :=
  grid.rows[rowIndex]?.bind fun row => row.cells[columnIndex]?

/-- A change to one cell, out of bounds none. -/
def getCellMut (rowIndex columnIndex : Nat) (change : Cell → Cell) : Grid :=
  ⟨grid.rows.modify rowIndex fun row =>
    if columnIndex ≥ row.cells.length then row
    else row.getCellsMut columnIndex (columnIndex + 1) (·.map change)⟩

def getRowCells (rowIndex : Nat) : Option (List Cell) := grid.rows[rowIndex]?.map (·.cells)

def getRowSnapshot (grid : Grid) (rowIndex : Nat) : Option RowSnapshot × Grid :=
  (grid.rows[rowIndex]?.map (·.getRowSnapshot.1), ⟨grid.rows.modify rowIndex (·.getRowSnapshot.2)⟩)

def listRowSnapshots : List RowSnapshot × Grid :=
  (grid.rows.map (·.getRowSnapshot.1), ⟨grid.rows.map (·.getRowSnapshot.2)⟩)

def takeRowSnapshot (grid : Grid) (rowIndex : Nat) : Option RowSnapshot × Grid :=
  (grid.rows[rowIndex]?.map (·.takeRowSnapshot.1), ⟨grid.rows.modify rowIndex (·.takeRowSnapshot.2)⟩)

/-- Writes one narrow cell for each byte; bytes past the row's end are dropped. -/
def writeAsciiCells (grid : Grid) (rowIndex firstColumnIndex : Nat) (asciiBytes : List UInt8) (style : Style) : Grid :=
  ⟨grid.rows.modify rowIndex fun row =>
    let writtenByteCount := min asciiBytes.length (row.cells.length - firstColumnIndex)
    if writtenByteCount = 0 then row
    else row.writeAsciiCells firstColumnIndex (asciiBytes.take writtenByteCount) style⟩

/-- Blanks the other half of a wide glyph overwritten at this cell. -/
def clearWideGlyphAt (rowIndex columnIndex : Nat) (fillStyle : Style) : Grid :=
  let pairedColumnIndex := match ((grid.getCell rowIndex columnIndex).map (·.displayWidth)).getD 1 with
    | 2 => if columnIndex + 1 ≤ u16Max then some (columnIndex + 1) else none
    | 0 => if columnIndex = 0 then none else some (columnIndex - 1)
    | _ => none
  match pairedColumnIndex with
  | some pairedColumnIndex => grid.getCellMut rowIndex pairedColumnIndex fun _ => .buildBlankWithStyle fillStyle
  | none => grid

/-- Blanks `firstColumnIndex..lastColumnIndexExclusive` of a row. The row end resets to hard when the span reaches the
right edge. -/
def clearLine (rowIndex firstColumnIndex lastColumnIndexExclusive : Nat) (fillStyle : Style) : Grid :=
  let cleared : Grid := ⟨grid.rows.modify rowIndex fun row =>
    let endColumnIndex := min lastColumnIndexExclusive row.cells.length
    if firstColumnIndex < endColumnIndex then row.fillWithBlank firstColumnIndex endColumnIndex fillStyle else row⟩
  let (_, columnCount) := cleared.getGridDimensions
  if lastColumnIndexExclusive ≥ columnCount ∧ firstColumnIndex < columnCount then cleared.setRowEnd rowIndex .hard
  else cleared

def rotateRight {α : Type} (slice : List α) (count : Nat) : List α := slice.rotate (slice.length - count)

/-- A change to the cells of a row in an inclusive column range, none when the range is empty. -/
def updateCellsInColumns (rowIndex firstColumnIndex lastColumnIndex : Nat)
    (change : (columnSpan : Nat) → List Cell → List Cell) : Grid :=
  match grid.rows[rowIndex]? with
  | none => grid
  | some row =>
    let lastColumnIndex := min (lastColumnIndex + 1) row.cells.length
    if firstColumnIndex ≥ lastColumnIndex then grid
    else
      let changed : Grid := ⟨grid.rows.modify rowIndex
        (·.getCellsMut firstColumnIndex lastColumnIndex (change (lastColumnIndex - firstColumnIndex)))⟩
      changed.setRowEnd rowIndex .hard

/-- Inserts blank cells within the inclusive column range; the cells pushed past it are dropped. -/
def insertCellsInColumns (rowIndex firstColumnIndex lastColumnIndex insertCellCount : Nat) (fillStyle : Style) : Grid :=
  grid.updateCellsInColumns rowIndex firstColumnIndex lastColumnIndex fun columnSpan spanCells =>
    let insertedCellCount := min columnSpan insertCellCount
    fillRange (rotateRight spanCells insertedCellCount) 0 insertedCellCount (.buildBlankWithStyle fillStyle)

/-- Deletes cells within the inclusive column range; the cells freed at its right edge are blanked. -/
def deleteCellsInColumns (rowIndex firstColumnIndex lastColumnIndex deleteCellCount : Nat) (fillStyle : Style) : Grid :=
  grid.updateCellsInColumns rowIndex firstColumnIndex lastColumnIndex fun columnSpan spanCells =>
    let deletedCellCount := min columnSpan deleteCellCount
    fillRange (spanCells.rotate deletedCellCount) (columnSpan - deletedCellCount) columnSpan
      (.buildBlankWithStyle fillStyle)

def swapCells (bandRows : List GridRow) (firstIndex secondIndex : Nat) : List GridRow :=
  match bandRows[firstIndex]?, bandRows[secondIndex]? with
  | some firstRow, some secondRow =>
    (bandRows.set firstIndex (firstRow.getCellsMut startColumn endColumn fun _ =>
      sliceRange secondRow.cells startColumn endColumn)).set secondIndex
        (secondRow.getCellsMut startColumn endColumn fun _ => sliceRange firstRow.cells startColumn endColumn)
  | _, _ => bandRows

def vacateCells (fillStyle : Style) (row : GridRow) : GridRow :=
  row.getCellsMut startColumn endColumn fun slice => List.replicate slice.length (.buildBlankWithStyle fillStyle)

/-- What the two column-band shifts check before they move: rows in the grid, a column range clamped to it, and a
positive count of rows, at most the band's. -/
def shiftLinesInColumns (firstRowIndex lastRowIndex shiftRowCount firstColumnIndex lastColumnIndex : Nat)
    (shift : (startColumn endColumn shiftedRowCount : Nat) → List GridRow → List GridRow) : Grid :=
  let (rowCount, columnCount) := grid.getGridDimensions
  if firstRowIndex ≥ rowCount ∨ lastRowIndex ≥ rowCount ∨ firstRowIndex > lastRowIndex ∨ columnCount = 0 then grid
  else
    let startColumn := min firstColumnIndex (columnCount - 1)
    let endColumn := min lastColumnIndex (columnCount - 1) + 1
    if startColumn ≥ endColumn then grid
    else
      let shiftedRowCount := min shiftRowCount (lastRowIndex - firstRowIndex + 1)
      if shiftedRowCount = 0 then grid
      else ⟨updateRange grid.rows firstRowIndex (lastRowIndex + 1) (shift startColumn endColumn shiftedRowCount)⟩

/-- Deletes lines while moving only the inclusive column range. Each row keeps its metadata. -/
def deleteLinesInColumns (firstRowIndex lastRowIndex deleteRowCount firstColumnIndex lastColumnIndex : Nat)
    (fillStyle : Style) : Grid :=
  grid.shiftLinesInColumns firstRowIndex lastRowIndex deleteRowCount firstColumnIndex lastColumnIndex
    fun startColumn endColumn removedRowCount bandRows =>
      let movedRows := (List.range' removedRowCount (bandRows.length - removedRowCount)).foldl
        (fun rows sourceRowIndex => swapCells startColumn endColumn rows (sourceRowIndex - removedRowCount)
          sourceRowIndex)
        bandRows
      updateRange movedRows (bandRows.length - removedRowCount) bandRows.length
        (·.map (vacateCells startColumn endColumn fillStyle))

/-- Inserts lines while moving only the inclusive column range. Each row keeps its metadata. -/
def insertLinesInColumns (firstRowIndex lastRowIndex insertRowCount firstColumnIndex lastColumnIndex : Nat)
    (fillStyle : Style) : Grid :=
  grid.shiftLinesInColumns firstRowIndex lastRowIndex insertRowCount firstColumnIndex lastColumnIndex
    fun startColumn endColumn insertedRowCount bandRows =>
      let movedRows := (List.range' insertedRowCount (bandRows.length - insertedRowCount)).reverse.foldl
        (fun rows destinationRowIndex =>
          swapCells startColumn endColumn rows destinationRowIndex (destinationRowIndex - insertedRowCount))
        bandRows
      updateRange movedRows 0 insertedRowCount (·.map (vacateCells startColumn endColumn fillStyle))

/-- Deletes lines of the band `firstRowIndex..=lastRowIndex`: the lines below them move up, and the removed rows are
blanked at the band's bottom. -/
def deleteLines (firstRowIndex lastRowIndex deleteRowCount : Nat) (fillStyle : Style) : Grid :=
  let (rowCount, _) := grid.getGridDimensions
  if firstRowIndex ≥ rowCount ∨ lastRowIndex ≥ rowCount ∨ firstRowIndex > lastRowIndex then grid
  else
    let removedLineCount := min deleteRowCount (lastRowIndex - firstRowIndex + 1)
    let shifted : Grid := ⟨updateRange grid.rows firstRowIndex (lastRowIndex + 1) fun bandRows =>
      updateRange (bandRows.rotate removedLineCount) (bandRows.length - removedLineCount) bandRows.length
        (·.map (·.resetToBlank fillStyle))⟩
    if removedLineCount > 0 then
      -- the row above the band and the last row that slid up precede rows they never wrapped into
      let shifted := if firstRowIndex > 0 then shifted.setRowEnd (firstRowIndex - 1) .hard else shifted
      if removedLineCount ≤ lastRowIndex then shifted.setRowEnd (lastRowIndex - removedLineCount) .hard else shifted
    else shifted

/-- Inserts blank lines in the band `firstRowIndex..=lastRowIndex`: the lines move down, and the rows pushed below the
band are blanked at its top. -/
def insertLines (firstRowIndex lastRowIndex insertRowCount : Nat) (fillStyle : Style) : Grid :=
  let (rowCount, _) := grid.getGridDimensions
  if firstRowIndex ≥ rowCount ∨ lastRowIndex ≥ rowCount ∨ firstRowIndex > lastRowIndex then grid
  else
    let insertedLineCount := min insertRowCount (lastRowIndex - firstRowIndex + 1)
    let shifted : Grid := ⟨updateRange grid.rows firstRowIndex (lastRowIndex + 1) fun bandRows =>
      updateRange (rotateRight bandRows insertedLineCount) 0 insertedLineCount (·.map (·.resetToBlank fillStyle))⟩
    if insertedLineCount > 0 then
      let shifted := if firstRowIndex > 0 then shifted.setRowEnd (firstRowIndex - 1) .hard else shifted
      shifted.setRowEnd lastRowIndex .hard
    else shifted

end Grid

end Koshi.Terminal
