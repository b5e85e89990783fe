import Koshi.Terminal.Scrollback

/-!
# Reflow of the primary screen

A resize re-wraps the primary screen (`koshi-terminal/src/state/reflow.rs`): history and screen rows are unwound into
logical lines at their row ends, every line is wrapped to the new width, and the rows are split back into history and
screen. A resize that keeps the width keeps every row where a re-wrap would. Image placements are left out, and so are
the scratch buffers of the output.
-/

namespace Koshi.Terminal

open Base Koshi.Core

/-! ## Rows at another width -/

/-- An encoded row at `columnCount` columns: the same runs, then default blanks, with the count of cells the runs hold;
`none` when they hold `columnCount` cells or more. -/
def repadEncodedRow (encodedRowBytes : List UInt8) (columnCount : Nat) :
    Except RowDecodeError (Option (Nat × List UInt8)) := do
  let (encodedRowShape, styleAndRunBytes) ← readRowHeader encodedRowBytes
  let runCellCount := encodedRowShape.columnCount - encodedRowShape.trailingBlankCount
  if runCellCount ≥ columnCount then .ok none
  else
    let headBytes := writeVarint columnCount ++ writeVarint (computeRowEndCode encodedRowShape.rowEnd) ++
      writeVarint (columnCount - runCellCount)
    let bodyByteCount := headBytes.length + styleAndRunBytes.length
    .ok (some (runCellCount, writeVarint bodyByteCount ++ headBytes ++ styleAndRunBytes))

/-- A hard-ended row at another column count, and the count of cells its runs hold. -/
structure RepaddedRow where
  rowSnapshot : RowSnapshot
  runCellCount : Nat
  deriving DecidableEq

namespace RowSnapshot

/-- This hard-ended row at `columnCount` columns; no value for a row that does not end hard, or whose runs hold
`columnCount` cells or more. The outer `none` is where the source panics, on bytes that do not decode. -/
def repadHardRow (snapshot : RowSnapshot) (columnCount : Nat) : Option (Option RepaddedRow) :=
  if snapshot.rowMetadata.rowEnd ≠ .hard then some none
  else
    match repadEncodedRow snapshot.encodedRowBytes columnCount with
    | .error _ => none
    | .ok none => some none
    | .ok (some (runCellCount, repaddedRowBytes)) =>
      some (some ⟨{ snapshot with encodedRowBytes := repaddedRowBytes }, runCellCount⟩)

def decodeRowRunCellsInto (snapshot : RowSnapshot) (rowCells : List Cell) : Option (EncodedRowShape × List Cell) :=
  match Terminal.decodeRowRunCellsInto snapshot.encodedRowBytes rowCells with
  | (.error _, _) => none
  | (.ok encodedRowShape, decodedCells) => do
    let restoredCells ← restoreImageCells snapshot.imageCells (decodedCells.drop rowCells.length)
    some (encodedRowShape, decodedCells.take rowCells.length ++ restoredCells)

end RowSnapshot

/-! ## Logical lines -/

/-- The cells of one logical line, and where in it each prompt-marked row begins. -/
structure LogicalLine where
  cells : List Cell
  promptCellOffsets : List Nat
  deriving DecidableEq

def LogicalLine.default : LogicalLine := ⟨[], []⟩

/-- One row a logical line re-wraps into: the line's cells in `firstCellIndex..endCellIndex`, then, for a soft-wide
row, a spacer. -/
structure RewrappedRowSpan where
  firstCellIndex : Nat
  endCellIndex : Nat
  rowMetadata : RowMetadata
  deriving DecidableEq, Repr

namespace RewrappedRowSpan

def countContentCells (rowSpan : RewrappedRowSpan) : Nat := rowSpan.endCellIndex - rowSpan.firstCellIndex

def countRowCells (rowSpan : RewrappedRowSpan) : Nat :=
  match rowSpan.rowMetadata.rowEnd with
  | .softWide => rowSpan.countContentCells + 1
  | .soft | .hard => rowSpan.countContentCells

end RewrappedRowSpan

def rebuildCellWithWidth (terminalCell : Cell) (cellWidth : Nat) : Cell :=
  terminalCell.listCombiningCharacters.foldl Cell.pushCombining
    (.fromCharacter terminalCell.character cellWidth terminalCell.style)

def narrowCells (followsWideGlyph : Bool) : List Cell → List Cell
  | [] => []
  | lineCell :: lineCells =>
    let isWideGlyphContinuation := followsWideGlyph && lineCell.displayWidth == 0
    let followsWideGlyph := !isWideGlyphContinuation && lineCell.displayWidth == 2
    let lineCell := if followsWideGlyph then rebuildCellWithWidth lineCell 1 else lineCell
    if isWideGlyphContinuation then narrowCells followsWideGlyph lineCells
    else lineCell :: narrowCells followsWideGlyph lineCells

/-- Stores each wide glyph narrow, and drops the width-0 cell right after it. -/
def narrowWideGlyphs (lineCells : List Cell) : List Cell := narrowCells false lineCells

def scanRowSpans (columnCount lineCellCount : Nat) :
    (cellIndex firstCellIndex : Nat) → List Cell → List RewrappedRowSpan
  | _, firstCellIndex, [] => [⟨firstCellIndex, lineCellCount, ⟨.hard, false⟩⟩]
  | cellIndex, firstCellIndex, lineCell :: lineCells =>
    let (softSpans, firstCellIndex) :=
      if cellIndex - firstCellIndex = columnCount then
        ([⟨firstCellIndex, cellIndex, ⟨.soft, false⟩⟩], cellIndex)
      else ([], firstCellIndex)
    let (softWideSpans, firstCellIndex) :=
      if lineCell.displayWidth = 2 ∧ cellIndex - firstCellIndex + 1 = columnCount then
        ([⟨firstCellIndex, cellIndex, ⟨.softWide, false⟩⟩], cellIndex)
      else ([], firstCellIndex)
    softSpans ++ softWideSpans ++ scanRowSpans columnCount lineCellCount (cellIndex + 1) firstCellIndex lineCells

/-- The rows that one logical line's cells re-wrap into. A line of fewer than `columnCount` cells is one row, read
without a pass over its cells. -/
def computeRewrappedRowSpans (lineCells : List Cell) (columnCount : Nat) : List RewrappedRowSpan :=
  let columnCount := max columnCount 1
  let cellsToScan := if lineCells.length < columnCount then [] else lineCells
  scanRowSpans columnCount lineCells.length 0 0 cellsToScan

def locateOffset (rowIndex : Nat) : List Nat → Nat → Nat × Nat
  | [], _ => (0, 0)
  | rowContentCellCount :: rowContentCellCounts, remainingContentCellOffset =>
    if remainingContentCellOffset < rowContentCellCount ∨ rowContentCellCounts = [] then
      (rowIndex, remainingContentCellOffset)
    else locateOffset (rowIndex + 1) rowContentCellCounts (remainingContentCellOffset - rowContentCellCount)

/-- The row within the line and the column where `contentCellOffset` lands. -/
def locateContentCellOffset (rowContentCellCounts : List Nat) (contentCellOffset : Nat) : Nat × Nat :=
  locateOffset 0 rowContentCellCounts contentCellOffset

/-! ## The output -/

/-- One re-wrapped row: its cells encoded at the new width, and the count of cells it held before the padding. -/
structure RewrappedRow where
  rowSnapshot : RowSnapshot
  rowCellCount : Nat
  deriving DecidableEq

namespace RewrappedRow

def fromLeadingCells (leadingCells : List Cell) (rowCellCount : Nat) (rowMetadata : RowMetadata) (columnCount : Nat) :
    RewrappedRow :=
  let encodedColumnCount := max columnCount rowCellCount
  ⟨.fromPaddedRowCells leadingCells encodedColumnCount none rowMetadata, rowCellCount⟩

/-- The row's cells without the padding; `none` where the source panics. -/
def decodeRowCells (rewrappedRow : RewrappedRow) : Option (List Cell) :=
  rewrappedRow.rowSnapshot.decodeRowCells.map (·.take rewrappedRow.rowCellCount)

end RewrappedRow

structure SourceRow where
  logicalLineIndex : Nat
  startContentCellOffset : Nat
  contributedCellCount : Nat
  rowEnd : RowEnd
  deriving DecidableEq, Repr

/-- The rows one logical line re-wraps into. -/
structure RewrappedLineShape where
  firstRewrappedRowIndex : Nat
  rowCount : Nat
  deriving DecidableEq, Repr

/-- The rows a reflow has re-wrapped so far, oldest first, and where the cursor lands. -/
structure ReflowOutput where
  columnCount : Nat
  backgroundStyle : Style
  rewrappedRows : List RewrappedRow
  rewrappedLineShapes : List RewrappedLineShape
  rewrappedRowContentCellCounts : List Nat
  sourceRows : List SourceRow
  newCursorPhysicalRowIndex : Nat
  newCursorColumnIndex : Nat
  deriving DecidableEq

namespace ReflowOutput

/-- An output with no row yet. -/
def fromColumnCount (columnCount : Nat) (backgroundStyle : Style) : ReflowOutput :=
  ⟨columnCount, backgroundStyle, [], [], [], [], 0, 0⟩

def markPromptRows (lineRowContentCellCounts : List Nat) (promptCellOffsets : List Nat)
    (rowSpans : List RewrappedRowSpan) : List RewrappedRowSpan :=
  promptCellOffsets.foldl (fun rowSpans promptCellOffset =>
    rowSpans.modify (locateContentCellOffset lineRowContentCellCounts promptCellOffset).1 fun rowSpan =>
      { rowSpan with rowMetadata := { rowSpan.rowMetadata with hasPromptMark := true } }) rowSpans

def buildSpanRow (columnCount : Nat) (backgroundStyle : Style) (lineCells : List Cell) (rowSpan : RewrappedRowSpan) :
    RewrappedRow :=
  let spanCells := sliceRange lineCells rowSpan.firstCellIndex rowSpan.endCellIndex
  let hasStyledSpacer := rowSpan.rowMetadata.rowEnd = .softWide ∧ backgroundStyle ≠ .default
  let leadingCells := if hasStyledSpacer then spanCells ++ [.buildBlankWithStyle backgroundStyle] else spanCells
  .fromLeadingCells leadingCells rowSpan.countRowCells rowSpan.rowMetadata columnCount

/-- Re-wraps `logicalLine` and appends its rows. A cursor offset moves the cursor to where its cell lands. -/
def pushLogicalLine (reflowOutput : ReflowOutput) (logicalLine : LogicalLine) (cursorContentCellOffset : Option Nat) :
    ReflowOutput :=
  let lineCells := if reflowOutput.columnCount ≤ 1 then narrowWideGlyphs logicalLine.cells else logicalLine.cells
  let lineStartRowIndex := reflowOutput.rewrappedRows.length
  let rowSpans := computeRewrappedRowSpans lineCells reflowOutput.columnCount
  let lineRowContentCellCounts := rowSpans.map (·.countContentCells)
  let (newCursorPhysicalRowIndex, newCursorColumnIndex) :=
    match cursorContentCellOffset with
    | some cursorContentCellOffset =>
      let (rowIndexWithinLine, columnIndex) :=
        locateContentCellOffset lineRowContentCellCounts cursorContentCellOffset
      (lineStartRowIndex + rowIndexWithinLine, columnIndex)
    | none => (reflowOutput.newCursorPhysicalRowIndex, reflowOutput.newCursorColumnIndex)
  let markedRowSpans := markPromptRows lineRowContentCellCounts logicalLine.promptCellOffsets rowSpans
  { reflowOutput with
    rewrappedLineShapes := reflowOutput.rewrappedLineShapes ++ [⟨lineStartRowIndex, rowSpans.length⟩]
    rewrappedRowContentCellCounts := reflowOutput.rewrappedRowContentCellCounts ++ lineRowContentCellCounts
    newCursorPhysicalRowIndex
    newCursorColumnIndex
    rewrappedRows := reflowOutput.rewrappedRows ++
      markedRowSpans.map (buildSpanRow reflowOutput.columnCount reflowOutput.backgroundStyle lineCells) }

/-- Appends the logical line of one hard-ended row that keeps its cells. -/
def pushRepaddedLine (reflowOutput : ReflowOutput) (repaddedRow : RepaddedRow) : ReflowOutput :=
  { reflowOutput with
    rewrappedLineShapes := reflowOutput.rewrappedLineShapes ++ [⟨reflowOutput.rewrappedRows.length, 1⟩]
    rewrappedRowContentCellCounts := reflowOutput.rewrappedRowContentCellCounts ++ [repaddedRow.runCellCount]
    rewrappedRows := reflowOutput.rewrappedRows ++ [⟨repaddedRow.rowSnapshot, repaddedRow.runCellCount⟩] }

def pushSourceRow (reflowOutput : ReflowOutput) (sourceRow : SourceRow) : ReflowOutput :=
  { reflowOutput with sourceRows := reflowOutput.sourceRows ++ [sourceRow] }

end ReflowOutput

/-! ## The two reflows -/

/-- The part of the terminal that a reflow of the primary screen reads and writes. -/
structure PrimaryScreen where
  primary : Grid
  scrollback : Scrollback
  cursorRow : Nat
  cursorColumn : Nat
  deriving DecidableEq

/-- One row the reflow reads: a history line, or a row of the live screen. -/
inductive PhysicalRow where
  | history (rowSnapshot : RowSnapshot)
  | screen (rowCells : List Cell) (rowMetadata : RowMetadata)

/-- What the loop of `rewrap_primary_rows` carries from row to row. -/
structure RewrapState where
  reflowOutput : ReflowOutput
  currentLogicalLine : LogicalLine
  cursorContentCellOffset : Option Nat
  deriving DecidableEq

namespace RewrapState

/-- A row whose cells now end the line, from `rowStartCellOffset` on: cuts it to its content, records it, and ends the
line at a hard row end. -/
def finishRow (state : RewrapState) (lineCells : List Cell) (rowMetadata : RowMetadata) (isCursorRow : Bool)
    (cursorColumnIndex : Nat) : RewrapState :=
  let rowStartCellOffset := state.currentLogicalLine.cells.length
  let rowCells := lineCells.drop rowStartCellOffset
  let contentCellCount :=
    match rowMetadata.rowEnd with
    | .soft => rowCells.length
    | .softWide => rowCells.length - 1
    | .hard => countRowContentCells rowCells
  let currentLogicalLine : LogicalLine :=
    ⟨lineCells.take (rowStartCellOffset + contentCellCount),
      state.currentLogicalLine.promptCellOffsets ++ if rowMetadata.hasPromptMark then [rowStartCellOffset] else []⟩
  let reflowOutput := state.reflowOutput.pushSourceRow
    ⟨state.reflowOutput.rewrappedLineShapes.length, rowStartCellOffset, contentCellCount, rowMetadata.rowEnd⟩
  let cursorContentCellOffset :=
    if isCursorRow then
      some (rowStartCellOffset +
        if rowMetadata.rowEnd = .hard then cursorColumnIndex else min cursorColumnIndex contentCellCount)
    else state.cursorContentCellOffset
  if rowMetadata.rowEnd = .hard then
    ⟨reflowOutput.pushLogicalLine currentLogicalLine cursorContentCellOffset, .default, none⟩
  else ⟨reflowOutput, currentLogicalLine, cursorContentCellOffset⟩

/-- One turn of the loop; `none` where the source panics, on bytes that do not decode. -/
def pushPhysicalRow (state : RewrapState) (physicalRow : PhysicalRow) (isCursorRow : Bool) (cursorColumnIndex : Nat) :
    Option RewrapState := do
  match physicalRow with
  | .history rowSnapshot =>
    let isLineStart := state.currentLogicalLine.cells.isEmpty && state.currentLogicalLine.promptCellOffsets.isEmpty
    let repaddedRow ←
      if isLineStart && state.reflowOutput.columnCount > 1 then rowSnapshot.repadHardRow state.reflowOutput.columnCount
      else some none
    match repaddedRow with
    | some repaddedRow =>
      some { state with
        reflowOutput := (state.reflowOutput.pushSourceRow
          ⟨state.reflowOutput.rewrappedLineShapes.length, 0, repaddedRow.runCellCount, .hard⟩).pushRepaddedLine
            repaddedRow }
    | none =>
      let rowMetadata := rowSnapshot.rowMetadata
      let (encodedRowShape, lineCells) ← rowSnapshot.decodeRowRunCellsInto state.currentLogicalLine.cells
      let lineCells :=
        if rowMetadata.rowEnd ≠ .hard then
          Grid.resizeCells lineCells (state.currentLogicalLine.cells.length + encodedRowShape.columnCount) .buildBlank
        else lineCells
      some (state.finishRow lineCells rowMetadata isCursorRow cursorColumnIndex)
  | .screen rowCells rowMetadata =>
    some (state.finishRow (state.currentLogicalLine.cells ++ rowCells) rowMetadata isCursorRow cursorColumnIndex)

/-- The loop over the rows, the first of them at `physicalRowIndex`. -/
def pushPhysicalRows (cursorPhysicalRowIndex cursorColumnIndex : Nat) :
    (physicalRowIndex : Nat) → List PhysicalRow → RewrapState → Option RewrapState
  | _, [], state => some state
  | physicalRowIndex, physicalRow :: physicalRows, state => do
    let state ← state.pushPhysicalRow physicalRow (physicalRowIndex == cursorPhysicalRowIndex) cursorColumnIndex
    pushPhysicalRows cursorPhysicalRowIndex cursorColumnIndex (physicalRowIndex + 1) physicalRows state

/-- A trailing soft-wrapped row with no hard end below it still forms a line, as does a prompt mark on an empty tail. -/
def finishLines (state : RewrapState) : ReflowOutput :=
  if !state.currentLogicalLine.cells.isEmpty || !state.currentLogicalLine.promptCellOffsets.isEmpty then
    state.reflowOutput.pushLogicalLine state.currentLogicalLine state.cursorContentCellOffset
  else state.reflowOutput

end RewrapState

structure KeptRowReflow where
  reflowOutput : ReflowOutput
  currentLineFirstRowIndex : Nat
  currentLineCellCount : Nat
  previousRowEnd : RowEnd
  deriving DecidableEq

def isWideGlyphFirst (rowCells : List Cell) : Bool := rowCells.head?.any (·.displayWidth == 2)

namespace KeptRowReflow

/-- Adds the shape of one kept row and returns the row's cell count; `none` when a re-wrap changes the row. -/
def pushKeptRow (kept : KeptRowReflow) (rowMetadata : RowMetadata) (contentCellCount : Nat)
    (hasLeadingWideGlyph hasTrailingSpacer : Bool) : Option (Nat × KeptRowReflow) :=
  let columnCellCount := kept.reflowOutput.columnCount
  let (rowCellCount, contributedCellCount) :=
    match rowMetadata.rowEnd with
    | .hard => (contentCellCount, contentCellCount)
    | .soft => (columnCellCount, columnCellCount)
    | .softWide => (columnCellCount, columnCellCount - 1)
  let isKeptAfterPreviousRow :=
    match kept.previousRowEnd with
    | .hard => true
    | .soft => decide (contributedCellCount > 0)
    | .softWide => hasLeadingWideGlyph
  if !isKeptAfterPreviousRow || (rowMetadata.rowEnd == .softWide && !hasTrailingSpacer) then none
  else
    let reflowOutput := kept.reflowOutput.pushSourceRow
      ⟨kept.reflowOutput.rewrappedLineShapes.length, kept.currentLineCellCount, contributedCellCount,
        rowMetadata.rowEnd⟩
    let reflowOutput := { reflowOutput with
      rewrappedRowContentCellCounts := reflowOutput.rewrappedRowContentCellCounts ++ [contributedCellCount] }
    if rowMetadata.rowEnd = .hard then
      let rowIndexAfterLine := reflowOutput.sourceRows.length
      some (rowCellCount,
        ⟨{ reflowOutput with
            rewrappedLineShapes := reflowOutput.rewrappedLineShapes ++
              [⟨kept.currentLineFirstRowIndex, rowIndexAfterLine - kept.currentLineFirstRowIndex⟩] },
          rowIndexAfterLine, 0, rowMetadata.rowEnd⟩)
    else
      some (rowCellCount,
        ⟨reflowOutput, kept.currentLineFirstRowIndex, kept.currentLineCellCount + contributedCellCount,
          rowMetadata.rowEnd⟩)

/-- The caller's push of the row itself. -/
def pushRewrappedRow (kept : KeptRowReflow) (rewrappedRow : RewrappedRow) : KeptRowReflow :=
  { kept with reflowOutput :=
    { kept.reflowOutput with rewrappedRows := kept.reflowOutput.rewrappedRows ++ [rewrappedRow] } }

/-- One history line. The outer `none` is where the source panics: on bytes that do not decode, and on a count of
trailing blanks past the width. -/
def pushHistoryLine (kept : KeptRowReflow) (historyLine : RowSnapshot) : Option (Option KeptRowReflow) := do
  let spacerCell := Cell.buildBlankWithStyle kept.reflowOutput.backgroundStyle
  let rowMetadata := historyLine.rowMetadata
  let encodedRowShape ← historyLine.getEncodedRowShape
  let rowCells ←
    if kept.previousRowEnd = .softWide ∨ rowMetadata.rowEnd = .softWide then historyLine.decodeRowCells else some []
  let contentCellCount ←
    if encodedRowShape.trailingBlankCount ≤ kept.reflowOutput.columnCount then
      some (kept.reflowOutput.columnCount - encodedRowShape.trailingBlankCount)
    else none
  some ((kept.pushKeptRow rowMetadata contentCellCount (isWideGlyphFirst rowCells)
    (rowCells.getLast? == some spacerCell)).map fun (rowCellCount, kept) =>
      kept.pushRewrappedRow ⟨historyLine, rowCellCount⟩)

def pushHistoryLines : List RowSnapshot → KeptRowReflow → Option (Option KeptRowReflow)
  | [], kept => some (some kept)
  | historyLine :: historyLines, kept => do
    match ← kept.pushHistoryLine historyLine with
    | none => some none
    | some kept => pushHistoryLines historyLines kept

def pushScreenRow (kept : KeptRowReflow) (cursorPhysicalRowIndex cursorColumnIndex : Nat) (rowCells : List Cell)
    (rowMetadata : RowMetadata) : Option KeptRowReflow := do
  let spacerCell := Cell.buildBlankWithStyle kept.reflowOutput.backgroundStyle
  let columnCount := kept.reflowOutput.columnCount
  let physicalRowIndex := kept.reflowOutput.rewrappedRows.length
  let kept ←
    if physicalRowIndex = cursorPhysicalRowIndex then
      if rowMetadata.rowEnd = .softWide ∧ cursorColumnIndex + 1 ≥ columnCount then none
      else
        some { kept with reflowOutput := { kept.reflowOutput with
          newCursorPhysicalRowIndex := physicalRowIndex
          newCursorColumnIndex := cursorColumnIndex } }
    else some kept
  let (rowCellCount, kept) ← kept.pushKeptRow rowMetadata (countRowContentCells rowCells) (isWideGlyphFirst rowCells)
    (rowCells.getLast? == some spacerCell)
  some (kept.pushRewrappedRow (.fromLeadingCells rowCells rowCellCount rowMetadata columnCount))

def pushScreenRows (cursorPhysicalRowIndex cursorColumnIndex : Nat) :
    List (List Cell × RowMetadata) → KeptRowReflow → Option KeptRowReflow
  | [], kept => some kept
  | (rowCells, rowMetadata) :: screenRows, kept => do
    let kept ← kept.pushScreenRow cursorPhysicalRowIndex cursorColumnIndex rowCells rowMetadata
    pushScreenRows cursorPhysicalRowIndex cursorColumnIndex screenRows kept

end KeptRowReflow

variable (screen : PrimaryScreen)

namespace PrimaryScreen

def listScreenRows : List (List Cell × RowMetadata) :=
  screen.primary.rows.map fun row => (row.cells, row.rowMetadata)

/-- The output that keeps every row as it is; the inner `none` when a re-wrap gives other rows, the outer one where the
source panics. -/
def keepPrimaryRows (columnCount : Nat) (backgroundStyle : Style) : Option (Option ReflowOutput) := do
  let (screenRowCount, screenColumnCount) := screen.primary.getGridDimensions
  if columnCount < 2 ∨ columnCount ≠ screenColumnCount ∨ screenRowCount = 0 then some none
  else
    let historyLines := screen.scrollback.retainedLines
    let cursorPhysicalRowIndex := historyLines.length + screen.cursorRow
    let kept ← KeptRowReflow.pushHistoryLines historyLines ⟨.fromColumnCount columnCount backgroundStyle, 0, 0, .hard⟩
    some do
      let kept ← KeptRowReflow.pushScreenRows cursorPhysicalRowIndex screen.cursorColumn screen.listScreenRows (← kept)
      if kept.previousRowEnd ≠ .hard then none else some kept.reflowOutput

/-- Every row, history first. -/
def listPhysicalRows : List PhysicalRow :=
  screen.scrollback.retainedLines.map .history ++
    screen.listScreenRows.map fun (rowCells, rowMetadata) => .screen rowCells rowMetadata

/-- The output built by unwinding every row into logical lines and re-wrapping each line; `none` where the source
panics. -/
def rewrapPrimaryRows (columnCount : Nat) (backgroundStyle : Style) : Option ReflowOutput := do
  let cursorPhysicalRowIndex := screen.scrollback.retainedLines.length + screen.cursorRow
  let state ← RewrapState.pushPhysicalRows cursorPhysicalRowIndex screen.cursorColumn 0 screen.listPhysicalRows
    ⟨.fromColumnCount columnCount backgroundStyle, .default, none⟩
  some state.finishLines

end PrimaryScreen

/-! ## Applying the output -/

/-- The row ends hard, has no prompt mark and holds only default blanks; `none` where the source panics. -/
def RewrappedRow.isDroppable (rewrappedRow : RewrappedRow) : Option Bool :=
  let rowMetadata := rewrappedRow.rowSnapshot.rowMetadata
  if rowMetadata.rowEnd = .hard ∧ rowMetadata.hasPromptMark = false then
    rewrappedRow.decodeRowCells.map fun rowCells => countRowContentCells rowCells == 0
  else some false

/-- Drops blank rows below the cursor down to the screen height, from the last one on: the rows come newest first. -/
def dropTrailingBlankRows (rowCount newCursorPhysicalRowIndex : Nat) : List RewrappedRow → Option (List RewrappedRow)
  | [] => some []
  | lastRow :: earlierRows =>
    if earlierRows.length + 1 > rowCount ∧ earlierRows.length + 1 > newCursorPhysicalRowIndex + 1 then do
      if ← lastRow.isDroppable then dropTrailingBlankRows rowCount newCursorPhysicalRowIndex earlierRows
      else some (lastRow :: earlierRows)
    else some (lastRow :: earlierRows)

namespace PrimaryScreen

/-- Makes the output the primary screen and its history: blank rows below the cursor that do not fit are dropped, the
rows past the height go to history, and the screen is padded with blank rows. -/
def applyReflowOutput (rowCount columnCount : Nat) (reflowOutput : ReflowOutput) (oldRetainedHistoryRowCount : Nat) :
    Option PrimaryScreen := do
  let backgroundStyle := reflowOutput.backgroundStyle
  let rewrappedRows :=
    if reflowOutput.rewrappedRows.isEmpty && rowCount > 0 then
      [RewrappedRow.fromLeadingCells [] 0 .default columnCount]
    else reflowOutput.rewrappedRows
  let newestFirst ← dropTrailingBlankRows rowCount reflowOutput.newCursorPhysicalRowIndex rewrappedRows.reverse
  let rewrappedRows := newestFirst.reverse
  let overflowRowCount := rewrappedRows.length - rowCount
  let historyRows := (rewrappedRows.take overflowRowCount).map (·.rowSnapshot)
  let scrollback := screen.scrollback.replaceRetainedLines historyRows oldRetainedHistoryRowCount
  let screenRows ← (rewrappedRows.drop overflowRowCount).mapM fun rewrappedRow =>
    rewrappedRow.decodeRowCells.map fun rowCells => (rowCells, rewrappedRow.rowSnapshot.rowMetadata)
  let blankRow := (List.replicate columnCount (Cell.buildBlankWithStyle backgroundStyle), RowMetadata.default)
  let screenRows := screenRows ++ List.replicate (rowCount - screenRows.length) blankRow
  some ⟨.fromRowsWithMetadata screenRows columnCount backgroundStyle, scrollback,
    asU16 (min (reflowOutput.newCursorPhysicalRowIndex - overflowRowCount) (rowCount - 1)),
    asU16 (min reflowOutput.newCursorColumnIndex (columnCount - 1))⟩

/-- Rebuilds the primary screen and its history at another size. `backgroundStyle` is the background fill of the
primary screen's pen. -/
def reflowPrimary (rowCount columnCount : Nat) (backgroundStyle : Style) : Option PrimaryScreen := do
  let oldRetainedHistoryRowCount := screen.scrollback.retainedLines.length
  match ← screen.keepPrimaryRows columnCount backgroundStyle with
  | some reflowOutput => screen.applyReflowOutput rowCount columnCount reflowOutput oldRetainedHistoryRowCount
  | none =>
    let reflowOutput ← screen.rewrapPrimaryRows columnCount backgroundStyle
    let screen := { screen with scrollback := screen.scrollback.takeRetainedLines.2 }
    screen.applyReflowOutput rowCount columnCount reflowOutput oldRetainedHistoryRowCount

end PrimaryScreen

end Koshi.Terminal
