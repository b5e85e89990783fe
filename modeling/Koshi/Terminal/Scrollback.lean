import Koshi.Terminal.Grid

/-!
# Scrollback

The history of one pane (`koshi-terminal/src/scrollback.rs`): the rows that scrolled off the top of the primary screen,
capped by a row count and by a byte count. A callback on evicted rows is the list of rows it sees. A subtraction from
the byte count is cut off at zero; that it never is, follows from `Scrollback.Bounded`.
-/

namespace Koshi.Terminal

open Base

/-- The caps of one pane's scrollback. -/
structure ScrollbackLimit where
  maximumLineCount : Nat
  maximumByteCount : Nat
  deriving DecidableEq, Repr

/-- The scrollback of one pane, oldest row first. -/
structure Scrollback where
  retainedLines : List RowSnapshot
  maximumLineCount : Nat
  maximumByteCount : Nat
  retainedByteCount : Nat
  totalPushedLineCount : Nat
  deriving DecidableEq

variable (retainedLines : List RowSnapshot)

def computeRetainedByteCount : Nat := (retainedLines.map (·.textByteCount)).sum

/-- Brings `rowCells` to exactly `columnCount` cells. A wide glyph whose right half falls past the edge is blanked. -/
def cropColumns (rowCells : List Cell) (columnCount : Nat) (fillStyle : Style) : List Cell :=
  let blankCell := Cell.buildBlankWithStyle fillStyle
  let rowCells := Grid.resizeCells rowCells columnCount blankCell
  if rowCells.getLast?.any (·.displayWidth > 1) then rowCells.dropLast ++ [blankCell] else rowCells

namespace Scrollback

/-- An empty buffer. -/
def fromScrollbackLimit (scrollbackLimit : ScrollbackLimit) : Scrollback :=
  ⟨[], scrollbackLimit.maximumLineCount, scrollbackLimit.maximumByteCount, 0, 0⟩

variable (scrollback : Scrollback)

/-- At the line cap or over it, drops the oldest row ahead of the next push. Returns the row it dropped. -/
def evictOldestLineForNextPush : Option RowSnapshot × Scrollback :=
  if scrollback.retainedLines.length < scrollback.maximumLineCount then (none, scrollback)
  else
    match scrollback.retainedLines with
    | [] => (none, scrollback)
    | oldestLine :: retainedLines =>
      (some oldestLine, { scrollback with
        retainedLines
        retainedByteCount := scrollback.retainedByteCount - oldestLine.textByteCount })

def evictLines (maximumLineCount maximumByteCount : Nat) :
    List RowSnapshot → Nat → List RowSnapshot × List RowSnapshot × Nat
  | [], retainedByteCount => ([], [], retainedByteCount)
  | oldestLine :: retainedLines, retainedByteCount =>
    if retainedLines.length + 1 > maximumLineCount ∨
        retainedByteCount > maximumByteCount ∧ retainedLines.length + 1 > 1 then
      let (evictedLines, keptLines, keptByteCount) :=
        evictLines maximumLineCount maximumByteCount retainedLines (retainedByteCount - oldestLine.textByteCount)
      (oldestLine :: evictedLines, keptLines, keptByteCount)
    else ([], oldestLine :: retainedLines, retainedByteCount)

/-- Drops the oldest rows until both caps hold; the byte cap never drops the sole remaining row. -/
def evictOldestLinesToLimits : List RowSnapshot × Scrollback :=
  let (evictedLines, keptLines, keptByteCount) := evictLines scrollback.maximumLineCount scrollback.maximumByteCount
    scrollback.retainedLines scrollback.retainedByteCount
  (evictedLines, { scrollback with retainedLines := keptLines, retainedByteCount := keptByteCount })

/-- Appends the newest row, then applies both caps. -/
def pushRowWithEvicted (rowSnapshot : RowSnapshot) : List RowSnapshot × Scrollback :=
  evictOldestLinesToLimits { scrollback with
    retainedByteCount := scrollback.retainedByteCount + rowSnapshot.textByteCount
    retainedLines := scrollback.retainedLines ++ [rowSnapshot]
    totalPushedLineCount := scrollback.totalPushedLineCount + 1 }

/-- Removes every row. -/
def takeRetainedLines : List RowSnapshot × Scrollback :=
  (scrollback.retainedLines, { scrollback with retainedLines := [], retainedByteCount := 0 })

/-- Replaces every row, then applies both caps. -/
def replaceRetainedLines (retainedLineCountBefore : Nat) :
    Scrollback :=
  let scrollback := (evictOldestLinesToLimits { scrollback with
    retainedLines
    retainedByteCount := computeRetainedByteCount retainedLines }).2
  { scrollback with
    totalPushedLineCount :=
      scrollback.totalPushedLineCount + (scrollback.retainedLines.length - retainedLineCountBefore) }

/-- Drops every row. -/
def clearScrollback : Scrollback :=
  { scrollback with retainedLines := [], retainedByteCount := 0 }

/-- The buffer of stored rows under both caps. -/
def fromStoredLines (maximumLineCount maximumByteCount totalPushedLineCount : Nat) :
    Scrollback :=
  (evictOldestLinesToLimits ⟨retainedLines, maximumLineCount, maximumByteCount, computeRetainedByteCount retainedLines,
    totalPushedLineCount⟩).2

/-- One row at `columnCount` cells; `none` where the source panics, on bytes that do not decode. -/
def fitLine (columnCount : Nat) (retainedLine : RowSnapshot) : Option RowSnapshot := do
  let encodedRowShape ← retainedLine.getEncodedRowShape
  if encodedRowShape.columnCount = columnCount then some retainedLine
  else
    let rowCells ← retainedLine.decodeRowCells
    some (.fromRowCells (cropColumns rowCells columnCount .default) retainedLine.rowMetadata)

/-- Brings each row of another width to `columnCount` cells and counts the bytes again. -/
def fitLinesToColumnCount (columnCount : Nat) : Option Scrollback := do
  let retainedLines ← scrollback.retainedLines.mapM (fitLine columnCount)
  some { scrollback with
    retainedLines
    retainedByteCount := computeRetainedByteCount retainedLines }

end Scrollback

end Koshi.Terminal
