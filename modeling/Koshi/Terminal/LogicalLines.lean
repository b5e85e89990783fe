import Koshi.Base.Slice
import Koshi.Terminal.RowSnapshot

/-!
# Logical lines

What a terminal's rows say, however they are wrapped: rows join into lines across their soft ends, and a prompt mark
belongs to the place in its line where its row starts. Blanks at the end of a line and empty lines at the end say
nothing. This is what a reflow is to keep; it is stated on rows of cells and knows nothing of how a reflow works.
-/

namespace Koshi.Terminal

structure CellRow where
  rowCells : List Cell
  rowMetadata : RowMetadata
  deriving DecidableEq

/-- The cells the row gives to its line: a soft-wide row's last cell only stands in for the glyph of the next row. -/
def CellRow.lineCells (row : CellRow) : List Cell :=
  match row.rowMetadata.rowEnd with
  | .softWide => row.rowCells.dropLast
  | .soft | .hard => row.rowCells

def joinLines (line : List Cell) : List CellRow → List (List Cell)
  | [] => [line]
  | row :: rows =>
    if row.rowMetadata.rowEnd = .hard then (line ++ row.lineCells) :: joinLines [] rows
    else joinLines (line ++ row.lineCells) rows

def isFillBlank (fillStyle : Style) (cell : Cell) : Bool :=
  cell == .buildBlank || cell == .buildBlankWithStyle fillStyle

/-- A line without the blanks at its end. -/
def trimLine (fillStyle : Style) (line : List Cell) : List Cell := line.rdropWhile (isFillBlank fillStyle)

/-- Lines without the blanks at their ends, and without the empty lines at the end. -/
def trimLines (fillStyle : Style) (lines : List (List Cell)) : List (List Cell) :=
  (lines.map (trimLine fillStyle)).rdropWhile List.isEmpty

/-- **What the rows say.** -/
def listLogicalLines (fillStyle : Style) (rows : List CellRow) : List (List Cell) :=
  trimLines fillStyle (joinLines [] rows)

structure RowPlace where
  lineIndex : Nat
  startOffset : Nat
  cellCount : Nat
  rowMetadata : RowMetadata
  deriving DecidableEq

def placeRows (lineIndex startOffset : Nat) : List CellRow → List RowPlace
  | [] => []
  | row :: rows =>
    ⟨lineIndex, startOffset, row.lineCells.length, row.rowMetadata⟩ ::
      if row.rowMetadata.rowEnd = .hard then placeRows (lineIndex + 1) 0 rows
      else placeRows lineIndex (startOffset + row.lineCells.length) rows

def RowPlace.Holds (place : RowPlace) (lineIndex offset : Nat) : Prop :=
  place.lineIndex = lineIndex ∧ place.startOffset ≤ offset ∧
    (offset < place.startOffset + place.cellCount ∨ place.rowMetadata.rowEnd = .hard)

/-- **Marks stay where they were**: every marked row's start is on a marked row afterwards, and every marked row
afterwards holds the start of one that was marked. -/
structure KeepsMarks (rows newRows : List CellRow) : Prop where
  kept : ∀ place ∈ placeRows 0 0 rows, place.rowMetadata.hasPromptMark = true →
    ∃ newPlace ∈ placeRows 0 0 newRows, newPlace.rowMetadata.hasPromptMark = true ∧
      newPlace.Holds place.lineIndex place.startOffset
  only : ∀ newPlace ∈ placeRows 0 0 newRows, newPlace.rowMetadata.hasPromptMark = true →
    ∃ place ∈ placeRows 0 0 rows, place.rowMetadata.hasPromptMark = true ∧
      newPlace.Holds place.lineIndex place.startOffset

end Koshi.Terminal
