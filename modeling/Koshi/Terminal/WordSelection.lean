import Koshi.Base.Walk
import Koshi.Terminal.TextView

/-!
# Word selection

Growing a selection to a whole word (`koshi-terminal/src/selection.rs`). A position is a row and a column. Each of the
two loops that step over the text cells is a walk over the cells of one logical line, and each of the two that grow a
word is a walk over its text cells. The reads of one call all start at the view it was given: the row that a view keeps
decoded changes no answer. A row whose bytes do not decode, at which the source panics, reads as one that is gone.
-/

namespace Koshi.Terminal

open Base Option

/-- The characters that end a word for a double-click selection. -/
def wordSeparators : List Char := ",│`|:\"' ()[]\x7b\x7d<>\t".toList

namespace TextView

variable (view : TextView)

/-- The newest row: the bottom of the live screen. -/
def getLastRowIndex : Nat := view.liveScreenTopRowNumber + (view.screenGrid.getGridDimensions.1 - 1)

variable (rowIndex columnIndex : Nat)

/-- The cell a call reads, `none` where the row is gone or the column is past the screen's width. -/
def readCell : Option Cell := (view.getCell rowIndex columnIndex).bind (·.1)

/-- The row and the row below hold one logical line. -/
def isSoftWrapped (rowIndex : Nat) : Bool :=
  match view.getRowEnd rowIndex with
  | some .soft | some .softWide => true
  | _ => false

/-- The blank last column left when a wide glyph wrapped whole onto the next row. -/
def isWideWrapSpacer : Bool :=
  view.getRowEnd rowIndex = some .softWide && columnIndex + 1 = view.getColumnCount

def isSeparator : Bool :=
  ((view.readCell rowIndex columnIndex).map fun cell => wordSeparators.contains cell.character).getD true

/-- The cell holds layout rather than text: the right half of a wide glyph, or a wrap spacer. -/
def isLayoutCell : Bool :=
  view.isWideWrapSpacer rowIndex columnIndex ||
    ((view.readCell rowIndex columnIndex).map fun cell => decide (cell.displayWidth = 0)).getD false

theorem lt_row_add {rank count columnCount d : Nat} (h : count ≤ columnCount) :
    rank + count < rank + (columnCount + 1) + d :=
  Nat.lt_of_lt_of_le (Nat.add_lt_add_left (Nat.lt_succ_of_le h) rank) (Nat.le_add_right _ _)

/-- The cells before a position in its logical line. -/
def previousCells : Walk (Nat × Nat) where
  step := fun (rowIndex, columnIndex) =>
    if columnIndex > 0 then some (rowIndex, columnIndex - 1)
    else if rowIndex > view.getFirstRowIndex ∧ view.isSoftWrapped (rowIndex - 1) then
      some (rowIndex - 1, view.getColumnCount - 1)
    else none
  rank := fun (rowIndex, columnIndex) => rowIndex * (view.getColumnCount + 1) + columnIndex
  rank_lt := by
    rintro ⟨rowIndex, columnIndex⟩ b hstep
    dsimp only at hstep
    split_ifs at hstep with hcolumn hrow
    · obtain rfl := some_inj.1 hstep
      exact Nat.add_lt_add_left (Nat.sub_lt hcolumn Nat.one_pos) _
    · obtain rfl := some_inj.1 hstep
      obtain ⟨previousRow, rfl⟩ := Nat.exists_eq_succ_of_ne_zero (Nat.ne_of_gt (Nat.zero_lt_of_lt hrow.1))
      dsimp only
      rw [Nat.succ_sub_one, Nat.succ_mul]
      exact lt_row_add (Nat.sub_le _ _)

/-- The cells after a position in its logical line. -/
def nextCells : Walk (Nat × Nat) where
  step := fun (rowIndex, columnIndex) =>
    if columnIndex < view.getColumnCount - 1 then some (rowIndex, columnIndex + 1)
    else if rowIndex < view.getLastRowIndex ∧ view.isSoftWrapped rowIndex then some (rowIndex + 1, 0)
    else none
  rank := fun (rowIndex, columnIndex) =>
    (view.getLastRowIndex - rowIndex) * (view.getColumnCount + 1) + (view.getColumnCount - columnIndex)
  rank_lt := by
    rintro ⟨rowIndex, columnIndex⟩ b hstep
    dsimp only at hstep
    split_ifs at hstep with hcolumn hrow
    · obtain rfl := some_inj.1 hstep
      exact Nat.add_lt_add_left (Nat.sub_succ_lt_self _ _ (Nat.lt_of_lt_of_le hcolumn (Nat.sub_le _ _))) _
    · obtain rfl := some_inj.1 hstep
      have hrows : view.getLastRowIndex - rowIndex = view.getLastRowIndex - (rowIndex + 1) + 1 :=
        (Nat.succ_pred_eq_of_pos (Nat.sub_pos_of_lt hrow.1)).symm
      dsimp only
      rw [hrows, Nat.succ_mul]
      exact lt_row_add (Nat.sub_le _ _)

variable (position : Nat × Nat)

/-- The text cell before a position, across a soft wrap; layout cells are skipped. -/
def findPreviousTextCell : Option (Nat × Nat) :=
  view.previousCells.find (fun (rowIndex, columnIndex) => !view.isLayoutCell rowIndex columnIndex) position

/-- The text cell after a position, across a soft wrap. -/
def findNextTextCell : Option (Nat × Nat) :=
  view.nextCells.find (fun (rowIndex, columnIndex) => !view.isLayoutCell rowIndex columnIndex) position

/-- The separator at a position; what cannot be read is a blank. -/
def findSeparatorCharacter : Option Char :=
  ((view.readCell rowIndex columnIndex).map fun cell =>
    if cell.displayWidth = 0 then none
    else if wordSeparators.contains cell.character then some cell.character else none).getD (some ' ')

/-- Stepping onto the position leaves the word, or the run of one separator, that is being grown. -/
def isWordBoundary (separatorRun : Option Char) (rowIndex columnIndex : Nat) : Bool :=
  match separatorRun with
  | some separatorCharacter =>
    ((view.readCell rowIndex columnIndex).map fun cell => decide (cell.character ≠ separatorCharacter)).getD true
  | none => view.isSeparator rowIndex columnIndex

/-- The text cells before a position in its logical line. -/
def previousTextCells : Walk (Nat × Nat) where
  step := view.findPreviousTextCell
  rank := view.previousCells.rank
  rank_lt := Walk.rank_find

/-- The text cells after a position in its logical line. -/
def nextTextCells : Walk (Nat × Nat) where
  step := view.findNextTextCell
  rank := view.nextCells.rank
  rank_lt := Walk.rank_find

def getWordStartPosition : Nat × Nat :=
  let separatorRun := view.findSeparatorCharacter position.1 position.2
  view.previousTextCells.last (fun (rowIndex, columnIndex) => !view.isWordBoundary separatorRun rowIndex columnIndex)
    position

def getWordEndPosition : Nat × Nat :=
  let separatorRun := view.findSeparatorCharacter position.1 position.2
  view.nextTextCells.last (fun (rowIndex, columnIndex) => !view.isWordBoundary separatorRun rowIndex columnIndex)
    position

end TextView

end Koshi.Terminal
