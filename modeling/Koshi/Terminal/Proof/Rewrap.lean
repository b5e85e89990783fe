import Mathlib.Tactic
import Koshi.Terminal.LogicalLines
import Koshi.Terminal.Proof.RowRuns

/-!
# The re-wrap on rows of cells

The loop of a re-wrap reads history rows from their encodings, and takes a shortcut for a short hard-ended one. Row by
row this is one step on the row's cells: its content joins the current line, and a hard end re-wraps the line.
-/

namespace Koshi.Terminal

open Base Koshi.Core List CellRow ReflowOutput

/-! ### Rows of cells -/

namespace CellRow

variable {row : CellRow}

/-- What the row adds to its logical line. -/
def content (row : CellRow) : List Cell :=
  match row.rowMetadata.rowEnd with
  | .soft => row.rowCells
  | .softWide => row.rowCells.take (row.rowCells.length - 1)
  | .hard => row.rowCells.take (countRowContentCells row.rowCells)

/-- The row in history. -/
def toSnapshot (row : CellRow) : RowSnapshot := .fromRowCells row.rowCells row.rowMetadata

/-- What the terminal promises of a row. -/
structure IsProper (row : CellRow) : Prop where
  cells : ∀ cell ∈ row.rowCells, cell.IsProper
  length : row.rowCells.length ≤ u16Max

theorem content_soft (h : row.rowMetadata.rowEnd = .soft) : row.content = row.rowCells := by
  simp [content, h]

theorem content_softWide (h : row.rowMetadata.rowEnd = .softWide) :
    row.content = row.rowCells.take (row.rowCells.length - 1) := by
  simp [content, h]

theorem content_hard (h : row.rowMetadata.rowEnd = .hard) :
    row.content = row.rowCells.take (countRowContentCells row.rowCells) := by
  simp [content, h]

theorem length_content_hard (h : row.rowMetadata.rowEnd = .hard) :
    row.content.length = countRowContentCells row.rowCells := by
  rw [content_hard h, length_take]
  exact Nat.min_eq_left (countContentCells_le _)

theorem mem_of_mem_content {c : Cell} (h : c ∈ row.content) : c ∈ row.rowCells := by
  unfold content at h
  split at h
  · exact h
  · exact mem_of_mem_take h
  · exact mem_of_mem_take h

end CellRow

/-! ### One step -/

variable (state : RewrapState)

namespace RewrapState

/-- The row's content joins the current line; a hard end re-wraps the line. -/
def pushCellRow (row : CellRow) (onCursor : Bool) (cursorColumn : Nat) : RewrapState :=
  let rowStart := state.currentLogicalLine.cells.length
  let currentLogicalLine : LogicalLine :=
    ⟨state.currentLogicalLine.cells ++ row.content,
      state.currentLogicalLine.promptCellOffsets ++ if row.rowMetadata.hasPromptMark then [rowStart] else []⟩
  let reflowOutput := state.reflowOutput.pushSourceRow
    ⟨state.reflowOutput.rewrappedLineShapes.length, rowStart, row.content.length, row.rowMetadata.rowEnd⟩
  let cursorContentCellOffset :=
    if onCursor then
      some (rowStart + if row.rowMetadata.rowEnd = .hard then cursorColumn else min cursorColumn row.content.length)
    else state.cursorContentCellOffset
  if row.rowMetadata.rowEnd = .hard then
    ⟨reflowOutput.pushLogicalLine currentLogicalLine cursorContentCellOffset, .default, none⟩
  else ⟨reflowOutput, currentLogicalLine, cursorContentCellOffset⟩

theorem finishRow_append (row : CellRow) (onCurrent : Bool) (column : Nat) :
    state.finishRow (state.currentLogicalLine.cells ++ row.rowCells) row.rowMetadata onCurrent column =
      state.pushCellRow row onCurrent column := by
  have hct := row.length_content_hard
  obtain ⟨cells, ⟨rowEnd, hasPromptMark⟩⟩ := row
  simp only [finishRow, pushCellRow, drop_left, take_length_add_append]
  cases rowEnd with
  | hard => simp [content, Nat.min_eq_left (countContentCells_le cells)]
  | soft => simp [content]
  | softWide => simp [content]

theorem finishRow_append_content {row : CellRow} (hhard : row.rowMetadata.rowEnd = .hard) (onCurrent : Bool)
    (column : Nat) :
    state.finishRow (state.currentLogicalLine.cells ++ row.rowCells.take (countRowContentCells row.rowCells))
        row.rowMetadata onCurrent column = state.pushCellRow row onCurrent column := by
  have hcx := content_hard hhard
  have hc : countRowContentCells row.content = row.content.length := by
    rw [length_content_hard hhard, hcx, countContentCells_take]
  rw [← hcx]
  simp only [finishRow, pushCellRow, drop_left, take_length_add_append, hhard, hc, if_true, take_length]

end RewrapState

/-! ### A line of one row -/

theorem rowSpans_short {cells : List Cell} {columns : Nat} (h : cells.length < columns) :
    computeRewrappedRowSpans cells columns = [⟨0, cells.length, ⟨.hard, false⟩⟩] := by
  have hshort : cells.length < max columns 1 := lt_of_lt_of_le h (le_max_left ..)
  simp only [computeRewrappedRowSpans, if_pos hshort, scanRowSpans]

theorem sliceRange_length {α : Type} (xs : List α) : sliceRange xs 0 xs.length = xs := by simp [sliceRange]

theorem pushLogicalLine_short (output : ReflowOutput) {cells : List Cell} (hlen : cells.length < output.columnCount)
    (hco : 1 < output.columnCount) (hasPromptMark : Bool) :
    output.pushLogicalLine ⟨cells, if hasPromptMark then [0] else []⟩ none =
      output.pushRepaddedLine
        ⟨.fromPaddedRowCells cells output.columnCount none ⟨.hard, hasPromptMark⟩, cells.length⟩ := by
  have hspans := rowSpans_short hlen
  have hmax : max output.columnCount cells.length = output.columnCount := Nat.max_eq_left hlen.le
  simp only [pushLogicalLine, pushRepaddedLine, Nat.not_le.2 hco, if_false, hspans, map_cons, map_nil, length_singleton]
  cases hasPromptMark with
  | false =>
    simp [markPromptRows, buildSpanRow, RewrappedRow.fromLeadingCells,
      RewrappedRowSpan.countRowCells, RewrappedRowSpan.countContentCells, sliceRange_length, hmax]
  | true =>
    simp [markPromptRows, buildSpanRow, RewrappedRow.fromLeadingCells,
      RewrappedRowSpan.countRowCells, RewrappedRowSpan.countContentCells, sliceRange_length, hmax,
      locateContentCellOffset, locateOffset]

/-! ### The loop -/

namespace RewrapState

theorem pushPhysicalRow_screen (row : CellRow) (onCurrent : Bool) (col : Nat) :
    state.pushPhysicalRow (.screen row.rowCells row.rowMetadata) onCurrent col =
      some (state.pushCellRow row onCurrent col) := by
  rw [pushPhysicalRow, finishRow_append]

theorem pushPhysicalRow_decoded {row : CellRow} (hproper : row.IsProper) (onCurrent : Bool) (col : Nat)
    (hnot : (state.currentLogicalLine.cells.isEmpty && state.currentLogicalLine.promptCellOffsets.isEmpty &&
      decide (state.reflowOutput.columnCount > 1)) = true → row.toSnapshot.repadHardRow state.reflowOutput.columnCount =
        some none) :
    state.pushPhysicalRow (.history row.toSnapshot) onCurrent col = some (state.pushCellRow row onCurrent col) := by
  have hmeta : row.toSnapshot.rowMetadata = row.rowMetadata := rfl
  have hdecode := decodeRowRunCellsInto_fromRowCells hproper.cells hproper.length row.rowMetadata
    state.currentLogicalLine.cells
  have hloop : state.pushPhysicalRow (.history row.toSnapshot) onCurrent col = some
      (state.finishRow (if row.rowMetadata.rowEnd ≠ .hard then
          Grid.resizeCells (state.currentLogicalLine.cells ++ row.rowCells.take (countRowContentCells row.rowCells))
            (state.currentLogicalLine.cells.length + row.rowCells.length) .buildBlank
        else state.currentLogicalLine.cells ++ row.rowCells.take (countRowContentCells row.rowCells))
        row.rowMetadata onCurrent col) := by
    rw [pushPhysicalRow]
    by_cases hst : (state.currentLogicalLine.cells.isEmpty && state.currentLogicalLine.promptCellOffsets.isEmpty &&
        decide (state.reflowOutput.columnCount > 1)) = true
    · simp only [hst, if_true, hnot hst, bind, Option.bind, hmeta]
      rw [toSnapshot, hdecode]
    · simp only [hst, Bool.false_eq_true, if_false, bind, Option.bind, hmeta]
      rw [toSnapshot, hdecode]
  rw [hloop]
  split_ifs with hsoft
  · -- a soft-ended row takes back the blanks the encoding cut
    have hresized : Grid.resizeCells
        (state.currentLogicalLine.cells ++ row.rowCells.take (countRowContentCells row.rowCells))
        (state.currentLogicalLine.cells.length + row.rowCells.length) .buildBlank =
          state.currentLogicalLine.cells ++ row.rowCells := by
      have hcontentLe := countContentCells_le row.rowCells
      have hro := take_countContentCells row.rowCells
      have hlen : (state.currentLogicalLine.cells ++ row.rowCells.take (countRowContentCells row.rowCells)).length =
          state.currentLogicalLine.cells.length + countRowContentCells row.rowCells := by
        rw [length_append, length_take]
        omega
      rw [Grid.resizeCells, take_of_length_le (by omega), hlen, Nat.add_sub_add_left, append_assoc, hro]
    rw [hresized, finishRow_append]
  · rw [finishRow_append_content _ (not_not.1 hsoft)]

/-- A history row is read as its cells, also where its encoding is only padded anew. -/
theorem pushPhysicalRow_history {state : RewrapState} {row : CellRow} (hproper : row.IsProper)
    (hcur : state.cursorContentCellOffset = none) (col : Nat) :
    state.pushPhysicalRow (.history row.toSnapshot) false col = some (state.pushCellRow row false col) := by
  by_cases hshort : row.rowMetadata.rowEnd = .hard ∧
      countRowContentCells row.rowCells < state.reflowOutput.columnCount ∧
      (state.currentLogicalLine.cells.isEmpty && state.currentLogicalLine.promptCellOffsets.isEmpty &&
        decide (state.reflowOutput.columnCount > 1)) = true
  · obtain ⟨hhard, hlen, hst⟩ := hshort
    have hrepad := repadHardRow_fromRowCells hproper.cells hproper.length hhard state.reflowOutput.columnCount
    rw [if_neg (by omega)] at hrepad
    obtain ⟨output, ⟨cells, promptCellOffsets⟩, cursorContentCellOffset⟩ := state
    simp only [Bool.and_eq_true, List.isEmpty_iff, decide_eq_true_eq] at hst
    obtain ⟨⟨rfl, rfl⟩, hco⟩ := hst
    simp only at hcur hlen hrepad
    subst hcur
    have hct := row.length_content_hard hhard
    have hmeta : row.rowMetadata = ⟨.hard, row.rowMetadata.hasPromptMark⟩ := by
      rw [← hhard]
    have hln := @pushLogicalLine_short (output.pushSourceRow ⟨output.rewrappedLineShapes.length, 0,
      row.content.length, .hard⟩) row.content (by rw [hct]; exact hlen) hco row.rowMetadata.hasPromptMark
    rw [pushPhysicalRow]
    simp only [isEmpty_nil, Bool.and_self, hco, decide_true, if_true, toSnapshot, hrepad, bind, Option.bind]
    simp only [pushCellRow, hhard, if_true, Bool.false_eq_true, if_false, nil_append, length_nil, hln]
    rw [content_hard hhard] at hct ⊢
    rw [hct, ← hmeta]
    rfl
  · refine pushPhysicalRow_decoded state hproper false col fun hst => ?_
    by_cases hhard : row.rowMetadata.rowEnd = .hard
    · have hrepad := repadHardRow_fromRowCells hproper.cells hproper.length hhard state.reflowOutput.columnCount
      rw [if_pos (by by_contra hlt; exact hshort ⟨hhard, by omega, hst⟩)] at hrepad
      exact hrepad
    · rw [RowSnapshot.repadHardRow]
      exact if_pos hhard

def pushCellRows (cursorRow cursorColumn : Nat) : Nat → List CellRow → RewrapState → RewrapState
  | _, [], state => state
  | row', row :: rows, state =>
    pushCellRows cursorRow cursorColumn (row' + 1) rows (state.pushCellRow row (row' == cursorRow) cursorColumn)

theorem cursorOffset_pushCellRow {state : RewrapState} (h : state.cursorContentCellOffset = none) (row : CellRow)
    (col : Nat) :
    (state.pushCellRow row false col).cursorContentCellOffset = none := by
  simp only [pushCellRow, Bool.false_eq_true, if_false]
  by_cases hhard : row.rowMetadata.rowEnd = .hard
  · rw [if_pos hhard]
  · rw [if_neg hhard, h]

theorem pushPhysicalRows_screen (currentRow col row' : Nat) (rows : List CellRow) (state : RewrapState) :
    pushPhysicalRows currentRow col row' (rows.map fun row => .screen row.rowCells row.rowMetadata) state =
      some (pushCellRows currentRow col row' rows state) := by
  induction rows generalizing row' state with
  | nil => rfl
  | cons row rows ih =>
    rw [map_cons, pushPhysicalRows, pushPhysicalRow_screen, pushCellRows]
    exact ih _ _

theorem pushPhysicalRows_eq {currentRow row' : Nat} (col : Nat) {hist : List CellRow}
    (hcurrentRow : row' + hist.length ≤ currentRow) (hproper : ∀ row ∈ hist, row.IsProper) (screenRows : List CellRow)
    {state : RewrapState} (hcur : state.cursorContentCellOffset = none) :
    pushPhysicalRows currentRow col row'
        (hist.map (fun row => .history row.toSnapshot) ++
          screenRows.map fun row => .screen row.rowCells row.rowMetadata) state =
      some (pushCellRows currentRow col row' (hist ++ screenRows) state) := by
  induction hist generalizing row' state with
  | nil => exact pushPhysicalRows_screen ..
  | cons row hist ih =>
    obtain ⟨hro, hrows⟩ := forall_mem_cons.1 hproper
    rw [length_cons] at hcurrentRow
    have ho : (row' == currentRow) = false := by
      rw [beq_eq_false_iff_ne]
      omega
    rw [map_cons, cons_append, pushPhysicalRows, ho, pushPhysicalRow_history hro hcur, cons_append, pushCellRows, ho]
    exact ih (by omega) hrows (cursorOffset_pushCellRow hcur row col)

end RewrapState

/-! ### The screen -/

namespace PrimaryScreen

def listCellRows (screen : PrimaryScreen) : List CellRow :=
  screen.primary.rows.map fun row => ⟨row.cells, row.rowMetadata⟩

structure HoldsHistory (screen : PrimaryScreen) (history : List CellRow) : Prop where
  lines : screen.scrollback.retainedLines = history.map toSnapshot
  proper : ∀ row ∈ history, row.IsProper

/-- **A re-wrap is the fold of one step over the rows' cells.** -/
theorem rewrapPrimaryRows_eq {screen : PrimaryScreen} {hist : List CellRow} (h : screen.HoldsHistory hist)
    (columns : Nat) (bg : Style) :
    screen.rewrapPrimaryRows columns bg =
      some (RewrapState.pushCellRows (hist.length + screen.cursorRow) screen.cursorColumn 0
        (hist ++ screen.listCellRows) ⟨.fromColumnCount columns bg, .default, none⟩).finishLines := by
  have hrows : screen.listPhysicalRows = hist.map (fun row => .history row.toSnapshot) ++
      screen.listCellRows.map fun row => .screen row.rowCells row.rowMetadata := by
    simp [listPhysicalRows, h.lines, listScreenRows, listCellRows, Function.comp_def]
  have hloop := @RewrapState.pushPhysicalRows_eq (hist.length + screen.cursorRow) 0 screen.cursorColumn
    hist (by omega) h.proper screen.listCellRows ⟨.fromColumnCount columns bg, .default, none⟩ rfl
  rw [rewrapPrimaryRows, hrows, h.lines, length_map, hloop]
  rfl

end PrimaryScreen

end Koshi.Terminal
