import Mathlib.Tactic
import Koshi.Terminal.Proof.WrapLine

/-!
# A re-wrap keeps the lines

The lines a re-wrap collects are the lines of the rows it read, less blanks that say nothing, and the rows of the
output join to the same lines. A mark of a row is an offset of its line, and the output marks the row that holds it.
-/

namespace Koshi.Terminal

open Base Koshi.Core List Option CellRow LogicalLine

variable {rows : List CellRow} {line : LogicalLine}

/-! ### Trimmed lines -/

section

variable {style : Style}

theorem isFillBlank_blank : isFillBlank style .buildBlank = true := by simp [isFillBlank]

theorem isFillBlank_fill : isFillBlank style (.buildBlankWithStyle style) = true := by simp [isFillBlank]

theorem trimLine_append (line : List Cell) {blanks : List Cell} (h : ∀ c ∈ blanks, isFillBlank style c = true) :
    trimLine style (line ++ blanks) = trimLine style line := rdropWhile_append_of_all line h

theorem trimLine_append_blanks (line : List Cell) (blankCount : Nat) :
    trimLine style (line ++ List.replicate blankCount .buildBlank) = trimLine style line :=
  trimLine_append line fun c hce => by
    rw [eq_of_mem_replicate hce]
    exact isFillBlank_blank

theorem trimLines_cons_congr {line otherLine : List Cell} {lines otherLines : List (List Cell)}
    (hln : trimLine style line = trimLine style otherLine) (hlns : trimLines style lines = trimLines style otherLines) :
    trimLines style (line :: lines) = trimLines style (otherLine :: otherLines) := by
  unfold trimLines at hlns ⊢
  rw [map_cons, map_cons, rdropWhile_cons, rdropWhile_cons, hln, hlns]

theorem trimLines_append_nil (lines : List (List Cell)) : trimLines style (lines ++ [[]]) = trimLines style lines := by
  unfold trimLines
  rw [map_append]
  exact rdropWhile_append_of_all _ (by simp [trimLine, rdropWhile_nil])

theorem trimLines_joinLines_concat (line : List Cell) (rows : List CellRow) {blankRow : CellRow}
    (hhard : blankRow.rowMetadata.rowEnd = .hard) (hblk : ∀ c ∈ blankRow.rowCells, isFillBlank style c = true) :
    trimLines style (joinLines line (rows ++ [blankRow])) = trimLines style (joinLines line rows) := by
  have hcx : blankRow.lineCells = blankRow.rowCells := by simp [lineCells, hhard]
  induction rows generalizing line with
  | nil =>
    have hjoin : joinLines line ([] ++ [blankRow]) = [line ++ blankRow.rowCells] ++ [[]] := by
      simp [joinLines, hhard, hcx]
    rw [hjoin, joinLines]
    exact (trimLines_append_nil [line ++ blankRow.rowCells]).trans
      (trimLines_cons_congr (trimLine_append line hblk) rfl)
  | cons row rows ih =>
    rw [cons_append, joinLines, joinLines]
    split_ifs with hen
    · exact trimLines_cons_congr rfl (ih [])
    · exact ih _

theorem trimLines_joinLines_append (line : List Cell) (rows : List CellRow) {blankRows : List CellRow}
    (hblk : ∀ row ∈ blankRows, row.rowMetadata.rowEnd = .hard ∧ ∀ c ∈ row.rowCells, isFillBlank style c = true) :
    trimLines style (joinLines line (rows ++ blankRows)) = trimLines style (joinLines line rows) := by
  induction blankRows generalizing rows with
  | nil => rw [append_nil]
  | cons blankRow blankRows ih =>
    obtain ⟨⟨hhard, hcx⟩, hr⟩ := forall_mem_cons.1 hblk
    rw [append_cons, ih (rows ++ [blankRow]) hr, trimLines_joinLines_concat line rows hhard hcx]

structure SameRow (style : Style) (row otherRow : CellRow) : Prop where
  metadata : otherRow.rowMetadata = row.rowMetadata
  length : otherRow.rowCells.length = row.rowCells.length
  soft : row.rowMetadata.rowEnd ≠ .hard → otherRow.rowCells = row.rowCells
  hard : ∃ cells blanks otherBlanks, row.rowCells = cells ++ blanks ∧ otherRow.rowCells = cells ++ otherBlanks ∧
    (∀ cell ∈ blanks, isFillBlank style cell = true) ∧ ∀ cell ∈ otherBlanks, isFillBlank style cell = true

theorem SameRow.refl (row : CellRow) : SameRow style row row :=
  ⟨rfl, rfl, fun _ => rfl, row.rowCells, [], [], by simp⟩

theorem trimLines_joinLines_congr (line : List Cell) {rows otherRows : List CellRow}
    (h : List.Forall₂ (SameRow style) rows otherRows) :
    trimLines style (joinLines line otherRows) = trimLines style (joinLines line rows) := by
  induction h generalizing line with
  | nil => rfl
  | @cons row otherRow rows otherRows hro _ ih =>
    rw [joinLines, joinLines, hro.metadata]
    split_ifs with hen
    · obtain ⟨cells, blanks, otherBlanks, hcx, ho, hblks, hotherBlanks⟩ := hro.hard
      refine trimLines_cons_congr ?_ (ih [])
      rw [show row.lineCells = row.rowCells by simp [lineCells, hen],
        show otherRow.lineCells = otherRow.rowCells by simp [lineCells, hro.metadata, hen], hcx, ho,
        ← append_assoc, ← append_assoc, trimLine_append _ hblks, trimLine_append _ hotherBlanks]
    · have hln : otherRow.lineCells = row.lineCells := by
        rw [lineCells, lineCells, hro.metadata, hro.soft hen]
      rw [hln, ih]

end

/-! ### Places -/

theorem length_lineCells_congr {style : Style} {row otherRow : CellRow} (h : SameRow style row otherRow) :
    otherRow.lineCells.length = row.lineCells.length := by
  rw [lineCells, lineCells, h.metadata]
  cases row.rowMetadata.rowEnd <;> simp [h.length]

theorem placeRows_congr {style : Style} {otherRows : List CellRow} (h : List.Forall₂ (SameRow style) rows otherRows)
    (lineIndex startOffset : Nat) :
    placeRows lineIndex startOffset otherRows = placeRows lineIndex startOffset rows := by
  induction h generalizing lineIndex startOffset with
  | nil => rfl
  | cons hro _ ih => rw [placeRows, placeRows, length_lineCells_congr hro, hro.metadata, ih, ih]

variable {place : RowPlace} {lineIndex startOffset : Nat}

theorem hasPromptMark_placeRows (h : ∀ row ∈ rows, row.rowMetadata.hasPromptMark = false)
    (hpc : place ∈ placeRows lineIndex startOffset rows) :
    place.rowMetadata.hasPromptMark = false := by
  induction rows generalizing lineIndex startOffset with
  | nil => simp [placeRows] at hpc
  | cons row rows ih =>
    obtain ⟨hro, hrows⟩ := forall_mem_cons.1 h
    rw [placeRows] at hpc
    rcases mem_cons.1 hpc with rfl | hpc
    · exact hro
    · split_ifs at hpc
      · exact ih hrows hpc
      · exact ih hrows hpc

theorem mem_placeRows_append {unmarkedRows : List CellRow}
    (h : ∀ row ∈ unmarkedRows, row.rowMetadata.hasPromptMark = false) :
    (place ∈ placeRows lineIndex startOffset (rows ++ unmarkedRows) ∧ place.rowMetadata.hasPromptMark = true) ↔
      place ∈ placeRows lineIndex startOffset rows ∧ place.rowMetadata.hasPromptMark = true := by
  induction rows generalizing lineIndex startOffset with
  | nil =>
    rw [nil_append]
    refine ⟨fun ⟨hm, hmark⟩ => ?_, fun ⟨hm, _⟩ => by simp [placeRows] at hm⟩
    rw [hasPromptMark_placeRows h hm] at hmark
    exact absurd hmark (by decide)
  | cons row rows ih =>
    rw [cons_append, placeRows, placeRows, mem_cons, mem_cons, or_and_right, or_and_right]
    refine or_congr Iff.rfl ?_
    split_ifs
    · exact ih
    · exact ih

/-! ### The lines of a re-wrap -/

/-- The line with a row's content behind it. -/
def LogicalLine.pushRow (line : LogicalLine) (row : CellRow) : LogicalLine :=
  ⟨line.cells ++ row.content,
    line.promptCellOffsets ++ if row.rowMetadata.hasPromptMark then [line.cells.length] else []⟩

/-- The lines a re-wrap collects, with `line` already open. -/
def collectLines (line : LogicalLine) : List CellRow → List LogicalLine
  | [] => if !line.cells.isEmpty || !line.promptCellOffsets.isEmpty then [line] else []
  | row :: rows =>
    if row.rowMetadata.rowEnd = .hard then line.pushRow row :: collectLines .default rows
    else collectLines (line.pushRow row) rows

namespace RewrapState

variable (st : RewrapState) (row : CellRow) (onCurrent : Bool) (col : Nat)

theorem columnCount_pushCellRow :
    (st.pushCellRow row onCurrent col).reflowOutput.columnCount = st.reflowOutput.columnCount := by
  simp only [pushCellRow]
  by_cases hhard : row.rowMetadata.rowEnd = .hard
  · rw [if_pos hhard]
    rfl
  · rw [if_neg hhard]
    rfl

theorem backgroundStyle_pushCellRow :
    (st.pushCellRow row onCurrent col).reflowOutput.backgroundStyle = st.reflowOutput.backgroundStyle := by
  simp only [pushCellRow]
  by_cases hhard : row.rowMetadata.rowEnd = .hard
  · rw [if_pos hhard]
    rfl
  · rw [if_neg hhard]
    rfl

theorem currentLine_pushCellRow :
    (st.pushCellRow row onCurrent col).currentLogicalLine =
      if row.rowMetadata.rowEnd = .hard then .default else st.currentLogicalLine.pushRow row := by
  by_cases hhard : row.rowMetadata.rowEnd = .hard
  · simp only [pushCellRow, hhard, if_true]
  · simp only [pushCellRow, hhard, if_false]
    rfl

theorem rewrappedRows_pushCellRow (hco : 2 ≤ st.reflowOutput.columnCount) :
    (st.pushCellRow row onCurrent col).reflowOutput.rewrappedRows =
      st.reflowOutput.rewrappedRows ++
        if row.rowMetadata.rowEnd = .hard then
          (wrapLine st.reflowOutput.columnCount st.reflowOutput.backgroundStyle
            (st.currentLogicalLine.pushRow row)).map OutputRow.toRewrappedRow
        else [] := by
  by_cases hhard : row.rowMetadata.rowEnd = .hard
  · simp only [pushCellRow, hhard, if_true]
    exact @pushLine_rewrappedRows (st.currentLogicalLine.pushRow row) (st.reflowOutput.pushSourceRow ⟨_, _, _, _⟩) hco _
  · simp only [pushCellRow, hhard, if_false, append_nil]
    rfl

end RewrapState

theorem rewrappedRows_finishLines {st : RewrapState} (hco : 2 ≤ st.reflowOutput.columnCount)
    (currentRow col physicalRow : Nat) (rows : List CellRow) :
    (RewrapState.pushCellRows currentRow col physicalRow rows st).finishLines.rewrappedRows =
      st.reflowOutput.rewrappedRows ++
      ((collectLines st.currentLogicalLine rows).flatMap
        (wrapLine st.reflowOutput.columnCount st.reflowOutput.backgroundStyle)).map OutputRow.toRewrappedRow ∧
    (RewrapState.pushCellRows currentRow col physicalRow rows
        st).finishLines.backgroundStyle = st.reflowOutput.backgroundStyle := by
  induction rows generalizing st physicalRow with
  | nil =>
    rw [RewrapState.pushCellRows, RewrapState.finishLines, collectLines]
    split_ifs
    · rw [pushLine_rewrappedRows hco, flatMap_singleton]
      exact ⟨rfl, rfl⟩
    · simp
  | cons row rows ih =>
    obtain ⟨hrows, hstyle⟩ := @ih (st.pushCellRow row (physicalRow == currentRow) col)
      (by rwa [st.columnCount_pushCellRow]) (physicalRow + 1)
    rw [RewrapState.pushCellRows, hrows, hstyle, st.columnCount_pushCellRow, st.backgroundStyle_pushCellRow,
      st.currentLine_pushCellRow, st.rewrappedRows_pushCellRow _ _ _ hco, collectLines]
    split_ifs
    · rw [flatMap_cons, map_append, append_assoc]
      exact ⟨rfl, rfl⟩
    · rw [append_nil]
      exact ⟨rfl, rfl⟩

theorem content_eq_lineCells {row : CellRow} (hsoft : row.rowMetadata.rowEnd ≠ .hard) :
    row.content = row.lineCells := by
  cases hen : row.rowMetadata.rowEnd with
  | hard => exact absurd hen hsoft
  | soft => rw [content_soft hen, lineCells, hen]
  | softWide => rw [content_softWide hen, lineCells, hen, dropLast_eq_take]

theorem trimLines_collectLines (style : Style) (line : LogicalLine) (rows : List CellRow) :
    trimLines style ((collectLines line rows).map (·.cells)) = trimLines style (joinLines line.cells rows) := by
  induction rows generalizing line with
  | nil =>
    rw [collectLines, joinLines]
    split_ifs with hln
    · rfl
    · have hnil : line.cells = [] := by simpa using (not_or.1 (mt Bool.or_eq_true_iff.2 hln)).1
      rw [hnil]
      exact (trimLines_append_nil []).symm
  | cons row rows ih =>
    rw [collectLines, joinLines]
    split_ifs with hhard
    · have hcx : row.lineCells = row.rowCells := by simp [lineCells, hhard]
      refine trimLines_cons_congr ?_ (ih .default)
      rw [hcx, ← take_countContentCells row.rowCells, ← content_hard hhard, ← append_assoc, trimLine_append_blanks]
      rfl
    · rw [ih, pushRow, content_eq_lineCells hhard]

variable {columns : Nat}

theorem trimLines_wrapLines (style : Style) (hco : 2 ≤ columns) (bg : Style) (lines : List LogicalLine) :
    trimLines style (joinLines [] ((lines.flatMap (wrapLine columns bg)).map (·.row))) =
      trimLines style (lines.map (·.cells)) := by
  induction lines with
  | nil => exact trimLines_append_nil []
  | cons line lines ih =>
    obtain ⟨blankCount, hjoin⟩ := @joinLines_wrapLine columns bg line hco
      ((lines.flatMap (wrapLine columns bg)).map (·.row))
    rw [flatMap_cons, map_append, hjoin]
    exact trimLines_cons_congr (trimLine_append_blanks line.cells blankCount) ih

/-! ### The marks of a re-wrap -/

theorem mem_collectLines_head {off : Nat} (h : off ∈ line.promptCellOffsets) (rows : List CellRow) :
    ∃ firstLine, (collectLines line rows)[0]? = some firstLine ∧ off ∈ firstLine.promptCellOffsets := by
  induction rows generalizing line with
  | nil =>
    refine ⟨line, ?_, h⟩
    have hso : line.promptCellOffsets ≠ [] := ne_nil_of_mem h
    simp [collectLines, hso]
  | cons row rows ih =>
    have hpu : off ∈ (line.pushRow row).promptCellOffsets := mem_append_left _ h
    rw [collectLines]
    split_ifs with hhard
    · exact ⟨line.pushRow row, rfl, hpu⟩
    · exact ih hpu

theorem exists_offset_of_mem_placeRows {line : LogicalLine} {rows : List CellRow} {lineIndex : Nat}
    (hpc : place ∈ placeRows lineIndex line.cells.length rows) (hmark : place.rowMetadata.hasPromptMark = true) :
    ∃ index found, (collectLines line rows)[index]? = some found ∧ place.lineIndex = lineIndex + index ∧
      place.startOffset ∈ found.promptCellOffsets := by
  induction rows generalizing line lineIndex with
  | nil => simp [placeRows] at hpc
  | cons row rows ih =>
    rw [placeRows] at hpc
    rcases mem_cons.1 hpc with rfl | hpc
    · have hpu : line.cells.length ∈ (line.pushRow row).promptCellOffsets := by
        rw [pushRow, if_pos hmark]
        simp
      rw [collectLines]
      split_ifs with hhard
      · exact ⟨0, line.pushRow row, rfl, rfl, hpu⟩
      · obtain ⟨found, hfo, hoff⟩ := mem_collectLines_head hpu rows
        exact ⟨0, found, hfo, rfl, hoff⟩
    · rw [collectLines]
      split_ifs at hpc ⊢ with hhard
      · obtain ⟨index, found, hfo, hidx, hoff⟩ := @ih .default (lineIndex + 1) hpc
        exact ⟨index + 1, found, hfo, by omega, hoff⟩
      · refine @ih (line.pushRow row) lineIndex ?_
        rw [pushRow, length_append, content_eq_lineCells hhard]
        exact hpc

theorem mem_promptCellOffsets_pushRow {row : CellRow} {off : Nat} (h : off ∈ (line.pushRow row).promptCellOffsets) :
    off ∈ line.promptCellOffsets ∨ row.rowMetadata.hasPromptMark = true ∧ off = line.cells.length := by
  rcases mem_append.1 h with hm | hm
  · exact .inl hm
  · split_ifs at hm with hmark
    · exact .inr ⟨hmark, mem_singleton.1 hm⟩
    · simp at hm

theorem exists_place_of_mem_collectLines {found : LogicalLine} {index offset : Nat}
    (hfo : (collectLines line rows)[index]? = some found) (hoff : offset ∈ found.promptCellOffsets) (lineIndex : Nat) :
    (index = 0 ∧ offset ∈ line.promptCellOffsets) ∨
      ∃ place ∈ placeRows lineIndex line.cells.length rows, place.rowMetadata.hasPromptMark = true ∧
        place.lineIndex = lineIndex + index ∧ place.startOffset = offset := by
  induction rows generalizing line lineIndex index with
  | nil =>
    rw [collectLines] at hfo
    split_ifs at hfo
    · cases index with
      | zero =>
        obtain rfl := some_inj.1 hfo
        exact .inl ⟨rfl, hoff⟩
      | succ index => simp at hfo
    · simp at hfo
  | cons row rows ih =>
    rw [collectLines] at hfo
    rw [placeRows]
    split_ifs at hfo ⊢ with hhard
    · cases index with
      | zero =>
        obtain rfl := some_inj.1 hfo
        rcases mem_promptCellOffsets_pushRow hoff with hold | ⟨hmark, rfl⟩
        · exact .inl ⟨rfl, hold⟩
        · exact .inr ⟨_, mem_cons_self .., hmark, rfl, rfl⟩
      | succ index =>
        rcases @ih .default index hfo (lineIndex + 1) with ⟨-, hnone⟩ | ⟨place, hpc, hmark, hidx, hst⟩
        · simp [LogicalLine.default] at hnone
        · exact .inr ⟨place, mem_cons_of_mem _ hpc, hmark, by omega, hst⟩
    · rcases @ih (line.pushRow row) index hfo lineIndex with ⟨rfl, hpu⟩ | ⟨place, hpc, hmark, hidx, hst⟩
      · rcases mem_promptCellOffsets_pushRow hpu with hold | ⟨hmark, rfl⟩
        · exact .inl ⟨rfl, hold⟩
        · exact .inr ⟨_, mem_cons_self .., hmark, rfl, rfl⟩
      · rw [pushRow, length_append, content_eq_lineCells hhard] at hpc
        exact .inr ⟨place, mem_cons_of_mem _ hpc, hmark, hidx, hst⟩

theorem mem_placeRows_wrapLines (hco : 2 ≤ columns) (bg : Style) (lines : List LogicalLine) (lineIndex : Nat) :
    (∀ index line offset, lines[index]? = some line → offset ∈ line.promptCellOffsets →
      ∃ place ∈ placeRows lineIndex 0 ((lines.flatMap (wrapLine columns bg)).map (·.row)),
        place.rowMetadata.hasPromptMark = true ∧ place.Holds (lineIndex + index) offset) ∧
      ∀ place ∈ placeRows lineIndex 0 ((lines.flatMap (wrapLine columns bg)).map (·.row)),
        place.rowMetadata.hasPromptMark = true → ∃ index line offset, lines[index]? = some line ∧
          offset ∈ line.promptCellOffsets ∧ place.Holds (lineIndex + index) offset := by
  induction lines generalizing lineIndex with
  | nil => simp [placeRows]
  | cons firstLine lines ih =>
    obtain ⟨places, hplaces, hoffsets, hmd⟩ := @mem_placeRows_wrapLine columns bg firstLine hco
      lineIndex ((lines.flatMap (wrapLine columns bg)).map (·.row))
    obtain ⟨ihOffsets, ihMarked⟩ := ih (lineIndex + 1)
    rw [flatMap_cons, map_append, hplaces]
    constructor
    · intro index line offset hln hoff
      cases index with
      | zero =>
        obtain rfl := some_inj.1 hln
        obtain ⟨place, hpc, hmark, hhl⟩ := hoffsets offset hoff
        exact ⟨place, mem_append_left _ hpc, hmark, hhl⟩
      | succ index =>
        obtain ⟨place, hpc, hmark, hhl⟩ := ihOffsets index line offset hln hoff
        rw [Nat.add_assoc, Nat.add_comm 1] at hhl
        exact ⟨place, mem_append_right _ hpc, hmark, hhl⟩
    · intro place hpc hmark
      rcases mem_append.1 hpc with hpc | hpc
      · obtain ⟨offset, hoff, hhl⟩ := hmd place hpc hmark
        exact ⟨0, firstLine, offset, rfl, hoff, hhl⟩
      · obtain ⟨index, line, offset, hln, hoff, hhl⟩ := ihMarked place hpc hmark
        rw [Nat.add_assoc, Nat.add_comm 1] at hhl
        exact ⟨index + 1, line, offset, hln, hoff, hhl⟩

/-- **A re-wrap keeps the marks.** -/
theorem keepsMarks_wrapLines (hco : 2 ≤ columns) (bg : Style) (rows : List CellRow) :
    KeepsMarks rows (((collectLines .default rows).flatMap (wrapLine columns bg)).map (·.row)) := by
  obtain ⟨hoffsets, hmd⟩ := mem_placeRows_wrapLines hco bg (collectLines .default rows) 0
  constructor
  · intro place hpc hmark
    obtain ⟨index, line, hln, hidx, hoff⟩ := @exists_offset_of_mem_placeRows place .default rows 0 hpc hmark
    rw [hidx]
    exact hoffsets index line place.startOffset hln hoff
  · intro newPlace hnewPlace hmark
    obtain ⟨index, line, offset, hln, hoff, hhl⟩ := hmd newPlace hnewPlace hmark
    rcases exists_place_of_mem_collectLines hln hoff 0 with ⟨-, hnone⟩ | ⟨place, hpc, hplaceMark, hidx, hst⟩
    · simp [LogicalLine.default] at hnone
    · exact ⟨place, hpc, hplaceMark, by rw [hidx, hst]; exact hhl⟩

end Koshi.Terminal
