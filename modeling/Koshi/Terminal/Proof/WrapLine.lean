import Mathlib.Tactic
import Koshi.Terminal.Proof.Rewrap
import Koshi.Terminal.Proof.RowSpans

/-!
# A line wraps into rows that say the same

The rows of one re-wrapped line as rows of cells. Joined, they are the line's cells and blanks behind them; each starts
in the line where its span does; and a row is marked exactly when the start of a marked row lies in it.
-/

namespace Koshi.Terminal

open Base Koshi.Core List Option RewrappedRowSpan ReflowOutput

/-! ### Rows of the output -/

/-- A row of the output as its cells, padded to the width, and how many of them are not padding. -/
structure OutputRow where
  row : CellRow
  rowCellCount : Nat

def OutputRow.toRewrappedRow (outRow : OutputRow) : RewrappedRow := ⟨outRow.row.toSnapshot, outRow.rowCellCount⟩

structure OutputRow.IsValid (columnCount : Nat) (outRow : OutputRow) : Prop where
  proper : ∀ cell ∈ outRow.row.rowCells, cell.IsProper
  width : outRow.row.rowCells.length = columnCount
  count_le : outRow.rowCellCount ≤ columnCount
  padding : outRow.row.rowCells.drop outRow.rowCellCount =
    List.replicate (columnCount - outRow.rowCellCount) .buildBlank
  full : outRow.row.rowMetadata.rowEnd ≠ .hard → outRow.rowCellCount = columnCount

section

variable {columns cellCount fc : Nat} {fill : Style} {cells : List Cell} {span : RewrappedRowSpan}
  {rowSpans : List RewrappedRowSpan}

/-- The cells of one span: its part of the line, the spacer of a soft-wide row, and padding. -/
def spanCellRow (columnCount : Nat) (fill : Style) (lineCells : List Cell) (span : RewrappedRowSpan) :
    CellRow :=
  ⟨sliceRange lineCells span.firstCellIndex span.endCellIndex ++
      ((if span.rowMetadata.rowEnd = .softWide then [.buildBlankWithStyle fill] else []) ++
        List.replicate (columnCount - span.countRowCells) .buildBlank),
    span.rowMetadata⟩

def spanOutputRow (columnCount : Nat) (fill : Style) (lineCells : List Cell) (span : RewrappedRowSpan) :
    OutputRow := ⟨spanCellRow columnCount fill lineCells span, span.countRowCells⟩

section

variable (h : SpanFits columns cells.length span)

include h

theorem SpanFits.length_slice :
    (sliceRange cells span.firstCellIndex span.endCellIndex).length = span.countContentCells :=
  length_sliceRange h.inside

theorem SpanFits.length_spanCellRow : (spanCellRow columns fill cells span).rowCells.length = columns := by
  have hft := h.fits
  simp only [spanCellRow, length_append, h.length_slice, length_replicate]
  unfold countRowCells at hft ⊢
  cases hen : span.rowMetadata.rowEnd <;> simp only [hen] at hft ⊢ <;> simp <;> omega

theorem buildSpanRow_eq :
    buildSpanRow columns fill cells span = (spanOutputRow columns fill cells span).toRewrappedRow := by
  have hft := h.fits
  have hslice := h.length_slice
  have hc : span.countContentCells ≤ span.countRowCells := by
    unfold countRowCells
    cases span.rowMetadata.rowEnd <;> simp
  simp only [buildSpanRow, RewrappedRow.fromLeadingCells, Nat.max_eq_left hft, spanOutputRow,
    OutputRow.toRewrappedRow, CellRow.toSnapshot, spanCellRow]
  refine congrArg (RewrappedRow.mk · _) ?_
  by_cases hwide : span.rowMetadata.rowEnd = .softWide
  · have hrowCells : span.countRowCells = span.countContentCells + 1 := by
      simp [countRowCells, hwide]
    rw [if_pos hwide]
    by_cases hstyled : fill = .default
    · have hpadding : columns - span.countContentCells = columns - span.countRowCells + 1 := by omega
      rw [if_neg (by simp [hstyled]), fromPaddedRowCells_eq (by omega), hslice, hpadding, replicate_succ, hstyled]
      rfl
    · rw [if_pos ⟨hwide, hstyled⟩, fromPaddedRowCells_eq (by rw [length_append, hslice, length_singleton]; omega),
        length_append, hslice, length_singleton, hrowCells, append_assoc]
  · have hrowCells : span.countRowCells = span.countContentCells := by
      unfold countRowCells
      cases hen : span.rowMetadata.rowEnd with
      | softWide => exact absurd hen hwide
      | soft => rfl
      | hard => rfl
    rw [if_neg (fun hstyled => hwide hstyled.1), if_neg hwide, fromPaddedRowCells_eq (by omega), hslice, hrowCells,
      nil_append]

theorem isValid_spanOutputRow (hproper : ∀ c ∈ cells, c.IsProper) :
    (spanOutputRow columns fill cells span).IsValid columns := by
  have hft := h.fits
  refine ⟨fun c hce => ?_, h.length_spanCellRow, hft, ?_, h.full⟩
  · rcases mem_append.1 hce with hce | hce
    · exact hproper c (mem_of_mem_sliceRange hce)
    · rcases mem_append.1 hce with hce | hce
      · split_ifs at hce
        · rw [mem_singleton.1 hce]
          exact Cell.isProper_blank fill
        · simp at hce
      · rw [eq_of_mem_replicate hce]
        exact Cell.isProper_blank .default
  · simp only [spanOutputRow, spanCellRow]
    rw [← append_assoc, drop_left']
    rw [length_append, h.length_slice]
    unfold countRowCells
    cases hen : span.rowMetadata.rowEnd <;> simp

theorem lineCells_spanCellRow :
    (spanCellRow columns fill cells span).lineCells =
      sliceRange cells span.firstCellIndex span.endCellIndex ++
        if span.rowMetadata.rowEnd = .hard then List.replicate (columns - span.countRowCells) .buildBlank
        else [] := by
  have hfull := h.full
  unfold CellRow.lineCells
  simp only [spanCellRow]
  cases hen : span.rowMetadata.rowEnd with
  | hard => simp
  | soft => simp [hfull (by simp [hen])]
  | softWide => simp [hfull (by simp [hen])]

end

/-! ### The rows of a line -/

/-- The rows of spans that go from `firstCellIndex` to the line's end join to the rest of the line, and padding. -/
theorem SpansFrom.joinLines_eq (hco : 2 ≤ columns) (h : SpansFrom columns cellCount fc rowSpans)
    (hc : cellCount = cells.length) (line : List Cell) (rows : List CellRow) :
    ∃ blanks, joinLines line (rowSpans.map (spanCellRow columns fill cells) ++ rows) =
      (line ++ (cells.drop fc ++ List.replicate blanks .buildBlank)) :: joinLines [] rows := by
  subst hc
  have hft := h.spanFits hco
  induction h generalizing line with
  | @last fst prompt inside fits =>
    refine ⟨columns - (mk fst cells.length ⟨.hard, prompt⟩).countRowCells, ?_⟩
    rw [map_singleton, singleton_append, joinLines, if_pos (by simp [spanCellRow]),
      lineCells_spanCellRow (hft _ (by simp)), if_pos (by simp)]
    simp only [sliceRange]
    rw [take_of_length_le (by rw [length_drop])]
  | @soft fst spans prompt rest ih =>
    obtain ⟨hfit, hft⟩ := forall_mem_cons.1 hft
    obtain ⟨blanks, hr⟩ := ih (line ++ sliceRange cells fst (fst + columns)) hft
    refine ⟨blanks, ?_⟩
    rw [map_cons, cons_append, joinLines, if_neg (by simp [spanCellRow]), lineCells_spanCellRow hfit,
      if_neg (by simp), append_nil, hr]
    simp only [sliceRange, Nat.add_sub_cancel_left, append_assoc]
    rw [← append_assoc (List.take _ _), ← drop_drop, take_append_drop]
  | @softWide fst spans prompt rest ih =>
    obtain ⟨hfit, hft⟩ := forall_mem_cons.1 hft
    obtain ⟨blanks, hr⟩ := ih (line ++ sliceRange cells fst (fst + (columns - 1))) hft
    refine ⟨blanks, ?_⟩
    rw [map_cons, cons_append, joinLines, if_neg (by simp [spanCellRow]), lineCells_spanCellRow hfit,
      if_neg (by simp), append_nil, hr]
    simp only [sliceRange, Nat.add_sub_cancel_left, append_assoc]
    rw [← append_assoc (List.take _ _), ← drop_drop, take_append_drop]

theorem SpansFrom.placeRows_eq (hco : 2 ≤ columns) (h : SpansFrom columns cellCount fc rowSpans)
    (hc : cellCount = cells.length) (lineIndex : Nat) (rows : List CellRow) :
    placeRows lineIndex fc (rowSpans.map (spanCellRow columns fill cells) ++ rows) =
      rowSpans.map (fun span => ⟨lineIndex, span.firstCellIndex,
        (spanCellRow columns fill cells span).lineCells.length, span.rowMetadata⟩) ++
        placeRows (lineIndex + 1) 0 rows := by
  subst hc
  have hft := h.spanFits hco
  induction h with
  | @last fst prompt inside fits =>
    rw [map_singleton, singleton_append, placeRows, if_pos (by simp [spanCellRow])]
    rfl
  | @soft fst spans prompt rest ih =>
    obtain ⟨hfit, hft⟩ := forall_mem_cons.1 hft
    have hlen : (spanCellRow columns fill cells ⟨fst, fst + columns, ⟨.soft, prompt⟩⟩).lineCells.length = columns := by
      rw [lineCells_spanCellRow hfit, if_neg (by simp), append_nil, hfit.length_slice]
      simp [countContentCells]
    rw [map_cons, cons_append, placeRows, if_neg (by simp [spanCellRow]), hlen, ih hft, map_cons, cons_append, hlen]
    rfl
  | @softWide fst spans prompt rest ih =>
    obtain ⟨hfit, hft⟩ := forall_mem_cons.1 hft
    have hlen : (spanCellRow columns fill cells
        ⟨fst, fst + (columns - 1), ⟨.softWide, prompt⟩⟩).lineCells.length = columns - 1 := by
      rw [lineCells_spanCellRow hfit, if_neg (by simp), append_nil, hfit.length_slice]
      simp [countContentCells]
    rw [map_cons, cons_append, placeRows, if_neg (by simp [spanCellRow]), hlen, ih hft, map_cons, cons_append, hlen]
    rfl

end

/-! ### One line -/

def wrapLine (columnCount : Nat) (fill : Style) (line : LogicalLine) : List OutputRow :=
  let rowSpans := computeRewrappedRowSpans line.cells columnCount
  (markPromptRows (rowSpans.map (·.countContentCells)) line.promptCellOffsets rowSpans).map
    (spanOutputRow columnCount fill line.cells)

section

variable {columns : Nat} {fill : Style} {line : LogicalLine}

theorem spansFrom_wrapLine (hco : 2 ≤ columns) (line : LogicalLine) :
    SpansFrom columns line.cells.length 0 (markPromptRows
      ((computeRewrappedRowSpans line.cells columns).map (·.countContentCells)) line.promptCellOffsets
      (computeRewrappedRowSpans line.cells columns)) :=
  (spansFrom_rowSpans line.cells hco).markPromptRows _ _

theorem pushLine_rewrappedRows {output : ReflowOutput} (hco : 2 ≤ output.columnCount) (contentOffset : Option Nat) :
    (output.pushLogicalLine line contentOffset).rewrappedRows = output.rewrappedRows ++
      (wrapLine output.columnCount output.backgroundStyle line).map OutputRow.toRewrappedRow := by
  have hft := (spansFrom_wrapLine hco line).spanFits hco
  simp only [pushLogicalLine, if_neg (show ¬output.columnCount ≤ 1 by omega), wrapLine, List.map_map]
  congr 1
  exact map_congr_left fun span hrowSpan => buildSpanRow_eq (hft span hrowSpan)

theorem isValid_wrapLine (hco : 2 ≤ columns) (hproper : ∀ c ∈ line.cells, c.IsProper) :
    ∀ outRow ∈ wrapLine columns fill line, outRow.IsValid columns := by
  intro outRow hout
  obtain ⟨span, hrowSpan, rfl⟩ := List.mem_map.1 hout
  exact isValid_spanOutputRow ((spansFrom_wrapLine hco line).spanFits hco span hrowSpan) hproper

theorem joinLines_wrapLine (hco : 2 ≤ columns) (rows : List CellRow) :
    ∃ blanks, joinLines [] ((wrapLine columns fill line).map (·.row) ++ rows) =
      (line.cells ++ List.replicate blanks .buildBlank) :: joinLines [] rows := by
  obtain ⟨blanks, hjoin⟩ := @SpansFrom.joinLines_eq columns _ 0 fill line.cells _ hco
    (spansFrom_wrapLine hco line) rfl [] rows
  refine ⟨blanks, ?_⟩
  rw [wrapLine, List.map_map]
  exact hjoin

theorem mem_placeRows_wrapLine (hco : 2 ≤ columns) (lineIndex : Nat) (rows : List CellRow) :
    ∃ places, placeRows lineIndex 0 ((wrapLine columns fill line).map (·.row) ++ rows) =
        places ++ placeRows (lineIndex + 1) 0 rows ∧
      (∀ offset ∈ line.promptCellOffsets, ∃ place ∈ places, place.rowMetadata.hasPromptMark = true ∧
        place.Holds lineIndex offset) ∧
      ∀ place ∈ places, place.rowMetadata.hasPromptMark = true →
        ∃ offset ∈ line.promptCellOffsets, place.Holds lineIndex offset := by
  have hspans := spansFrom_wrapLine hco line
  have hplaces := @SpansFrom.placeRows_eq columns _ 0 fill line.cells _ hco hspans rfl lineIndex rows
  have hcn : (markPromptRows
      ((computeRewrappedRowSpans line.cells columns).map (·.countContentCells)) line.promptCellOffsets
      (computeRewrappedRowSpans line.cells columns)).map (·.countContentCells) =
        (computeRewrappedRowSpans line.cells columns).map (·.countContentCells) := by
    apply ext_getElem?
    intro index
    rw [List.getElem?_map, getElem?_markPromptRows, Option.map_map, List.getElem?_map]
    rfl
  have hne : (computeRewrappedRowSpans line.cells columns).map (·.countContentCells) ≠ [] := by
    rw [ne_eq, map_eq_nil_iff]
    exact (spansFrom_rowSpans line.cells hco).ne_nil
  -- the row that an offset is found in holds it
  have hhl : ∀ offset span, (markPromptRows
      ((computeRewrappedRowSpans line.cells columns).map (·.countContentCells)) line.promptCellOffsets
      (computeRewrappedRowSpans line.cells columns))[(locateContentCellOffset
        ((computeRewrappedRowSpans line.cells columns).map (·.countContentCells)) offset).1]? = some span →
      RowPlace.Holds ⟨lineIndex, span.firstCellIndex,
        (spanCellRow columns fill line.cells span).lineCells.length, span.rowMetadata⟩ lineIndex offset := by
    intro offset span hg
    obtain ⟨hidx, hst, hen⟩ := locateOffset_spec hne offset
    obtain ⟨hf, hl⟩ := hspans.getElem?_spec hg
    have hfit := hspans.spanFits hco span (mem_of_getElem? hg)
    rw [hcn, Nat.zero_add] at hf
    refine ⟨rfl, by rw [hf]; exact hst, ?_⟩
    by_cases hhard : span.rowMetadata.rowEnd = .hard
    · exact .inr hhard
    · have hc := congrArg (·[(locateContentCellOffset
        ((computeRewrappedRowSpans line.cells columns).map (·.countContentCells)) offset).1]?) hcn
      simp only [List.getElem?_map, hg, map_some] at hc
      rcases hen with hen | hen
      · refine .inl ?_
        rw [take_add_one, List.getElem?_map, ← hc, toList_some, sum_append, sum_singleton] at hen
        simp only [lineCells_spanCellRow hfit, if_neg hhard, append_nil, hfit.length_slice]
        omega
      · refine absurd (hl.1 ?_) hhard
        rw [length_markPromptRows, hen, length_map]
  refine ⟨_, by rw [wrapLine, List.map_map]; exact hplaces, ?_, ?_⟩
  · intro offset hoff
    obtain ⟨hidx, -, -⟩ := locateOffset_spec hne offset
    rw [length_map] at hidx
    have hg := getElem?_markPromptRows ((computeRewrappedRowSpans line.cells columns).map (·.countContentCells))
      line.promptCellOffsets (computeRewrappedRowSpans line.cells columns) (locateContentCellOffset
        ((computeRewrappedRowSpans line.cells columns).map (·.countContentCells)) offset).1
    rw [List.getElem?_eq_getElem hidx, map_some] at hg
    refine ⟨_, List.mem_map_of_mem (mem_of_getElem? hg), ?_, hhl offset _ hg⟩
    simp only [withMark, Bool.or_eq_true, List.any_eq_true]
    exact .inl ⟨offset, hoff, beq_self_eq_true _⟩
  · intro place hpc hmark
    obtain ⟨span, hrowSpan, rfl⟩ := List.mem_map.1 hpc
    obtain ⟨index, hg⟩ := mem_iff_getElem?.1 hrowSpan
    have hmd := hg
    rw [getElem?_markPromptRows] at hmd
    obtain ⟨unmarked, hunmarked, hwith⟩ := map_eq_some_iff.1 hmd
    have hpl : unmarked.rowMetadata.hasPromptMark = false := by
      rw [rowSpans_eq_scan line.cells (by omega)] at hunmarked
      exact hasPromptMark_scanRowSpans _ _ _ _ _ unmarked (mem_of_getElem? hunmarked)
    rw [← hwith] at hmark
    simp only [withMark, hpl, Bool.or_false, List.any_eq_true, beq_iff_eq] at hmark
    obtain ⟨offset, hoff, rfl⟩ := hmark
    exact ⟨offset, hoff, hhl offset span hg⟩

end

end Koshi.Terminal
