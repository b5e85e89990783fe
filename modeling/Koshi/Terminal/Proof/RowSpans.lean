import Mathlib.Tactic
import Koshi.Terminal.Reflow

/-!
# The rows of one logical line

The spans of a re-wrapped line follow one another from its first cell to its last, each a full row but the last. An
offset into the line lies in exactly one of them, and a prompt mark goes to the row that its offset lies in.
-/

namespace Koshi.Terminal

open Base List Option RewrappedRowSpan ReflowOutput

variable {columnCount : Nat}

/-! ### Cutting a line -/

inductive SpansFrom (columnCount total : Nat) : Nat → List RewrappedRowSpan → Prop where
  | last {first : Nat} (prompt : Bool) (inside : first ≤ total) (fits : total - first ≤ columnCount) :
      SpansFrom columnCount total first [⟨first, total, ⟨.hard, prompt⟩⟩]
  | soft {first : Nat} {rowSpans : List RewrappedRowSpan} (prompt : Bool)
      (rest : SpansFrom columnCount total (first + columnCount) rowSpans) :
      SpansFrom columnCount total first (⟨first, first + columnCount, ⟨.soft, prompt⟩⟩ :: rowSpans)
  | softWide {first : Nat} {rowSpans : List RewrappedRowSpan} (prompt : Bool)
      (rest : SpansFrom columnCount total (first + (columnCount - 1)) rowSpans) :
      SpansFrom columnCount total first (⟨first, first + (columnCount - 1), ⟨.softWide, prompt⟩⟩ :: rowSpans)

theorem spansFrom_scanRowSpans {cellCount index first : Nat} (hco : 2 ≤ columnCount) {cells : List Cell}
    (hcx : index + cells.length = cellCount) (hf : first ≤ index) (hro : index - first ≤ columnCount) :
    SpansFrom columnCount cellCount first (scanRowSpans columnCount cellCount index first cells) := by
  induction cells generalizing index first with
  | nil =>
    rw [length_nil, Nat.add_zero] at hcx
    subst hcx
    exact .last false hf hro
  | cons c cells ih =>
    rw [length_cons] at hcx
    rw [scanRowSpans]
    by_cases hfull : index - first = columnCount
    · have hnarrow : ¬(c.displayWidth = 2 ∧ index - index + 1 = columnCount) := by omega
      obtain rfl : index = first + columnCount := by omega
      simp only [hfull, if_true, hnarrow, if_false, append_nil, singleton_append]
      exact .soft false (ih (by omega) (by omega) (by omega))
    · by_cases hwide : c.displayWidth = 2 ∧ index - first + 1 = columnCount
      · obtain rfl : index = first + (columnCount - 1) := by omega
        simp only [hfull, if_false, hwide, if_true, nil_append, singleton_append, and_self]
        exact .softWide false (ih (by omega) (by omega) (by omega))
      · simp only [hfull, if_false, hwide, nil_append]
        exact ih (by omega) (by omega) (by omega)

theorem scanRowSpans_block {cellCount index first : Nat} {block : List Cell}
    (hft : index - first + block.length ≤ columnCount)
    (hl : index - first + block.length = columnCount → ∀ c, block.getLast? = some c → c.displayWidth ≠ 2)
    (hf : first ≤ index) (cells : List Cell) :
    scanRowSpans columnCount cellCount index first (block ++ cells) =
      scanRowSpans columnCount cellCount (index + block.length) first cells := by
  induction block generalizing index with
  | nil => rfl
  | cons c block ih =>
    rw [length_cons] at hft hl
    have hop : index - first ≠ columnCount := by omega
    have hnarrow : ¬(c.displayWidth = 2 ∧ index - first + 1 = columnCount) := by
      rintro ⟨hwide, hfull⟩
      obtain rfl : block = [] := length_eq_zero_iff.1 (by omega)
      exact hl hfull c rfl hwide
    rw [cons_append, scanRowSpans]
    simp only [hop, if_false, hnarrow, nil_append]
    rw [ih (by omega) (fun hfull last hg => hl (by omega) last ?_) (by omega), length_cons, Nat.add_assoc,
      Nat.add_comm 1]
    cases block with
    | nil => simp at hg
    | cons next block => rwa [List.getLast?_cons_cons]

theorem rowSpans_eq_scan (cells : List Cell) (hco : 1 ≤ columnCount) :
    computeRewrappedRowSpans cells columnCount = scanRowSpans columnCount cells.length 0 0 cells := by
  have hmax : max columnCount 1 = columnCount := Nat.max_eq_left hco
  simp only [computeRewrappedRowSpans, hmax]
  split_ifs with hshort
  · have hblock := @scanRowSpans_block columnCount cells.length 0 0 cells (by omega) (by omega) (le_refl 0) []
    rw [append_nil] at hblock
    rw [hblock]
    rfl
  · rfl

theorem spansFrom_rowSpans (cells : List Cell) (hco : 2 ≤ columnCount) :
    SpansFrom columnCount cells.length 0 (computeRewrappedRowSpans cells columnCount) := by
  rw [rowSpans_eq_scan cells (by omega)]
  exact spansFrom_scanRowSpans hco (Nat.zero_add _) (le_refl 0) (Nat.zero_le _)

theorem hasPromptMark_scanRowSpans (columnCount cellCount index first : Nat) (cells : List Cell) :
    ∀ span ∈ scanRowSpans columnCount cellCount index first cells, span.rowMetadata.hasPromptMark = false := by
  induction cells generalizing index first with
  | nil => simp [scanRowSpans]
  | cons c cells ih =>
    intro span hrowSpan
    simp only [scanRowSpans, mem_append] at hrowSpan
    rcases hrowSpan with (hsoft | hsoftWide) | hr
    · split_ifs at hsoft
      · rw [mem_singleton.1 hsoft]
      · simp at hsoft
    · split_ifs at hsoftWide <;> simp_all
    · exact ih _ _ span hr

/-! ### Finding an offset -/

variable {counts : List Nat}

theorem locateOffset_eq {index off : Nat} (hidx : index < counts.length) (hst : (counts.take index).sum ≤ off)
    (hen : off < (counts.take (index + 1)).sum ∨ index + 1 = counts.length) (rowIndex : Nat) :
    locateOffset rowIndex counts off = (rowIndex + index, off - (counts.take index).sum) := by
  induction counts generalizing index off rowIndex with
  | nil => exact absurd hidx (Nat.not_lt_zero _)
  | cons count counts ih =>
    rw [locateOffset]
    cases index with
    | zero =>
      have hhere : off < count ∨ counts = [] := by
        simpa [take_succ_cons, eq_comm] using hen
      rw [if_pos hhere]
      simp
    | succ index =>
      simp only [take_succ_cons, sum_cons, length_cons] at hidx hst hen
      have hpast : ¬(off < count ∨ counts = []) := by
        rintro (hlt | rfl)
        · omega
        · simp at hidx
      rw [if_neg hpast, @ih index (off - count) (by omega) (by omega) (by omega) (rowIndex + 1),
        take_succ_cons, sum_cons]
      refine Prod.ext ?_ ?_
      · simp only
        omega
      · simp only
        omega

theorem exists_locate (hcn : counts ≠ []) (off : Nat) :
    ∃ index, index < counts.length ∧ (counts.take index).sum ≤ off ∧
      (off < (counts.take (index + 1)).sum ∨ index + 1 = counts.length) := by
  induction counts generalizing off with
  | nil => exact absurd rfl hcn
  | cons count counts ih =>
    by_cases hhere : off < count ∨ counts = []
    · refine ⟨0, by simp, by simp, ?_⟩
      simpa [take_succ_cons, eq_comm] using hhere
    · obtain ⟨hpast, hmore⟩ := not_or.1 hhere
      obtain ⟨index, hidx, hst, hen⟩ := ih hmore (off - count)
      refine ⟨index + 1, by simpa using hidx, ?_, ?_⟩
      · rw [take_succ_cons, sum_cons]
        omega
      · rw [take_succ_cons, sum_cons, length_cons]
        omega

/-- **An offset is found in the row it lies in**: from the row's first cell on, and before the next row's, unless it is
the last row. -/
theorem locateOffset_spec (hcn : counts ≠ []) (off : Nat) :
    (locateContentCellOffset counts off).1 < counts.length ∧
      (counts.take (locateContentCellOffset counts off).1).sum ≤ off ∧
      (off < (counts.take ((locateContentCellOffset counts off).1 + 1)).sum ∨
        (locateContentCellOffset counts off).1 + 1 = counts.length) := by
  obtain ⟨index, hidx, hst, hen⟩ := exists_locate hcn off
  rw [locateContentCellOffset, locateOffset_eq hidx hst hen]
  simp only [Nat.zero_add]
  exact ⟨hidx, hst, hen⟩

/-! ### Prompt marks -/

def RewrappedRowSpan.withMark (isMarked : Bool) (span : RewrappedRowSpan) : RewrappedRowSpan :=
  { span with rowMetadata := { span.rowMetadata with hasPromptMark := isMarked || span.rowMetadata.hasPromptMark } }

theorem getElem?_markPromptRows (counts promptCellOffsets : List Nat) (rowSpans : List RewrappedRowSpan) (index : Nat) :
    (markPromptRows counts promptCellOffsets rowSpans)[index]? =
      rowSpans[index]?.map (·.withMark (promptCellOffsets.any fun off =>
        (locateContentCellOffset counts off).1 == index)) := by
  induction promptCellOffsets generalizing rowSpans with
  | nil =>
    rw [markPromptRows, foldl_nil]
    cases rowSpans[index]? <;> rfl
  | cons off offsets ih =>
    rw [markPromptRows, foldl_cons]
    refine (ih _).trans ?_
    rw [List.getElem?_modify, any_cons]
    cases rowSpans[index]? with
    | none => rfl
    | some span =>
      by_cases hidx : (locateContentCellOffset counts off).1 = index
      · simp [withMark, hidx]
      · have ho : ((locateContentCellOffset counts off).1 == index) = false := beq_eq_false_iff_ne.2 hidx
        simp [withMark, hidx, ho]

theorem length_markPromptRows (counts promptCellOffsets : List Nat) (rowSpans : List RewrappedRowSpan) :
    (markPromptRows counts promptCellOffsets rowSpans).length = rowSpans.length := by
  induction promptCellOffsets generalizing rowSpans with
  | nil => rfl
  | cons offset offsets ih =>
    rw [markPromptRows, foldl_cons]
    refine (ih _).trans ?_
    rw [length_modify]

/-! ### Marked spans -/

section

variable {columnCount cellCount first : Nat} {rowSpans : List RewrappedRowSpan}

section

variable (h : SpansFrom columnCount cellCount first rowSpans)

include h

theorem SpansFrom.mark (index : Nat) :
    SpansFrom columnCount cellCount first (rowSpans.modify index fun span =>
      { span with rowMetadata := { span.rowMetadata with hasPromptMark := true } }) := by
  induction h generalizing index with
  | last prompt instruction fits =>
    cases index with
    | zero => exact .last true instruction fits
    | succ index =>
      rw [modify_succ_cons, modify_nil]
      exact .last prompt instruction fits
  | soft prompt rest ih =>
    cases index with
    | zero => exact .soft true rest
    | succ index => exact .soft prompt (ih index)
  | softWide prompt rest ih =>
    cases index with
    | zero => exact .softWide true rest
    | succ index => exact .softWide prompt (ih index)

theorem SpansFrom.markPromptRows (counts promptCellOffsets : List Nat) :
    SpansFrom columnCount cellCount first (markPromptRows counts promptCellOffsets rowSpans) := by
  induction promptCellOffsets generalizing rowSpans with
  | nil => exact h
  | cons offset offsets ih => exact ih (h.mark _)

theorem SpansFrom.ne_nil : rowSpans ≠ [] := by
  cases h <;> simp

theorem SpansFrom.first_le : first ≤ cellCount := by
  induction h with
  | last _ instruction _ => exact instruction
  | soft _ _ ih => omega
  | softWide _ _ ih => omega

end

/-- What is true of each span: it lies inside the line where the counts above it say, it fits the width, and a row with
cells below it is full. -/
structure SpanFits (columnCount total : Nat) (span : RewrappedRowSpan) : Prop where
  ordered : span.firstCellIndex ≤ span.endCellIndex
  inside : span.endCellIndex ≤ total
  fits : span.countRowCells ≤ columnCount
  full : span.rowMetadata.rowEnd ≠ .hard → span.countRowCells = columnCount

theorem SpansFrom.spanFits (hco : 2 ≤ columnCount) (h : SpansFrom columnCount cellCount first rowSpans) :
    ∀ span ∈ rowSpans, SpanFits columnCount cellCount span := by
  induction h with
  | last prompt instruction fits =>
    intro span hm
    rw [mem_singleton.1 hm]
    exact ⟨instruction, le_refl _, fits, fun hsoft => absurd rfl hsoft⟩
  | @soft fst spans prompt rest ih =>
    have hins := rest.first_le
    refine forall_mem_cons.2 ⟨⟨by simp, hins, ?_, fun _ => ?_⟩, ih⟩
    · simp [countRowCells, countContentCells]
    · simp [countRowCells, countContentCells]
  | @softWide fst spans prompt rest ih =>
    have hins := rest.first_le
    have hc : (mk fst (fst + (columnCount - 1)) ⟨.softWide, prompt⟩).countRowCells =
        columnCount := by
      simp only [countRowCells, countContentCells]
      omega
    exact forall_mem_cons.2 ⟨⟨by simp, hins, hc.le, fun _ => hc⟩, ih⟩

/-- Each span starts where the counts above it end, and only the last one ends hard. -/
theorem SpansFrom.getElem?_spec (h : SpansFrom columnCount cellCount first rowSpans) {index : Nat}
    {span : RewrappedRowSpan} (hg : rowSpans[index]? = some span) :
    span.firstCellIndex = first + ((rowSpans.map (·.countContentCells)).take index).sum ∧
      (index + 1 = rowSpans.length ↔ span.rowMetadata.rowEnd = .hard) := by
  induction h generalizing index with
  | last prompt inside fits =>
    cases index with
    | zero =>
      obtain rfl := some_inj.1 hg
      simp
    | succ index => simp at hg
  | @soft fst spans prompt rest ih =>
    have hpos := length_pos_iff.2 rest.ne_nil
    cases index with
    | zero =>
      obtain rfl := some_inj.1 hg
      refine ⟨by simp, ⟨fun hl => ?_, fun hhard => absurd hhard (by simp)⟩⟩
      rw [length_cons] at hl
      omega
    | succ index =>
      obtain ⟨hf, hl⟩ := ih (by simpa using hg)
      refine ⟨?_, ?_⟩
      · simp [hf, countContentCells, Nat.add_assoc]
      · rw [← hl, length_cons]
        omega
  | @softWide fst spans prompt rest ih =>
    have hpos := length_pos_iff.2 rest.ne_nil
    cases index with
    | zero =>
      obtain rfl := some_inj.1 hg
      refine ⟨by simp, ⟨fun hl => ?_, fun hhard => absurd hhard (by simp)⟩⟩
      rw [length_cons] at hl
      omega
    | succ index =>
      obtain ⟨hf, hl⟩ := ih (by simpa using hg)
      refine ⟨?_, ?_⟩
      · simp [hf, countContentCells, Nat.add_assoc]
      · rw [← hl, length_cons]
        omega

/-! ### Where a row ends -/

theorem SpansFrom.flatMap_sliceRange {cells : List Cell} (h : SpansFrom columnCount cells.length first rowSpans) :
    (rowSpans.flatMap fun span => sliceRange cells span.firstCellIndex span.endCellIndex) = cells.drop first := by
  induction h with
  | last prompt inside fits => simp [sliceRange]
  | soft prompt rest ih =>
    rw [flatMap_cons, ih, sliceRange, Nat.add_sub_cancel_left, ← drop_drop, take_append_drop]
  | softWide prompt rest ih =>
    rw [flatMap_cons, ih, sliceRange, Nat.add_sub_cancel_left, ← drop_drop, take_append_drop]

structure EndsBetweenGlyphs (columnCount : Nat) (lineCells : List Cell) (span : RewrappedRowSpan) : Prop where
  soft : span.rowMetadata.rowEnd = .soft → span.countContentCells = columnCount
  softWide : span.rowMetadata.rowEnd = .softWide → span.countContentCells + 1 = columnCount ∧
    ∃ glyph, lineCells[span.endCellIndex]? = some glyph ∧ glyph.displayWidth = 2
  hard : span.rowMetadata.rowEnd = .hard → span.countContentCells ≤ columnCount
  whole : ∀ index glyph next, span.endCellIndex = index + 1 → lineCells[index]? = some glyph →
    lineCells[index + 1]? = some next → glyph.displayWidth = 2 → next.displayWidth ≠ 0

theorem scanRowSpans_endsBetweenGlyphs (hco : 2 ≤ columnCount) {before cells : List Cell} (hf : first ≤ before.length)
    (hro : before.length - first ≤ columnCount)
    (hl : before.length - first = columnCount → ∀ gl, before.getLast? = some gl → gl.displayWidth ≠ 2) :
    ∀ span ∈ scanRowSpans columnCount (before ++ cells).length before.length first cells,
      EndsBetweenGlyphs columnCount (before ++ cells) span := by
  induction cells generalizing before first with
  | nil =>
    intro span hm
    rw [append_nil] at hm ⊢
    obtain rfl := mem_singleton.1 hm
    refine ⟨(nomatch ·), (nomatch ·), fun _ => hro, fun index gl next hen _ hn => ?_⟩
    rw [List.getElem?_eq_none (by simp only at hen; omega)] at hn
    cases hn
  | cons c cells ih =>
    have happend : before ++ c :: cells = (before ++ [c]) ++ cells := by simp
    have hce : (before ++ c :: cells)[before.length]? = some c := by simp
    have hstep : ∀ {fst : Nat}, fst ≤ before.length → before.length - fst < columnCount →
        ¬ (c.displayWidth = 2 ∧ before.length - fst + 1 = columnCount) →
        ∀ span ∈ scanRowSpans columnCount (before ++ c :: cells).length (before.length + 1) fst cells,
          EndsBetweenGlyphs columnCount (before ++ c :: cells) span := by
      intro fst hle hroom hnarrow
      have hr := @ih fst (before ++ [c]) (by simp; omega) (by simp; omega) fun hfull gl hgl => ?_
      · rwa [append_assoc, @List.length_append _ before [c]] at hr
      · rw [List.getLast?_concat, some_inj] at hgl
        subst hgl
        exact fun hwide => hnarrow ⟨hwide, by simp at hfull; omega⟩
    intro span hm
    rw [scanRowSpans] at hm
    by_cases hfull : before.length - first = columnCount
    · -- the row is full: it ends soft before this cell, and the next row opens here
      have hnarrow : ¬(c.displayWidth = 2 ∧ before.length - before.length + 1 = columnCount) := by omega
      simp only [hfull, if_true, hnarrow, if_false, append_nil, singleton_append, mem_cons] at hm
      rcases hm with rfl | hm
      · refine ⟨fun _ => hfull, (nomatch ·), (nomatch ·), fun index gl next hen hgl _ => ?_⟩
        simp only at hen
        rw [List.getElem?_append_left (by omega)] at hgl
        refine fun hwide => absurd hwide (hl hfull gl ?_)
        rw [List.getLast?_eq_getElem?, hen, Nat.add_sub_cancel, hgl]
      · exact hstep (le_refl _) (by omega) hnarrow span hm
    · by_cases hwide : c.displayWidth = 2 ∧ before.length - first + 1 = columnCount
      · -- a wide glyph would start in the last column: the row leaves it empty
        simp only [hfull, if_false, hwide, if_true, nil_append, singleton_append, mem_cons, and_self] at hm
        rcases hm with rfl | hm
        · refine ⟨(nomatch ·), fun _ => ⟨hwide.2, c, hce, hwide.1⟩, (nomatch ·), fun index gl next hen _ hn _ => ?_⟩
          simp only at hen
          rw [← hen, hce, some_inj] at hn
          rw [← hn, hwide.1]
          decide
        · exact hstep (le_refl _) (by omega) (by omega) span hm
      · simp only [hfull, if_false, hwide, nil_append] at hm
        exact hstep hf (by omega) hwide span hm

/-- **The rows of a line.** They cut the line in order from its first cell on, only the last ends hard, and every row
is as full as its end says and ends between glyphs. -/
theorem computeRewrappedRowSpans_wraps (lineCells : List Cell) (columnCount : Nat) (hcols : 2 ≤ columnCount) :
    ((computeRewrappedRowSpans lineCells columnCount).flatMap fun span =>
        sliceRange lineCells span.firstCellIndex span.endCellIndex) = lineCells ∧
      ∀ index span, (computeRewrappedRowSpans lineCells columnCount)[index]? = some span →
        span.firstCellIndex =
            (((computeRewrappedRowSpans lineCells columnCount).map (·.countContentCells)).take index).sum ∧
          span.firstCellIndex ≤ span.endCellIndex ∧ span.endCellIndex ≤ lineCells.length ∧
          (index + 1 = (computeRewrappedRowSpans lineCells columnCount).length ↔ span.rowMetadata.rowEnd = .hard) ∧
          EndsBetweenGlyphs columnCount lineCells span := by
  have hspans := spansFrom_rowSpans lineCells hcols
  refine ⟨hspans.flatMap_sliceRange, fun index span hget => ?_⟩
  obtain ⟨hstart, hend⟩ := hspans.getElem?_spec hget
  have hmem := mem_of_getElem? hget
  have hfits := hspans.spanFits hcols span hmem
  refine ⟨hstart.trans (Nat.zero_add _), hfits.ordered, hfits.inside, hend, ?_⟩
  rw [rowSpans_eq_scan lineCells (by omega)] at hmem
  exact @scanRowSpans_endsBetweenGlyphs _ 0 hcols [] lineCells (Nat.zero_le _) (Nat.zero_le _) (fun _ _ => nofun)
    span hmem

/-- A wide glyph after one cell does not fit the row's last column. -/
theorem computeRewrappedRowSpans_wraps_wideGlyph : EndsBetweenGlyphs 2 [Cell.buildBlank,
    Cell.fromCharacter 'あ' 2 .default, Cell.fromCharacter ' ' 0 .default] ⟨0, 1, ⟨.softWide, false⟩⟩ :=
  ((computeRewrappedRowSpans_wraps _ 2 (le_refl 2)).2 0 _ rfl).2.2.2.2

end

end Koshi.Terminal
