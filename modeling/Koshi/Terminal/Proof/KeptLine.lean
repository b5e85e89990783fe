import Mathlib.Tactic
import Koshi.Terminal.Proof.Rewrap
import Koshi.Terminal.Proof.RowSpans

/-!
# Lines whose rows stay

Rows that each fill the width, end where a re-wrap would end them and end at a hard end re-wrap into themselves: the
spans are the rows, each offset lies in its own row, and each mark stays on its row.
-/

namespace Koshi.Terminal

open Base Koshi.Core List Option CellRow

/-! ### Kept rows -/

namespace CellRow

/-- What a re-wrap to `columnCount` needs of a row to keep it. -/
structure IsKept (columnCount : Nat) (fill : Style) (row : CellRow) : Prop where
  width : row.rowCells.length = columnCount
  narrowEnd : ∀ cell, row.rowCells.getLast? = some cell → cell.displayWidth ≠ 2
  spacer : row.rowMetadata.rowEnd = .softWide → row.rowCells.getLast? = some (.buildBlankWithStyle fill)

def Follows (row : CellRow) : RowEnd → Prop
  | .hard => True
  | .soft => row.content ≠ []
  | .softWide => isWideGlyphFirst row.content = true

/-- The count of cells the row holds before its padding. -/
def countKeptCells (row : CellRow) : Nat :=
  match row.rowMetadata.rowEnd with
  | .hard => row.content.length
  | .soft | .softWide => row.rowCells.length

/-- The row as the output holds it. -/
def toRewrappedRow (row : CellRow) : RewrappedRow := ⟨row.toSnapshot, row.countKeptCells⟩

theorem Follows.content_ne_nil {row : CellRow} {rowEnd : RowEnd} (h : row.Follows rowEnd) (hsoft : rowEnd ≠ .hard) :
    row.content ≠ [] := by
  cases rowEnd with
  | hard => exact absurd rfl hsoft
  | soft => exact h
  | softWide =>
    rintro hnil
    simp [Follows, hnil, isWideGlyphFirst] at h

end CellRow

section

variable {columns : Nat} {fill : Style} {row : CellRow}

variable {rows : List CellRow}

section

variable (hwd : row.rowCells.length = columns)

include hwd

theorem CellRow.length_content_soft (hsoft : row.rowMetadata.rowEnd = .soft) : row.content.length = columns := by
  rw [content_soft hsoft, hwd]

theorem CellRow.length_content_softWide
    (hsoft : row.rowMetadata.rowEnd = .softWide) : row.content.length = columns - 1 := by
  rw [content_softWide hsoft, length_take, hwd]
  omega

theorem CellRow.length_content_le : row.content.length ≤ columns := by
  cases hen : row.rowMetadata.rowEnd with
  | soft => exact (length_content_soft hwd hen).le
  | softWide => exact (length_content_softWide hwd hen).le.trans (Nat.sub_le ..)
  | hard =>
    rw [length_content_hard hen, ← hwd]
    exact countContentCells_le _

theorem CellRow.length_content_pos (hco : 2 ≤ columns)
    (hsoft : row.rowMetadata.rowEnd ≠ .hard) : 0 < row.content.length := by
  cases hen : row.rowMetadata.rowEnd with
  | hard => exact absurd hen hsoft
  | soft =>
    rw [length_content_soft hwd hen]
    omega
  | softWide =>
    rw [length_content_softWide hwd hen]
    omega

end

theorem CellRow.IsKept.narrowEnd_content (h : row.IsKept columns fill) (hco : 2 ≤ columns)
    (hfull : row.content.length = columns) {c : Cell} (hl : row.content.getLast? = some c) :
    c.displayWidth ≠ 2 := by
  refine h.narrowEnd c ?_
  cases hen : row.rowMetadata.rowEnd with
  | soft => rwa [content_soft hen] at hl
  | softWide =>
    rw [length_content_softWide h.width hen] at hfull
    omega
  | hard =>
    have hc := length_content_hard hen
    rwa [content_hard hen, ← hc, hfull, ← h.width, take_length] at hl

theorem scanRowSpans_follows {lastRow' : CellRow} {ln index start : Nat} (hco : 2 ≤ columns)
    (hprev : lastRow'.IsKept columns fill) (hsoft : lastRow'.rowMetadata.rowEnd ≠ .hard) (hro : row.IsKept columns fill)
    (hfw : row.Follows lastRow'.rowMetadata.rowEnd) (hidx : index = start + lastRow'.content.length)
    (cells : List Cell) :
    scanRowSpans columns ln index start (row.content ++ cells) =
      ⟨start, index, ⟨lastRow'.rowMetadata.rowEnd, false⟩⟩ ::
        scanRowSpans columns ln (index + row.content.length) index cells := by
  have hlen := length_content_le hro.width
  have hnarrowEnd := fun hfull => @CellRow.IsKept.narrowEnd_content _ _ row hro hco hfull
  have hne := hfw.content_ne_nil hsoft
  obtain ⟨fc, restCells, hct⟩ := exists_cons_of_ne_nil hne
  rw [hct, length_cons] at hlen hnarrowEnd
  have hblock := @scanRowSpans_block columns ln (index + 1) index restCells (by omega)
    (fun hfull c hl => hnarrowEnd (by omega) (by
      cases restCells with
      | nil => simp at hl
      | cons next others => rwa [List.getLast?_cons_cons])) (by omega) cells
  rw [hct, cons_append, scanRowSpans, length_cons]
  cases hen : lastRow'.rowMetadata.rowEnd with
  | hard => exact absurd hen hsoft
  | soft =>
    rw [length_content_soft hprev.width hen] at hidx
    have hfull : index - start = columns := by omega
    have hnarrow : ¬(fc.displayWidth = 2 ∧ index - index + 1 = columns) := by omega
    simp only [hfull, if_true, hnarrow, if_false, append_nil, singleton_append, hblock, Nat.add_assoc, Nat.add_comm 1]
  | softWide =>
    rw [length_content_softWide hprev.width hen] at hidx
    have hop : index - start ≠ columns := by omega
    have hfull : index - start + 1 = columns := by omega
    have hwide : fc.displayWidth = 2 := by
      rw [hen] at hfw
      simpa [CellRow.Follows, hct, isWideGlyphFirst] using hfw
    simp only [hop, if_false, hwide, hfull, and_self, if_true, nil_append, singleton_append, hblock,
      Nat.add_assoc, Nat.add_comm 1]

/-! ### The spans of a kept line -/

def KeptChain : RowEnd → List CellRow → Prop
  | _, [] => True
  | previousRowEnd, row :: rows => row.Follows previousRowEnd ∧ KeptChain row.rowMetadata.rowEnd rows

/-- The row's metadata before any mark is placed. -/
def CellRow.unmarked (row : CellRow) : RowMetadata := ⟨row.rowMetadata.rowEnd, false⟩

def listSpans (metadataOf : CellRow → RowMetadata) : Nat → List CellRow → List RewrappedRowSpan
  | _, [] => []
  | offset, row :: rows =>
    ⟨offset, offset + row.content.length, metadataOf row⟩ :: listSpans metadataOf (offset + row.content.length) rows

/-- What the rows add to their line. -/
def joinContent (rows : List CellRow) : List Cell := rows.flatMap content

@[simp] theorem joinContent_nil : joinContent [] = [] := rfl

@[simp] theorem joinContent_cons (row : CellRow) (rows : List CellRow) :
    joinContent (row :: rows) = row.content ++ joinContent rows := rfl

@[simp] theorem joinContent_append (rows otherRows : List CellRow) :
    joinContent (rows ++ otherRows) = joinContent rows ++ joinContent otherRows := flatMap_append

theorem length_joinContent (rows : List CellRow) : (joinContent rows).length = (rows.map (·.content.length)).sum := by
  rw [joinContent, length_flatMap]

theorem scanRowSpans_kept {lastRow' last : CellRow} {ln c fc : Nat} (hco : 2 ≤ columns)
    (hk : ∀ row ∈ lastRow' :: (rows ++ [last]), row.IsKept columns fill)
    (hsoft : ∀ row ∈ lastRow' :: rows, row.rowMetadata.rowEnd ≠ .hard) (hhard : last.rowMetadata.rowEnd = .hard)
    (hchain : KeptChain lastRow'.rowMetadata.rowEnd (rows ++ [last])) (hidx : c = fc + lastRow'.content.length)
    (hc : ln = c + (joinContent (rows ++ [last])).length) :
    scanRowSpans columns ln c fc (joinContent (rows ++ [last])) =
      ⟨fc, c, ⟨lastRow'.rowMetadata.rowEnd, false⟩⟩ :: listSpans unmarked c (rows ++ [last]) := by
  induction rows generalizing lastRow' c fc with
  | nil =>
    obtain ⟨hprev, hk⟩ := forall_mem_cons.1 hk
    have hl := hk last (by simp)
    have hstep := @scanRowSpans_follows columns fill last lastRow' ln c
      fc hco hprev (hsoft lastRow' (by simp)) hl hchain.1 hidx []
    rw [append_nil] at hstep
    simp only [nil_append, joinContent_cons, joinContent_nil, append_nil] at hc ⊢
    rw [hstep, scanRowSpans, listSpans, listSpans, unmarked, hhard, hc]
  | cons row rows ih =>
    obtain ⟨hprev, hk⟩ := forall_mem_cons.1 hk
    obtain ⟨hsoft', hsoft⟩ := forall_mem_cons.1 hsoft
    obtain ⟨hfw, hchain⟩ := hchain
    rw [cons_append, joinContent_cons] at hc ⊢
    rw [scanRowSpans_follows hco hprev hsoft' (hk row (by simp)) hfw hidx, listSpans]
    congr 1
    refine ih hk hsoft hchain rfl ?_
    rw [length_append] at hc
    rw [hc, Nat.add_assoc]

variable {last : CellRow}

/-- **A kept line re-wraps into its rows.** -/
theorem rowSpans_kept (hco : 2 ≤ columns) (hk : ∀ row ∈ rows ++ [last], row.IsKept columns fill)
    (hsoft : ∀ row ∈ rows, row.rowMetadata.rowEnd ≠ .hard) (hhard : last.rowMetadata.rowEnd = .hard)
    (hchain : KeptChain .hard (rows ++ [last])) :
    computeRewrappedRowSpans (joinContent (rows ++ [last])) columns = listSpans unmarked 0 (rows ++ [last]) := by
  rw [rowSpans_eq_scan _ (by omega)]
  have hf : ∀ row : CellRow, row.IsKept columns fill → ∀ ln cells,
      scanRowSpans columns ln 0 0 (row.content ++ cells) = scanRowSpans columns ln row.content.length 0 cells := by
    intro row hro ln cells
    have hlen := length_content_le hro.width
    have hblock := @scanRowSpans_block columns ln 0 0 row.content (by omega)
      (fun hfull c hl => hro.narrowEnd_content hco (by omega) hl) (le_refl 0) cells
    rwa [Nat.zero_add] at hblock
  cases rows with
  | nil =>
    have hspan := hf last (hk last (by simp)) last.content.length []
    rw [append_nil] at hspan
    simp only [nil_append, joinContent_cons, joinContent_nil, append_nil, listSpans, unmarked, hhard, Nat.zero_add]
    rw [hspan, scanRowSpans]
  | cons row rows =>
    rw [cons_append] at hk hchain ⊢
    rw [joinContent_cons, hf row (hk row (by simp)), listSpans, Nat.zero_add]
    refine scanRowSpans_kept hco hk hsoft hhard hchain.2 (Nat.zero_add _).symm ?_
    rw [length_append]

/-! ### Marks and offsets in a kept line -/

def listPromptOffsets : Nat → List CellRow → List Nat
  | _, [] => []
  | offset, row :: rows =>
    (if row.rowMetadata.hasPromptMark then [offset] else []) ++ listPromptOffsets (offset + row.content.length) rows

variable (offset : Nat)

theorem listPromptOffsets_append (rows : List CellRow) (row : CellRow) :
    listPromptOffsets offset (rows ++ [row]) = listPromptOffsets offset rows ++
      if row.rowMetadata.hasPromptMark then [offset + (joinContent rows).length] else [] := by
  induction rows generalizing offset with
  | nil => simp [listPromptOffsets, joinContent]
  | cons first rows ih =>
    rw [cons_append, listPromptOffsets, ih, listPromptOffsets, append_assoc, joinContent_cons,
      length_append, Nat.add_assoc]

theorem mem_listPromptOffsets {offset promptOffset : Nat} :
    promptOffset ∈ listPromptOffsets offset rows ↔ ∃ index row, rows[index]? = some row ∧
      row.rowMetadata.hasPromptMark = true ∧
        promptOffset = offset + ((rows.map (·.content.length)).take index).sum := by
  induction rows generalizing offset with
  | nil => simp [listPromptOffsets]
  | cons fst rows ih =>
    rw [listPromptOffsets, mem_append, ih]
    constructor
    · rintro (hf | ⟨index, row, hro, hmark, hoff⟩)
      · split_ifs at hf with hmark
        · exact ⟨0, fst, rfl, hmark, by simpa using hf⟩
        · simp at hf
      · refine ⟨index + 1, row, by simpa using hro, hmark, ?_⟩
        rw [hoff, map_cons, take_succ_cons, sum_cons, Nat.add_assoc]
    · rintro ⟨index, row, hro, hmark, hoff⟩
      cases index with
      | zero =>
        obtain rfl := some_inj.1 hro
        refine .inl ?_
        rw [if_pos hmark]
        simpa using hoff
      | succ index =>
        refine .inr ⟨index, row, by simpa using hro, hmark, ?_⟩
        rw [hoff, map_cons, take_succ_cons, sum_cons, Nat.add_assoc]

theorem locateOffset_row {rows : List CellRow} {index col : Nat} {row : CellRow} (hro : rows[index]? = some row)
    (hcol : col < row.content.length ∨ index + 1 = rows.length) :
    locateContentCellOffset (rows.map (·.content.length))
      (((rows.map (·.content.length)).take index).sum + col) = (index, col) := by
  have hidx : index < rows.length := (List.getElem?_eq_some_iff.1 hro).1
  have hc : (rows.map (·.content.length))[index]? = some row.content.length := by
    rw [List.getElem?_map, hro, map_some]
  have htake : ((rows.map (·.content.length)).take (index + 1)).sum =
      ((rows.map (·.content.length)).take index).sum + row.content.length := by
    rw [take_add_one, hc, toList_some, sum_append, sum_singleton]
  rw [locateContentCellOffset, @locateOffset_eq (rows.map (·.content.length)) index _ (by simpa using hidx) (by omega)
    (by rw [htake, length_map]; omega)]
  simp

variable (metadataOf : CellRow → RowMetadata)

theorem getElem?_listSpans (rows : List CellRow) (index : Nat) :
    (listSpans metadataOf offset rows)[index]? = rows[index]?.map fun row =>
      ⟨offset + ((rows.map (·.content.length)).take index).sum,
        offset + ((rows.map (·.content.length)).take index).sum + row.content.length, metadataOf row⟩ := by
  induction rows generalizing offset index with
  | nil => rfl
  | cons first rows ih =>
    cases index with
    | zero => simp [listSpans]
    | succ index =>
      rw [listSpans, List.getElem?_cons_succ, List.getElem?_cons_succ, ih, map_cons, take_succ_cons,
        sum_cons, Nat.add_assoc]

theorem length_listSpans (rows : List CellRow) : (listSpans metadataOf offset rows).length = rows.length := by
  induction rows generalizing offset with
  | nil => rfl
  | cons row rows ih => rw [listSpans, length_cons, ih, length_cons]

theorem map_countContentCells_listSpans (rows : List CellRow) :
    (listSpans metadataOf offset rows).map (·.countContentCells) = rows.map (·.content.length) := by
  induction rows generalizing offset with
  | nil => rfl
  | cons row rows ih =>
    rw [listSpans, map_cons, map_cons, ih, RewrappedRowSpan.countContentCells, Nat.add_sub_cancel_left]

theorem buildSpanRow_kept (hco : 2 ≤ columns) (hro : row.IsKept columns fill) (before afterCells : List Cell) :
    ReflowOutput.buildSpanRow columns fill (before ++ (row.content ++ afterCells))
        ⟨before.length, before.length + row.content.length, row.rowMetadata⟩ = row.toRewrappedRow := by
  have hslice : sliceRange (before ++ (row.content ++ afterCells)) before.length
      (before.length + row.content.length) = row.content := by
    rw [sliceRange, drop_left, Nat.add_sub_cancel_left, take_left]
  have hlen := length_content_le hro.width
  simp only [ReflowOutput.buildSpanRow, hslice, RewrappedRow.fromLeadingCells, RewrappedRowSpan.countRowCells,
    RewrappedRowSpan.countContentCells, Nat.add_sub_cancel_left, toRewrappedRow, countKeptCells]
  cases hen : row.rowMetadata.rowEnd with
  | hard =>
    simp only [reduceCtorEq, false_and, if_false, Nat.max_eq_left hlen, toSnapshot]
    rw [content_hard hen, ← hro.width, fromPaddedRowCells_take_content]
  | soft =>
    simp only [reduceCtorEq, false_and, if_false, toSnapshot, content_soft hen, hro.width, Nat.max_self]
    rw [← hro.width]
    rfl
  | softWide =>
    have hspacer := hro.spacer hen
    have hcx : row.content ++ [.buildBlankWithStyle fill] = row.rowCells := by
      rw [content_softWide hen, ← dropLast_eq_take]
      exact dropLast_append_getLast? _ hspacer
    have hc : row.content.length + 1 = columns := by
      rw [length_content_softWide hro.width hen]
      omega
    simp only [true_and, hc, Nat.max_self, hro.width, toSnapshot]
    split_ifs with hstyled
    · rw [hcx, ← hro.width]
      rfl
    · rw [not_not.1 hstyled] at hcx
      rw [fromPaddedRowCells_eq hlen, ← hc, Nat.add_sub_cancel_left, replicate_one,
        show Cell.buildBlank = .buildBlankWithStyle .default from rfl, hcx]

theorem map_buildSpanRow_listSpans (hco : 2 ≤ columns) (hk : ∀ row ∈ rows, row.IsKept columns fill)
    (before : List Cell) :
    (listSpans (·.rowMetadata) before.length rows).map
        (ReflowOutput.buildSpanRow columns fill (before ++ joinContent rows)) =
      rows.map toRewrappedRow := by
  induction rows generalizing before with
  | nil => rfl
  | cons row rows ih =>
    obtain ⟨hro, hrows⟩ := forall_mem_cons.1 hk
    have ih := ih hrows (before ++ row.content)
    rw [length_append, append_assoc] at ih
    rw [listSpans, map_cons, map_cons, joinContent_cons, buildSpanRow_kept hco hro, ih]

theorem markPromptRows_kept (hco : 2 ≤ columns) {rows : List CellRow} (hk : ∀ row ∈ rows, row.IsKept columns fill)
    (hsoft : ∀ row ∈ rows, row.rowMetadata.rowEnd ≠ .hard) :
    ReflowOutput.markPromptRows ((rows ++ [last]).map (·.content.length)) (listPromptOffsets 0 (rows ++ [last]))
      (listSpans unmarked 0 (rows ++ [last])) = listSpans (·.rowMetadata) 0 (rows ++ [last]) := by
  have hlocate : ∀ index row, (rows ++ [last])[index]? = some row →
      (locateContentCellOffset ((rows ++ [last]).map (·.content.length))
        (0 + (((rows ++ [last]).map (·.content.length)).take index).sum)).1 = index := by
    intro index row hro
    have hidx := (List.getElem?_eq_some_iff.1 hro).1
    rw [length_append, length_singleton] at hidx
    have hfo := @locateOffset_row (rows ++ [last]) index 0 row hro (by
      by_cases hl : index = rows.length
      · exact .inr (by rw [hl, length_append, length_singleton])
      · rw [List.getElem?_append_left (by omega)] at hro
        have hm := mem_of_getElem? hro
        exact .inl (length_content_pos (hk row hm).width hco (hsoft row hm)))
    rw [Nat.add_zero] at hfo
    rw [Nat.zero_add, hfo]
  apply ext_getElem?
  intro index
  rw [getElem?_markPromptRows, getElem?_listSpans, getElem?_listSpans]
  cases hro : (rows ++ [last])[index]? with
  | none => rfl
  | some row =>
    have hmd : ((listPromptOffsets 0 (rows ++ [last])).any fun offset =>
        (locateContentCellOffset ((rows ++ [last]).map (·.content.length)) offset).1 == index) =
          row.rowMetadata.hasPromptMark := by
      rw [Bool.eq_iff_iff, List.any_eq_true]
      constructor
      · rintro ⟨offset, hoff, hfo⟩
        obtain ⟨other, otherRow, ho, hmark, rfl⟩ := mem_listPromptOffsets.1 hoff
        rw [hlocate other otherRow ho, beq_iff_eq] at hfo
        subst hfo
        rwa [← some_inj.1 (ho.symm.trans hro)]
      · intro hmark
        exact ⟨_, mem_listPromptOffsets.2 ⟨index, row, hro, hmark, rfl⟩, by rw [hlocate index row hro,
          beq_self_eq_true]⟩
    simp only [map_some, RewrappedRowSpan.withMark, unmarked, hmd, Bool.or_false]

/-- **Pushing a kept line appends its rows as they are.** -/
theorem pushLogicalLine_kept {output : ReflowOutput} (hco : 2 ≤ output.columnCount) {rows : List CellRow}
    (hk : ∀ row ∈ rows ++ [last], row.IsKept output.columnCount output.backgroundStyle)
    (hsoft : ∀ row ∈ rows, row.rowMetadata.rowEnd ≠ .hard) (hhard : last.rowMetadata.rowEnd = .hard)
    (hchain : KeptChain .hard (rows ++ [last])) (contentOffset : Option Nat) :
    output.pushLogicalLine ⟨joinContent (rows ++ [last]), listPromptOffsets 0 (rows ++ [last])⟩ contentOffset =
      { output with
        rewrappedLineShapes := output.rewrappedLineShapes ++ [⟨output.rewrappedRows.length, (rows ++ [last]).length⟩]
        rewrappedRowContentCellCounts := output.rewrappedRowContentCellCounts ++ (rows ++ [last]).map (·.content.length)
        newCursorPhysicalRowIndex := (contentOffset.map fun offset => output.rewrappedRows.length +
          (locateContentCellOffset ((rows ++ [last]).map (·.content.length)) offset).1).getD
            output.newCursorPhysicalRowIndex
        newCursorColumnIndex := (contentOffset.map fun offset =>
          (locateContentCellOffset ((rows ++ [last]).map (·.content.length)) offset).2).getD output.newCursorColumnIndex
        rewrappedRows := output.rewrappedRows ++ (rows ++ [last]).map toRewrappedRow } := by
  have hspans := rowSpans_kept hco hk hsoft hhard hchain
  have hmarks := @markPromptRows_kept _ _ last hco rows (fun row hro => hk row (mem_append_left _ hro)) hsoft
  have hrows := map_buildSpanRow_listSpans hco hk []
  rw [nil_append, length_nil] at hrows
  simp only [ReflowOutput.pushLogicalLine, if_neg (show ¬output.columnCount ≤ 1 by omega), hspans,
    map_countContentCells_listSpans, hmarks, hrows, length_listSpans]
  cases contentOffset <;> rfl

end

end Koshi.Terminal
