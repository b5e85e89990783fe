import Koshi.Runtime.SelectionSpans

/-!
# What is highlighted is what is copied

Counted from the top of the window, the rows of a selection are integers, and both sides cut the selection down to the
window by the same rule. The highlight first takes the two rows to signed words, so the two sides part where that
changes a row.
-/

namespace Koshi.Runtime

open Base Koshi.Core Terminal List Option TextView PaneText

variable {view : TextView} {selection : Selection} {width : Nat}

/-! ### The columns of a copy -/

/-- The columns that a copy takes from a row. -/
def copiedColumns (view : TextView) (selection : Selection) (rowIndex : Nat) : List Nat :=
  let ends := orderSelectionPositions selection.anchor selection.cursor
  if max ends.startPosition.rowIndex view.getFirstRowIndex ≤ rowIndex ∧
      rowIndex ≤ min ends.endPosition.rowIndex view.getLastRowIndex then
    let columns := selectedColumns (decide (selection.selectionKind = .block)) ends (view.getColumnCount - 1) rowIndex
    List.range' columns.1 (min (columns.2 + 1) view.getColumnCount - columns.1)
  else []

/-- The text of the copied columns of a row: every cell that is no layout. -/
def copiedText (view : TextView) (selection : Selection) (rowIndex : Nat) : List Char :=
  (copiedColumns view selection rowIndex).flatMap fun columnIndex =>
    if view.isLayoutCell rowIndex columnIndex then []
    else ((view.readCell rowIndex columnIndex).map fun cell => cell.character :: cell.listCombiningCharacters).getD []

theorem flatMap_range'_eq (cells : List Cell) (fst count : Nat) :
    ((cells.take (fst + count)).drop fst).flatMap Cell.listSelectedCharacters ++
        List.replicate (fst + count - max fst cells.length) ' ' =
      (List.range' fst count).flatMap fun col =>
        (cells[col]?.getD .buildBlank).listSelectedCharacters := by
  induction count generalizing fst with
  | zero => simp
  | succ count ih =>
    have hn := ih (fst + 1)
    rw [Nat.add_right_comm, Nat.add_assoc] at hn
    rw [List.range'_succ, flatMap_cons, ← hn]
    by_cases hce : fst < cells.length
    · rw [drop_eq_getElem_cons (by rw [length_take]; omega), getElem_take, flatMap_cons,
        List.getElem?_eq_getElem hce, getD_some, append_assoc]
      congr 4
      omega
    · rw [drop_eq_nil_of_le (by rw [length_take]; omega),
        drop_eq_nil_of_le (by rw [length_take]; omega), List.getElem?_eq_none (by omega)]
      have hc : fst + (count + 1) - max fst cells.length =
        fst + (count + 1) - max (fst + 1) cells.length + 1 := by omega
      rw [hc]
      rfl

theorem serializeSelectedColumns_eq (cells : List Cell) (rowEnd : RowEnd) (width first last : Nat) :
    serializeSelectedColumns cells rowEnd width first last =
      (List.range' first (min (last + 1) width - first)).flatMap fun col =>
        if rowEnd = .softWide ∧ col + 1 = width then []
        else (cells[col]?.getD .buildBlank).listSelectedCharacters := by
  unfold serializeSelectedColumns
  generalize htext : (if rowEnd = .softWide then width - 1 else width) = textColumns
  dsimp only
  have htake : cells.take (min (min (last + 1) textColumns) cells.length) =
      cells.take (min (last + 1) textColumns) := by
    rw [← take_take, take_length]
  have hrd : ((cells.take (min (last + 1) textColumns)).drop first).flatMap Cell.listSelectedCharacters ++
      List.replicate (min (last + 1) textColumns - max first cells.length) ' ' =
      (List.range' first (min (last + 1) textColumns - first)).flatMap fun col =>
        (cells[col]?.getD .buildBlank).listSelectedCharacters := by
    by_cases hf : first ≤ min (last + 1) textColumns
    · rw [← flatMap_range'_eq, Nat.add_sub_cancel' hf]
    · rw [drop_eq_nil_of_le (by rw [length_take]; omega), Nat.sub_eq_zero_of_le (by omega),
        Nat.sub_eq_zero_of_le (by omega)]
      rfl
  rw [htake, hrd]
  by_cases hspacer : rowEnd = .softWide ∧ first < width ∧ width ≤ last + 1
  · -- the row's last column is the spacer, and it is among the selected ones
    obtain ⟨rfl, hf, hl⟩ := hspacer
    rw [if_pos rfl] at htext
    have hc : min (last + 1) width - first = min (last + 1) textColumns - first + 1 := by omega
    rw [hc, List.range'_1_concat, flatMap_append, flatMap_singleton, if_pos ⟨rfl, by omega⟩, append_nil]
    refine flatMap_congr fun col hcol => ?_
    rw [List.mem_range'_1] at hcol
    rw [if_neg (by omega)]
  · have hc : min (last + 1) textColumns - first = min (last + 1) width - first := by
      rw [← htext]
      split_ifs with hwide
      · have := not_and.1 hspacer hwide
        omega
      · rfl
    rw [hc]
    refine flatMap_congr fun col hcol => ?_
    rw [List.mem_range'_1] at hcol
    rw [if_neg fun hboth => hspacer ⟨hboth.1, by omega⟩]

theorem readCell_of_row {index : Nat} {row : Option (List Cell × RowEnd)} (hro : (view.readRow index).bind (·.1) = row)
    {col : Nat} (hcol : col < view.getColumnCount) :
    view.readCell index col = row.map fun (cells, _) => cells[col]?.getD .buildBlank := by
  rw [← hro, TextView.readCell, getCell]
  cases view.readRow index with
  | none => rfl
  | some read =>
    obtain ⟨_ | ⟨cells, rowEnd⟩, nextView⟩ := read
    · rfl
    · simp only [map_some, bind_some]
      cases cells[col]? with
      | none => exact if_pos hcol
      | some c => rfl

/-- **A turn of the copy writes the text of the row's copied columns.** -/
theorem serializeSelectedRow_eq {index : Nat} {rowEnd : RowEnd}
    (hf : max (orderSelectionPositions selection.anchor selection.cursor).startPosition.rowIndex
      view.getFirstRowIndex ≤ index)
    (hl : index ≤ min (orderSelectionPositions selection.anchor selection.cursor).endPosition.rowIndex
      view.getLastRowIndex)
    (hen : view.getRowEnd index = some rowEnd) (shouldTrim : Bool) (wr : List Char × Bool) :
    serializeSelectedRow view selection shouldTrim wr index =
      (wr.1 ++
        (if wr.2 && (decide (selection.selectionKind = .block) || !view.isSoftWrapped (index - 1)) then ['\n']
          else []) ++
        (if shouldTrim && (decide (selection.selectionKind = .block) || rowEnd = .hard) then
            trimEnd (copiedText view selection index)
          else copiedText view selection index), true) := by
  unfold serializeSelectedRow
  rw [hen]
  dsimp only
  generalize hsel : selectedColumns (decide (selection.selectionKind = .block))
    (orderSelectionPositions selection.anchor selection.cursor) (view.getColumnCount - 1) index = columns
  have hco : copiedColumns view selection index =
      List.range' columns.1 (min (columns.2 + 1) view.getColumnCount - columns.1) := by
    rw [copiedColumns]
    dsimp only
    rw [if_pos ⟨hf, hl⟩, hsel]
  cases hrd : (view.readRow index).bind (·.1) with
  | none =>
    have htext : [] = copiedText view selection index := by
      rw [copiedText, hco]
      refine (flatMap_eq_nil_iff.2 fun col hcol => ?_).symm
      rw [List.mem_range'_1] at hcol
      rw [readCell_of_row hrd (by omega)]
      split <;> rfl
    exact htext ▸ rfl
  | some row =>
    have htext : serializeSelectedColumns row.1 rowEnd view.getColumnCount columns.1 columns.2 =
        copiedText view selection index := by
      rw [copiedText, hco, serializeSelectedColumns_eq]
      refine flatMap_congr fun col hcol => ?_
      rw [List.mem_range'_1] at hcol
      rw [isLayoutCell, isWideWrapSpacer, hen, readCell_of_row hrd (by omega)]
      simp only [map_some, getD_some]
      unfold Cell.listSelectedCharacters
      by_cases hspacer : rowEnd = .softWide ∧ col + 1 = view.getColumnCount
      · rw [if_pos hspacer, if_pos (by simp [hspacer.1, hspacer.2])]
      · have hno : (decide (some rowEnd = some RowEnd.softWide) && decide (col + 1 = view.getColumnCount)) = false := by
          simpa using hspacer
        rw [if_neg hspacer, hno, Bool.false_or]
        simp only [decide_eq_true_eq]
    exact htext ▸ rfl

/-! ### Rows of the window -/

def SelectsCell (selection : Selection) (width : Nat) (first last : Int) (shown column : Nat) : Prop :=
  let ends := orderSelectionPositions selection.anchor selection.cursor
  first ≤ shown ∧ shown ≤ last ∧ column < width ∧
    if selection.selectionKind = .block then
      min ends.startPosition.columnIndex ends.endPosition.columnIndex ≤ column ∧
        column ≤ max ends.startPosition.columnIndex ends.endPosition.columnIndex
    else
      (shown = first → ends.startPosition.columnIndex ≤ column) ∧ (shown = last → column ≤ ends.endPosition.columnIndex)

def IsHighlighted (rowSpans : Option (List (Nat × Nat × Nat))) (shown column : Nat) : Prop :=
  ∃ startColumn stop, (shown, startColumn, stop) ∈ rowSpans.getD [] ∧ startColumn ≤ column ∧ column ≤ stop

/-- The rows of a selection as signed words, counted from the top of the window. -/
def wrappedRow (totalPushedLineCount scrollbackOffset rowIndex : Nat) : Int :=
  asI64 (rowIndex - (totalPushedLineCount - scrollbackOffset))

theorem asI64_sub_asI64 (pushed offset row : Nat) :
    asI64 (asI64 row - asI64 (asI64 pushed - asI64 offset)) = wrappedRow pushed offset row := by
  simp only [wrappedRow, asI64, Int.bmod_sub_bmod, Int.sub_bmod_bmod]

theorem getD_ite_isEmpty (rowSpans : List (Nat × Nat × Nat)) :
    (if rowSpans.isEmpty = true then none else some rowSpans).getD [] = rowSpans := by
  cases rowSpans <;> rfl

theorem isHighlighted_selectionSpans {gridView : GridView} {pushed offset : Nat} (shown column : Nat) :
    IsHighlighted (computeSelectionSpans selection gridView pushed offset) shown column ↔
      shown < gridView.getViewDimensions.1 ∧
        SelectsCell selection gridView.getViewDimensions.2
          (wrappedRow pushed offset
            (orderSelectionPositions selection.anchor selection.cursor).startPosition.rowIndex)
          (wrappedRow pushed offset
            (orderSelectionPositions selection.anchor selection.cursor).endPosition.rowIndex) shown column := by
  unfold computeSelectionSpans
  generalize gridView.getViewDimensions = dimensions
  obtain ⟨rowCount, width⟩ := dimensions
  generalize hord : orderSelectionPositions selection.anchor selection.cursor = ends
  obtain ⟨selectionStart, selectionEnd⟩ := ends
  dsimp only
  rw [asI64_sub_asI64, asI64_sub_asI64]
  generalize wrappedRow pushed offset selectionStart.rowIndex = first
  generalize wrappedRow pushed offset selectionEnd.rowIndex = last
  simp only [SelectsCell, hord]
  by_cases hem : rowCount = 0 ∨ width = 0
  · rw [if_pos hem]
    refine ⟨fun ⟨_, _, hm, _⟩ => absurd hm not_mem_nil, fun h => ?_⟩
    omega
  rw [if_neg hem]
  by_cases hhidden : last < 0 ∨ first > (rowCount : Int) - 1
  · rw [if_pos hhidden]
    refine ⟨fun ⟨_, _, hm, _⟩ => absurd hm not_mem_nil, fun h => ?_⟩
    omega
  rw [if_neg hhidden]
  rw [IsHighlighted, getD_ite_isEmpty]
  simp only [mem_filterMap, List.mem_range'_1]
  constructor
  · rintro ⟨start, ec, ⟨row, hro, hspan⟩, hst, hen⟩
    by_cases hblock : selection.selectionKind = .block
    · rw [if_pos hblock] at hspan ⊢
      dsimp only at hspan
      split_ifs at hspan with hco
      simp only [some_inj, Prod.mk.injEq] at hspan
      obtain ⟨rfl, rfl, rfl⟩ := hspan
      omega
    · rw [if_neg hblock] at hspan ⊢
      dsimp only at hspan
      split_ifs at hspan with hf hl hco hco hl hco hco <;>
        simp only [some_inj, Prod.mk.injEq] at hspan <;> obtain ⟨rfl, rfl, rfl⟩ := hspan <;> omega
  · rintro ⟨hro, hf, hl, hcol, hsel⟩
    by_cases hblock : selection.selectionKind = .block
    · rw [if_pos hblock] at hsel
      simp only [if_pos hblock]
      exact ⟨_, min (max selectionStart.columnIndex selectionEnd.columnIndex) (width - 1),
        ⟨shown, by omega, if_pos (by omega)⟩, by omega, by omega⟩
    · rw [if_neg hblock] at hsel
      simp only [if_neg hblock]
      have hst : (if (shown : Int) = first then selectionStart.columnIndex else 0) ≤ column := by
        split_ifs with heq
        · exact hsel.1 heq
        · exact Nat.zero_le _
      have hen : column ≤ min (if (shown : Int) = last then selectionEnd.columnIndex else width - 1) (width - 1) := by
        split_ifs with heq
        · have := hsel.2 heq
          omega
        · omega
      exact ⟨_, _, ⟨shown, by omega, if_pos (hst.trans hen)⟩, hst, hen⟩

theorem isHighlighted_of_span {gridView : GridView} {pushed offset shown : Nat} {start ec : Nat}
    (h : (shown, start, ec) ∈ (computeSelectionSpans selection gridView pushed offset).getD []) :
    start ≤ ec := by
  unfold computeSelectionSpans at h
  dsimp only at h
  split at h
  · exact absurd h not_mem_nil
  split at h
  · exact absurd h not_mem_nil
  · rw [getD_ite_isEmpty] at h
    obtain ⟨row, -, hspan⟩ := mem_filterMap.1 h
    simp only [ite_none_right_eq_some, some_inj, Prod.mk.injEq] at hspan
    obtain ⟨hco, -, rfl, rfl⟩ := hspan
    exact hco

theorem mem_copiedColumns_iff (top : Nat) {shown column : Nat} (hf : view.getFirstRowIndex ≤ top + shown)
    (hl : top + shown ≤ view.getLastRowIndex) :
    column ∈ copiedColumns view selection (top + shown) ↔
      SelectsCell selection view.getColumnCount
        ((orderSelectionPositions selection.anchor selection.cursor).startPosition.rowIndex - top)
        ((orderSelectionPositions selection.anchor selection.cursor).endPosition.rowIndex - top) shown column := by
  unfold copiedColumns SelectsCell selectedColumns
  generalize orderSelectionPositions selection.anchor selection.cursor = ends
  obtain ⟨first, last⟩ := ends
  dsimp only
  by_cases hro : max first.rowIndex view.getFirstRowIndex ≤ top + shown ∧
      top + shown ≤ min last.rowIndex view.getLastRowIndex
  · rw [if_pos hro, List.mem_range'_1]
    by_cases hblock : selection.selectionKind = .block
    · rw [if_pos (decide_eq_true hblock), if_pos hblock]
      omega
    · rw [if_neg (by simpa using hblock), if_neg hblock]
      dsimp only
      split_ifs <;> omega
  · rw [if_neg hro]
    refine ⟨fun h => absurd h not_mem_nil, fun h => ?_⟩
    omega

/-! ### Signed rows -/

theorem asI64_eq (a : Int) : asI64 a = if a % 2 ^ 64 < 2 ^ 63 then a % 2 ^ 64 else a % 2 ^ 64 - 2 ^ 64 := rfl

theorem asI64_of_within {a : Int} (hlow : -2 ^ 63 ≤ a) (hhigh : a < 2 ^ 63) : asI64 a = a := by
  rw [asI64_eq]
  split_ifs <;> omega

theorem asI64_of_le {a : Int} (hlow : 2 ^ 63 ≤ a) (hhigh : a < 2 ^ 64) : asI64 a = a - 2 ^ 64 := by
  rw [asI64_eq]
  split_ifs <;> omega

theorem asI64_of_lt {a : Int} (hlow : -2 ^ 64 < a) (hhigh : a < -2 ^ 63) : asI64 a = a + 2 ^ 64 := by
  rw [asI64_eq]
  split_ifs <;> omega

def SelectsNothing (selection : Selection) (rowCount width : Nat) (first last : Int) : Prop :=
  ∀ shown < rowCount, ∀ column, ¬SelectsCell selection width first last shown column

/-- A selection that begins above the window and ends in it or below takes a cell of the top row, where its columns
leave it any. -/
theorem selectsCell_top {fst last otherFst otherLast : Int} {shown col : Nat}
    (h : SelectsCell selection width otherFst otherLast shown col) (hf : fst < 0)
    (hl : 0 ≤ last) : ∃ topColumn, SelectsCell selection width fst last 0 topColumn := by
  obtain ⟨-, -, hcol, hsel⟩ := h
  by_cases hblock : selection.selectionKind = .block
  · rw [if_pos hblock] at hsel
    exact ⟨col, hf.le, hl, hcol, by rwa [if_pos hblock]⟩
  · refine ⟨0, hf.le, hl, Nat.zero_lt_of_lt hcol, ?_⟩
    rw [if_neg hblock]
    exact ⟨fun heq => absurd heq hf.ne', fun _ => Nat.zero_le _⟩

theorem selectsCell_asI64_iff {rowCount : Nat} {fst last : Int} (hord : fst ≤ last) (hlow : -2 ^ 64 < fst)
    (hhigh : last < 2 ^ 64) :
    (∀ shown < rowCount, ∀ col,
        SelectsCell selection width (asI64 fst) (asI64 last) shown col ↔
          SelectsCell selection width fst last shown col) ↔
      -2 ^ 63 ≤ fst ∧ last < 2 ^ 63 ∨ SelectsNothing selection rowCount width fst last ∧
        (last < -2 ^ 63 → SelectsNothing selection rowCount width (fst + 2 ^ 64) (last + 2 ^ 64)) := by
  by_cases hw : -2 ^ 63 ≤ fst ∧ last < 2 ^ 63
  · rw [asI64_of_within hw.1 (hord.trans_lt hw.2), asI64_of_within (hw.1.trans hord) hw.2]
    exact iff_of_true (fun _ _ _ => Iff.rfl) (.inl hw)
  rw [or_iff_right hw]
  by_cases hbelow : 2 ^ 63 ≤ last
  · -- the last row becomes a negative number: nothing is highlighted
    rw [asI64_of_le hbelow hhigh]
    refine ⟨fun h => ⟨fun shown hro col hselects => ?_, fun hl => ?_⟩,
      fun h shown hro col => iff_of_false (fun hselects => ?_) (h.1 shown hro col)⟩
    · have := ((h shown hro col).2 hselects).2.1
      omega
    · omega
    · have := hselects.2.1
      omega
  have hf : fst < -2 ^ 63 := by omega
  rw [asI64_of_lt hlow hf]
  by_cases habove : last < -2 ^ 63
  · -- both rows lie above the window by more than a signed word, and come out below its top
    rw [asI64_of_lt (hlow.trans_le hord) habove]
    have hnothing : SelectsNothing selection rowCount width fst last := fun shown hro col hselects => by
      have := hselects.2.1
      omega
    exact ⟨fun h => ⟨hnothing, fun _ shown hro col hselects =>
        hnothing shown hro col ((h shown hro col).1 hselects)⟩,
      fun h shown hro col => iff_of_false (h.2 habove shown hro col) (hnothing shown hro col)⟩
  · -- the first row alone comes out below the window's top, so the top row loses its highlight
    rw [asI64_of_within (by omega) (by omega)]
    refine ⟨fun h => ⟨fun shown hro col hselects => ?_, fun hl => absurd hl habove⟩,
      fun h shown hro col => iff_of_false (fun hselects => ?_) (h.1 shown hro col)⟩
    · have hl := hselects.2.1
      obtain ⟨topColumn, htop⟩ : ∃ topColumn, SelectsCell selection width fst last 0 topColumn :=
        selectsCell_top hselects (hf.trans_le (by decide)) (by omega)
      have := ((h 0 (by omega) topColumn).2 htop).1
      omega
    · have hl := hselects.2.1
      obtain ⟨topColumn, htop⟩ : ∃ topColumn, SelectsCell selection width fst last 0 topColumn :=
        selectsCell_top hselects (hf.trans_le (by decide)) (by omega)
      exact h.1 0 (by omega) topColumn htop

/-! ### Panes -/

namespace PaneText

variable {pane : PaneText} {offset : Nat}

/-- The absolute row that the window's top row shows. -/
def viewTopRowIndex (pane : PaneText) (offset : Nat) : Nat :=
  pane.scrollback.totalPushedLineCount - pane.computeEffectiveViewOffset offset

theorem effectiveViewOffset_le : pane.computeEffectiveViewOffset offset ≤ pane.scrollback.retainedLines.length := by
  unfold computeEffectiveViewOffset
  split
  · exact Nat.zero_le _
  · exact Nat.min_le_right _ _

theorem getGridDimensions_fst : pane.activeGrid.getGridDimensions.1 = pane.activeGrid.rows.length :=
  asU16_of_le pane.rowCount_le

theorem length_listRowSnapshots : pane.activeGrid.listRowSnapshots.1.length = pane.activeGrid.rows.length :=
  length_map _

theorem getScrolledView_length : (pane.getScrolledView offset).1.length = pane.activeGrid.rows.length := by
  have hoff := @effectiveViewOffset_le pane offset
  unfold getScrolledView
  dsimp only
  split
  · exact length_listRowSnapshots
  · rw [length_take, length_append, length_drop, length_listRowSnapshots, getGridDimensions_fst]
    omega

theorem getScrolledView_snd : (pane.getScrolledView offset).2 = pane.computeEffectiveViewOffset offset := by
  unfold getScrolledView
  dsimp only
  split
  · rename_i hz
    exact hz.symm
  · rfl

theorem window_row {shown : Nat} (hro : shown < pane.activeGrid.rows.length) :
    pane.getTextView.getFirstRowIndex ≤ pane.viewTopRowIndex offset + shown ∧
      pane.viewTopRowIndex offset + shown ≤ pane.getTextView.getLastRowIndex := by
  have hrt := pane.retainedLineCount_le
  unfold viewTopRowIndex computeEffectiveViewOffset getTextView getFirstRowIndex getLastRowIndex getScrollbackRowCount
  cases pane.isPrimaryScreenActive with
  | true =>
    simp only [fromScrollbackAndGrid, Bool.not_true, map_some, getD_some, if_true, if_false,
      getGridDimensions_fst, Bool.false_eq_true]
    omega
  | false =>
    simp only [fromGridWithoutScrollback, Bool.not_false, map_none, getD_none, if_true, if_false,
      getGridDimensions_fst, Bool.false_eq_true]
    omega

end PaneText

structure HighlightsCopy (pane : PaneText) (offset : Nat) (selection : Selection) : Prop where
  /-- The copy writes, row by row, the text of the columns it takes. -/
  copied : ∀ rowIndex rowEnd, max (orderSelectionPositions selection.anchor selection.cursor).startPosition.rowIndex
      pane.getTextView.getFirstRowIndex ≤ rowIndex →
    rowIndex ≤ min (orderSelectionPositions selection.anchor selection.cursor).endPosition.rowIndex
      pane.getTextView.getLastRowIndex → pane.getTextView.getRowEnd rowIndex = some rowEnd →
    ∀ shouldTrim written, serializeSelectedRow pane.getTextView selection shouldTrim written rowIndex =
      (written.1 ++
        (if written.2 &&
            (decide (selection.selectionKind = .block) || !pane.getTextView.isSoftWrapped (rowIndex - 1)) then ['\n']
          else []) ++
        (if shouldTrim && (decide (selection.selectionKind = .block) || rowEnd = .hard) then
            trimEnd (copiedText pane.getTextView selection rowIndex)
          else copiedText pane.getTextView selection rowIndex), true)
  columns : ∀ shown < pane.activeGrid.rows.length, ∀ column,
    IsHighlighted (pane.buildSelectionSpans offset selection) shown column ↔
      column ∈ copiedColumns pane.getTextView selection (pane.viewTopRowIndex offset + shown)
  noSpan : ∀ shown < pane.activeGrid.rows.length,
    (∀ startColumn stop, (shown, startColumn, stop) ∉
      (pane.buildSelectionSpans offset selection).getD []) ↔
        copiedColumns pane.getTextView selection (pane.viewTopRowIndex offset + shown) = []

/-- The first and the last row of a selection, counted from the window's top row. -/
def PaneText.selectedRows (pane : PaneText) (offset : Nat) (selection : Selection) : Int × Int :=
  let ⟨first, last⟩ := orderSelectionPositions selection.anchor selection.cursor
  (first.rowIndex - pane.viewTopRowIndex offset, last.rowIndex - pane.viewTopRowIndex offset)

theorem orderSelectionPositions_le (selection : Selection) :
    (orderSelectionPositions selection.anchor selection.cursor).startPosition.rowIndex ≤
      (orderSelectionPositions selection.anchor selection.cursor).endPosition.rowIndex := by
  unfold orderSelectionPositions
  split <;> dsimp only <;> omega

section

variable {pane : PaneText} {offset : Nat}

theorem buildSelectionSpans_eq : pane.buildSelectionSpans offset selection =
    computeSelectionSpans selection ⟨(pane.getScrolledView offset).1, pane.activeGrid.getGridDimensions.2⟩
      pane.scrollback.totalPushedLineCount (pane.computeEffectiveViewOffset offset) := by
  rw [← getScrolledView_snd]
  rfl

theorem isHighlighted_buildSelectionSpans (shown column : Nat) :
    IsHighlighted (pane.buildSelectionSpans offset selection) shown column ↔
      shown < pane.activeGrid.rows.length ∧
        SelectsCell selection pane.activeGrid.getGridDimensions.2 (asI64 (pane.selectedRows offset selection).1)
          (asI64 (pane.selectedRows offset selection).2) shown column := by
  have hrt := pane.retainedLineCount_le
  have hle := @effectiveViewOffset_le pane offset
  have hrows : min (pane.getScrolledView offset).1.length u16Max = pane.activeGrid.rows.length := by
    rw [getScrolledView_length]
    exact Nat.min_eq_left pane.rowCount_le
  have htop : (pane.viewTopRowIndex offset : Int) =
      pane.scrollback.totalPushedLineCount - pane.computeEffectiveViewOffset offset := by
    unfold viewTopRowIndex
    omega
  rw [buildSelectionSpans_eq, isHighlighted_selectionSpans]
  simp only [GridView.getViewDimensions, hrows, wrappedRow, selectedRows, htop]

theorem mem_copiedColumns_window {shown : Nat} (hro : shown < pane.activeGrid.rows.length) (column : Nat) :
    column ∈ copiedColumns pane.getTextView selection (pane.viewTopRowIndex offset + shown) ↔
      SelectsCell selection pane.activeGrid.getGridDimensions.2 (pane.selectedRows offset selection).1
        (pane.selectedRows offset selection).2 shown column := by
  obtain ⟨hf, hl⟩ := @window_row pane offset _ hro
  have hco : pane.getTextView.getColumnCount = pane.activeGrid.getGridDimensions.2 := by
    unfold getTextView
    split <;> rfl
  rw [mem_copiedColumns_iff _ hf hl, hco]
  rfl

theorem selectedRows_within : (pane.selectedRows offset selection).1 ≤ (pane.selectedRows offset selection).2 ∧
    -2 ^ 64 < (pane.selectedRows offset selection).1 ∧ (pane.selectedRows offset selection).2 < 2 ^ 64 := by
  have hfit := pane.lastRowIndex_lt
  have hle := orderSelectionPositions_le selection
  have hen := (orderSelectionPositions selection.anchor selection.cursor).endPosition.rowIndex_lt
  unfold selectedRows viewTopRowIndex
  dsimp only
  omega

end

/-- One cell on the screen, selected from there to the last row there is. -/
def selectionToLastRow : Selection := ⟨.character, ⟨0, 0, by decide⟩, ⟨2 ^ 64 - 1, 0, by decide⟩⟩

def oneCellPane : PaneText where
  scrollback := .fromScrollbackLimit ⟨10, 100⟩
  activeGrid := ⟨[.fromCells [.fromCharacter 'a' 1 .default] .default]⟩
  isPrimaryScreenActive := true
  rowCount_le := by decide
  retainedLineCount_le := by decide
  lastRowIndex_lt := by decide

end Koshi.Runtime
