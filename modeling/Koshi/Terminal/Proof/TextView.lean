import Mathlib.Tactic
import Koshi.Terminal.TextView
import Koshi.Terminal.Proof.Grid
import Koshi.Terminal.Proof.KeepRows
import Koshi.Terminal.Proof.Scrollback

/-!
# Absolute row numbers keep their meaning

The retained history is a suffix of the lines ever pushed, whatever was evicted or cleared, and the count of pushed
lines is exact. So a row number below that count names one pushed line for good: a read of it gives that line or
nothing. A scroll of the whole screen gives each row that leaves the number it had on the screen. A scroll of a region
that starts at the top row and ends above the last one feeds history too, though the rows below the region stay where
they are: there the count grows and the number of each of these rows names a higher row of the screen.
-/

namespace Koshi.Terminal

open Base Koshi.Core List Option Scrollback CellRow GridRow TextView PrimaryScreen

/-! ### What the history holds -/

variable (limit : ScrollbackLimit)

namespace Scrollback

structure HoldsPushed (scrollback : Scrollback) (earlier : Nat) (pushed : List RowSnapshot) : Prop where
  total : scrollback.totalPushedLineCount = earlier + pushed.length
  retained : scrollback.retainedLines <:+ pushed

section

variable {scrollback : Scrollback} {earlier : Nat} {pushed : List RowSnapshot}

theorem evictLines_suffix (maximumLines maximumBytes : Nat) (lines : List RowSnapshot) (retainedBytes : Nat) :
    (evictLines maximumLines maximumBytes lines retainedBytes).2.1 <:+ lines := by
  induction lines generalizing retainedBytes with
  | nil => exact suffix_refl []
  | cons oldestLine lines ih =>
    rw [evictLines]
    split_ifs
    · exact (ih _).trans (suffix_cons oldestLine lines)
    · exact suffix_refl _

theorem holdsPushed_new : (fromScrollbackLimit limit).HoldsPushed 0 [] :=
  ⟨rfl, suffix_refl []⟩

section

variable (h : scrollback.HoldsPushed earlier pushed)

include h

theorem HoldsPushed.push (row : RowSnapshot) :
    (scrollback.pushRowWithEvicted row).2.HoldsPushed earlier (pushed ++ [row]) := by
  obtain ⟨total, olderLines, holder⟩ := h
  constructor
  · rw [length_append, ← Nat.add_assoc, ← total]
    rfl
  · apply (evictLines_suffix _ _ _ _).trans
    refine ⟨olderLines, ?_⟩
    rw [← holder, append_assoc]

theorem HoldsPushed.evictForNextPush : scrollback.evictOldestLineForNextPush.2.HoldsPushed earlier pushed := by
  rw [evictOldestLineForNextPush]
  split_ifs
  · exact h
  · cases hlns : scrollback.retainedLines with
    | nil => exact h
    | cons oldestLine lines => exact ⟨h.total, (suffix_cons oldestLine lines).trans (hlns ▸ h.retained)⟩

theorem HoldsPushed.clear : scrollback.clearScrollback.HoldsPushed earlier pushed :=
  ⟨h.total, nil_suffix⟩

theorem HoldsPushed.length_le : scrollback.retainedLines.length ≤ scrollback.totalPushedLineCount := by
  have hlen := h.retained.length_le
  rw [h.total]
  omega

end

end

end Scrollback

/-! ### Runs -/

/-- What the terminal does to its history between two resizes. -/
inductive HistoryOperation where
  | push (row : CellRow)
  | evictForNextPush
  | clear

def Scrollback.applyHistoryOperation (scrollback : Scrollback) : HistoryOperation → Scrollback
  | .push row => (scrollback.pushRowWithEvicted row.toSnapshot).2
  | .evictForNextPush => scrollback.evictOldestLineForNextPush.2
  | .clear => scrollback.clearScrollback

variable (moves : List HistoryOperation)

def runHistory : Scrollback :=
  moves.foldl applyHistoryOperation (.fromScrollbackLimit limit)

def listPushedRows : List CellRow :=
  moves.filterMap fun
    | .push row => some row
    | .evictForNextPush | .clear => none

theorem listPushedRows_append (moves later : List HistoryOperation) :
    listPushedRows (moves ++ later) = listPushedRows moves ++ listPushedRows later :=
  filterMap_append

theorem holdsPushed_foldl {scrollback : Scrollback} {earlier : Nat} {pushed : List RowSnapshot}
    (h : scrollback.HoldsPushed earlier pushed) (moves : List HistoryOperation) :
    (moves.foldl applyHistoryOperation scrollback).HoldsPushed earlier
      (pushed ++ (listPushedRows moves).map toSnapshot) := by
  induction moves generalizing scrollback pushed with
  | nil => rwa [listPushedRows, filterMap_nil, map_nil, append_nil]
  | cons op moves ih =>
    rw [foldl_cons]
    cases op with
    | push row =>
      rw [show listPushedRows (.push row :: moves) = row :: listPushedRows moves from rfl, map_cons,
        append_cons]
      exact ih (h.push row.toSnapshot)
    | evictForNextPush => exact ih h.evictForNextPush
    | clear => exact ih h.clear

theorem holdsPushed_runHistory :
    (runHistory limit moves).HoldsPushed 0 ((listPushedRows moves).map toSnapshot) :=
  holdsPushed_foldl (holdsPushed_new limit) moves

theorem length_retainedLines_foldl {scrollback : Scrollback}
    (h : scrollback.retainedLines.length ≤ scrollback.totalPushedLineCount) (moves : List HistoryOperation) :
    (moves.foldl applyHistoryOperation scrollback).retainedLines.length ≤
      scrollback.retainedLines.length + (listPushedRows moves).length := by
  have hhl : scrollback.HoldsPushed (scrollback.totalPushedLineCount - scrollback.retainedLines.length)
      scrollback.retainedLines := ⟨(Nat.sub_add_cancel h).symm, suffix_refl _⟩
  have hlen := (holdsPushed_foldl hhl moves).retained.length_le
  rwa [length_append, length_map] at hlen

/-! ### Reads -/

def namedRow (pushedRows : List CellRow) (retainedRowCount : Nat) (screenGrid : Grid) (rowIndex : Nat) :
    Option (List Cell × RowEnd) :=
  if rowIndex < pushedRows.length then
    if pushedRows.length ≤ rowIndex + retainedRowCount then
      pushedRows[rowIndex]?.map fun row =>
        (row.rowCells.take (countRowContentCells row.rowCells), row.rowMetadata.rowEnd)
    else none
  else if rowIndex - pushedRows.length < screenGrid.getGridDimensions.1 then
    (screenGrid.getRowCells (rowIndex - pushedRows.length)).map fun rowCells =>
      (rowCells, screenGrid.getRowEnd (rowIndex - pushedRows.length))
  else none

namespace TextView

/-- The view is one of this history and screen, and the buffer it keeps holds what it says. -/
structure Views (view : TextView) (scrollback : Scrollback) (screenGrid : Grid) : Prop where
  lines : view.scrollbackLines = some scrollback.retainedLines
  grid : view.screenGrid = screenGrid
  top : view.liveScreenTopRowNumber = scrollback.totalPushedLineCount
  decoded : ∀ rowIndex rowSnapshot, view.decodedHistoryRow.rowIndex = some rowIndex →
    view.findHistoryRow rowIndex = some rowSnapshot →
      ∃ shape, rowSnapshot.decodeRowRunCellsInto [] = some (shape, view.decodedHistoryRow.rowCells)

def readRows (view : TextView) (rowIndexes : List Nat) : Option TextView :=
  rowIndexes.foldlM (fun view rowIndex => (view.readRow rowIndex).map (·.2)) view

section

variable {view : TextView} {scrollback : Scrollback} {screenGrid : Grid} {pushed : List CellRow}

theorem views_fromGrid (scrollback : Scrollback) (screenGrid : Grid) :
    (fromScrollbackAndGrid scrollback screenGrid).Views scrollback screenGrid :=
  ⟨rfl, rfl, rfl, by simp [fromScrollbackAndGrid, DecodedHistoryRow.default]⟩

section

variable (h : view.Views scrollback screenGrid)

include h

theorem Views.findHistoryRow_eq (hpu : scrollback.HoldsPushed 0 (pushed.map toSnapshot)) {row : Nat}
    (hro : row < pushed.length) :
    view.findHistoryRow row =
      if pushed.length ≤ row + scrollback.retainedLines.length then
        pushed[row]?.map toSnapshot
      else none := by
  have htop : view.liveScreenTopRowNumber = pushed.length := by rw [h.top, hpu.total, Nat.zero_add, length_map]
  have hlen := hpu.retained.length_le
  rw [length_map] at hlen
  simp only [findHistoryRow, h.lines, htop, bind_eq_bind, bind_some]
  by_cases hrt : pushed.length ≤ row + scrollback.retainedLines.length
  · rw [if_pos (by omega), if_pos hrt]
    obtain ⟨olderLines, holder⟩ := hpu.retained
    have holderLength : olderLines.length + scrollback.retainedLines.length = pushed.length := by
      rw [← length_append, holder, length_map]
    rw [← List.getElem?_map, ← holder, List.getElem?_append_right (by omega)]
    congr 1
    omega
  · rw [if_neg (by omega), if_neg hrt]

theorem Views.readRow_eq (hpu : scrollback.HoldsPushed 0 (pushed.map toSnapshot))
    (hproper : ∀ row ∈ pushed, row.IsProper) (index : Nat) :
    ∃ nextView, view.readRow index = some (namedRow pushed scrollback.retainedLines.length screenGrid index, nextView) ∧
      nextView.Views scrollback screenGrid := by
  have htop : view.liveScreenTopRowNumber = pushed.length := by rw [h.top, hpu.total, Nat.zero_add, length_map]
  rw [readRow, namedRow]
  by_cases hlive : pushed.length ≤ index
  · refine ⟨view, ?_, h⟩
    rw [if_pos (htop ▸ hlive), if_neg (Nat.not_lt.2 hlive), h.grid, findLiveRowIndex, htop, h.grid]
    have hc : screenGrid.getGridDimensions.1 ≤ u16Max := Nat.le_of_lt_succ (Nat.mod_lt _ (Nat.succ_pos u16Max))
    by_cases hsh : index - pushed.length < screenGrid.getGridDimensions.1
    · rw [if_pos hsh, if_pos ⟨by omega, hsh⟩]
      simp only [bind_eq_bind, bind_some, map_eq_bind]
      rfl
    · rw [if_neg hsh, if_neg fun hboth => hsh hboth.2]
      rfl
  · have hro : index < pushed.length := Nat.lt_of_not_le hlive
    rw [if_neg (by rwa [htop]), if_pos hro]
    have hfi := h.findHistoryRow_eq hpu hro
    by_cases hrt : pushed.length ≤ index + scrollback.retainedLines.length
    · rw [if_pos hrt, List.getElem?_eq_getElem hro, map_some] at hfi ⊢
      have hrowProper := hproper _ (getElem_mem hro)
      have hdecode := decodeRowRunCellsInto_fromRowCells hrowProper.cells hrowProper.length pushed[index].rowMetadata []
      rw [nil_append] at hdecode
      rw [hfi]
      by_cases hdec : view.decodedHistoryRow.rowIndex = some index
      · obtain ⟨shape, hcx⟩ := h.decoded index _ hdec hfi
        have hcached : view.decodedHistoryRow.rowCells =
            pushed[index].rowCells.take (countRowContentCells pushed[index].rowCells) := by
          have hboth := hcx.symm.trans hdecode
          exact (Prod.mk.inj (some_inj.1 hboth)).2
        refine ⟨view, ?_, h⟩
        simp only [if_pos hdec, hcached]
        rfl
      · refine ⟨{ view with decodedHistoryRow := ⟨some index, pushed[index].rowCells.take
          (countRowContentCells pushed[index].rowCells)⟩ }, ?_, h.lines, h.grid, h.top, ?_⟩
        · simp only [if_neg hdec, toSnapshot, hdecode, map_some]
          rfl
        · intro otherIndex rowSnapshot ho hfo
          obtain rfl := some_inj.1 ho
          have hsnap : view.findHistoryRow index = some rowSnapshot := hfo
          rw [hfi, some_inj] at hsnap
          rw [← hsnap]
          exact ⟨_, hdecode⟩
    · rw [if_neg hrt] at hfi ⊢
      rw [hfi]
      exact ⟨view, rfl, h⟩

theorem Views.readRows_eq (hpu : scrollback.HoldsPushed 0 (pushed.map toSnapshot))
    (hproper : ∀ row ∈ pushed, row.IsProper) (rowIndexes : List Nat) :
    ∃ nextView, view.readRows rowIndexes = some nextView ∧ nextView.Views scrollback screenGrid := by
  induction rowIndexes generalizing view with
  | nil => exact ⟨view, rfl, h⟩
  | cons index rowIndexes ih =>
    obtain ⟨readView, hrd, hviews⟩ := h.readRow_eq hpu hproper index
    obtain ⟨nextView, hn, hnextViews⟩ := ih hviews
    refine ⟨nextView, ?_, hnextViews⟩
    rw [readRows, foldlM_cons, hrd]
    exact hn

end

end

end TextView

/-! ### Scrolling -/

def GridRow.toCellRow (row : GridRow) : CellRow := ⟨row.cells, row.rowMetadata⟩

def scrollOperations (rows : List CellRow) : List HistoryOperation :=
  rows.flatMap fun row => [.evictForNextPush, .push row]

theorem listPushedRows_scrollOperations (rows : List CellRow) : listPushedRows (scrollOperations rows) = rows := by
  induction rows with
  | nil => rfl
  | cons row rows ih => exact congrArg (row :: ·) ih

theorem scrollOperations_append (rows laterRows : List CellRow) :
    scrollOperations (rows ++ laterRows) = scrollOperations rows ++ scrollOperations laterRows :=
  flatMap_append

theorem GridRow.Facts.takeRowSnapshot_eq {row : GridRow} {columnCount : Nat} (h : row.Facts columnCount) :
    row.takeRowSnapshot.1 = row.toCellRow.toSnapshot :=
  h.getRowSnapshot_eq

section

variable {grid : Grid} {columnCount : Nat}

variable {bottom : Nat} {pushed : List CellRow}

/-- The rows that leave the screen go into history in order, and the screen keeps its cells meanwhile. -/
theorem feedScrollbackRows_eq (h : grid.Facts columnCount) (scrollback : Scrollback) {shifted : Nat}
    (hc : shifted ≤ grid.rows.length) :
    ∃ fedGrid, (List.range shifted).foldl feedScrollbackRow (grid, scrollback) =
        (fedGrid, (scrollOperations ((grid.rows.map toCellRow).take shifted)).foldl applyHistoryOperation scrollback) ∧
      fedGrid.rows.map toCellRow = grid.rows.map toCellRow ∧ fedGrid.Facts columnCount := by
  induction shifted with
  | zero => exact ⟨grid, rfl, rfl, h⟩
  | succ rowIndex ih =>
    obtain ⟨fedGrid, hfed, hrows, hfacts⟩ := ih (Nat.le_of_succ_le hc)
    have hlen : fedGrid.rows.length = grid.rows.length := by
      have := congrArg List.length hrows
      rwa [length_map, length_map] at this
    have hro : rowIndex < fedGrid.rows.length := by omega
    have hcellRow : (grid.rows.map toCellRow)[rowIndex]? = some fedGrid.rows[rowIndex].toCellRow := by
      rw [← hrows, List.getElem?_map, List.getElem?_eq_getElem hro, map_some]
    refine ⟨(fedGrid.takeRowSnapshot rowIndex).2, ?_, ?_, hfacts.takeRowSnapshot rowIndex⟩
    · rw [range_succ, List.foldl_append, hfed, take_add_one, hcellRow, toList_some,
        scrollOperations_append, List.foldl_append]
      simp only [foldl_cons, foldl_nil, feedScrollbackRow, Grid.takeRowSnapshot,
        List.getElem?_eq_getElem hro, map_some, (hfacts _ (getElem_mem hro)).takeRowSnapshot_eq]
      rfl
    · rw [← hrows]
      apply ext_getElem?
      intro index
      simp only [Grid.takeRowSnapshot, List.getElem?_map, List.getElem?_modify, Option.map_eq_map, Option.map_map]
      split_ifs <;> rfl

theorem getRowCells_setRowEnd (grid : Grid) (changedRowIndex index : Nat) (rowEnd : RowEnd) :
    (grid.setRowEnd changedRowIndex rowEnd).getRowCells index = grid.getRowCells index := by
  simp only [Grid.setRowEnd, Grid.getRowCells, List.getElem?_modify, Option.map_eq_map, Option.map_map]
  split_ifs
  · congr 1
    funext row
    simp only [Function.comp_apply]
    split_ifs <;> rfl
  · rfl

theorem length_rows_setRowEnd (grid : Grid) (row : Nat) (rowEnd : RowEnd) :
    (grid.setRowEnd row rowEnd).rows.length = grid.rows.length :=
  length_modify ..

/-- A band of rows as a scroll leaves them, before it mends the row ends. -/
def shiftBandRows (removed : Nat) (style : Style) (bandRows : List GridRow) : List GridRow :=
  updateRange (bandRows.rotate removed) (bandRows.length - removed) bandRows.length (·.map (·.resetToBlank style))

theorem length_shiftBandRows (removed' : Nat) (style : Style) (bandRows : List GridRow) :
    (shiftBandRows removed' style bandRows).length = bandRows.length := by
  rw [shiftBandRows, length_updateRange (Nat.sub_le ..) (by rw [length_rotate]) (length_map ..), length_rotate]

def shiftTopRows (grid : Grid) (bottom removed : Nat) (style : Style) : Grid :=
  ⟨updateRange grid.rows 0 (bottom + 1) (shiftBandRows removed style)⟩

theorem shiftTopRows_spec (hstop : bottom + 1 ≤ grid.rows.length) (removed' : Nat) (style : Style) :
    (shiftTopRows grid bottom removed' style).rows.length = grid.rows.length ∧
      ∀ row, row + removed' ≤ bottom →
        (shiftTopRows grid bottom removed' style).getRowCells row = grid.getRowCells (row + removed') := by
  have hslice : (sliceRange grid.rows 0 (bottom + 1)).length = bottom + 1 := length_sliceRange hstop
  rw [shiftTopRows]
  constructor
  · exact length_updateRange (Nat.zero_le _) hstop (length_shiftBandRows ..)
  · intro row hro
    rw [Grid.getRowCells, getElem?_updateRange (Nat.zero_le _) hstop (length_shiftBandRows ..), if_pos (by omega),
      shiftBandRows, getElem?_updateRange (Nat.sub_le ..) (by rw [length_rotate]) (length_map ..), hslice,
      if_neg (by omega), List.getElem?_rotate (by omega), hslice, Nat.mod_eq_of_lt (by omega), sliceRange,
      List.getElem?_take_of_lt (by omega), drop_zero, Nat.sub_zero, Grid.getRowCells]

theorem deleteLines_top (hbot : bottom < grid.rows.length) (hsize : grid.rows.length ≤ u16Max) (lc : Nat)
    (style : Style) :
    (grid.deleteLines 0 bottom lc style).rows.length = grid.rows.length ∧
      ∀ row, row + min lc (bottom + 1) ≤ bottom →
        (grid.deleteLines 0 bottom lc style).getRowCells row = grid.getRowCells (row + min lc (bottom + 1)) := by
  have hrowCount : grid.getGridDimensions.1 = grid.rows.length := asU16_of_le hsize
  have hguard : ¬(0 ≥ grid.getGridDimensions.1 ∨ bottom ≥ grid.getGridDimensions.1 ∨ 0 > bottom) := by
    omega
  have hshifted := shiftTopRows_spec hbot (min lc (bottom + 1)) style
  simp only [Grid.deleteLines, if_neg hguard, Nat.sub_zero, Nat.lt_irrefl, if_false, gt_iff_lt]
  split_ifs
  · simp only [length_rows_setRowEnd, getRowCells_setRowEnd]
    exact hshifted
  · exact hshifted
  · exact hshifted

/-- The cell of a row that was read; past its last cell a default blank up to the screen's width. -/
def cellOfRow (columnCount column : Nat) (row : List Cell × RowEnd) : Option Cell :=
  match row.1[column]? with
  | some cell => some cell
  | none => if column < columnCount then some .buildBlank else none

theorem cellOfRow_content (cells : List Cell) (rowEnd otherRowEnd : RowEnd) (col : Nat) :
    cellOfRow cells.length col (cells.take (countRowContentCells cells), rowEnd) =
      cellOfRow cells.length col (cells, otherRowEnd) := by
  have hct := countContentCells_le cells
  have hcx := congrArg (·[col]?) (take_countContentCells cells)
  simp only [cellOfRow]
  by_cases hcol : col < countRowContentCells cells
  · rw [List.getElem?_take_of_lt hcol]
  · rw [List.getElem?_take_eq_none (Nat.le_of_not_lt hcol)]
    simp only [List.getElem?_append_right (show (cells.take (countRowContentCells cells)).length ≤ col by
      rw [length_take]; omega), List.getElem?_replicate, length_take] at hcx
    by_cases hsh : col < cells.length
    · rw [if_pos (by omega)] at hcx
      rw [← hcx, if_pos hsh]
    · rw [if_neg (by omega)] at hcx
      rw [← hcx, if_neg hsh]

theorem TextView.getCell_eq {scrollback : Scrollback} (hpu : scrollback.HoldsPushed 0 (pushed.map toSnapshot))
    (hproper : ∀ row ∈ pushed, row.IsProper) (screenGrid : Grid) (index col : Nat) :
    ((fromScrollbackAndGrid scrollback screenGrid).getCell index col).map (·.1) =
      some ((namedRow pushed scrollback.retainedLines.length screenGrid index).bind
        (cellOfRow screenGrid.getGridDimensions.2 col)) := by
  obtain ⟨nextView, hrd, -⟩ := (views_fromGrid scrollback screenGrid).readRow_eq hpu hproper index
  rw [getCell, hrd]
  rfl

theorem Grid.Facts.columnCount_eq {columnCount : UInt16} (h : grid.Facts columnCount.toNat)
    (hrows : 0 < grid.rows.length) :
    grid.getGridDimensions.2 = columnCount.toNat := by
  have hro := getElem_mem hrows
  rw [← Grid.width_eq_getGridDimensions h hro, (h _ hro).width]

theorem isProper_resetToBlank {row : GridRow} (h : ∀ c ∈ row.cells, c.IsProper) (style : Style) :
    ∀ c ∈ (row.resetToBlank style).cells, c.IsProper := by
  intro c hce
  rw [resetToBlank, fillWithBlank, if_neg (Nat.lt_irrefl _)] at hce
  rcases mem_fillRange hce with rfl | hce
  · exact Cell.isProper_blank style
  · exact h c hce

theorem isProper_setRowEnd (h : ∀ row ∈ grid.rows, ∀ c ∈ row.cells, c.IsProper) (index : Nat) (rowEnd : RowEnd) :
    ∀ row ∈ (grid.setRowEnd index rowEnd).rows, ∀ c ∈ row.cells, c.IsProper := by
  refine forall_mem_modify h fun row hro => ?_
  split_ifs
  · exact hro
  · exact hro

theorem isProper_deleteLines (h : ∀ row ∈ grid.rows, ∀ c ∈ row.cells, c.IsProper)
    (firstRow lastRow deleteRowCount : Nat) (style : Style) :
    ∀ row ∈ (grid.deleteLines firstRow lastRow deleteRowCount style).rows, ∀ c ∈ row.cells, c.IsProper := by
  have hshifted : ∀ row ∈ (⟨updateRange grid.rows firstRow (lastRow + 1)
      (shiftBandRows (min deleteRowCount (lastRow - firstRow + 1)) style)⟩ : Grid).rows,
      ∀ c ∈ row.cells, c.IsProper := by
    refine forall_mem_updateRange h fun bandRows hband => ?_
    refine forall_mem_updateRange (fun row hro => hband row (mem_rotate.1 hro)) fun slice hslice => ?_
    intro row hro
    obtain ⟨src, hsr, rfl⟩ := List.mem_map.1 hro
    exact isProper_resetToBlank (hslice src hsr) style
  unfold Grid.deleteLines
  dsimp only
  split_ifs
  · exact h
  · exact isProper_setRowEnd (isProper_setRowEnd hshifted _ _) _ _
  · exact isProper_setRowEnd hshifted _ _
  · exact isProper_setRowEnd hshifted _ _
  · exact hshifted
  · exact hshifted

structure IsTopScroll (columnCount : Nat) (grid : Grid) (scrollback : Scrollback) (bottom shift : Nat) (scrolled : Grid)
    (scrolledScrollback : Scrollback) : Prop where
  facts : scrolled.Facts columnCount
  proper : (∀ row ∈ grid.rows, ∀ cell ∈ row.cells, cell.IsProper) →
    ∀ row ∈ scrolled.rows, ∀ cell ∈ row.cells, cell.IsProper
  history : scrolledScrollback = (scrollOperations ((grid.rows.map toCellRow).take shift)).foldl
    applyHistoryOperation scrollback
  rowCount : scrolled.rows.length = grid.rows.length
  width : scrolled.getGridDimensions.2 = grid.getGridDimensions.2
  rows : ∀ rowIndex, rowIndex + shift ≤ bottom → scrolled.getRowCells rowIndex = grid.getRowCells (rowIndex + shift)

theorem deleteTopLinesIntoScrollback_spec {columnCount : UInt16} (h : grid.Facts columnCount.toNat)
    (hsize : grid.rows.length ≤ u16Max) (scrollback : Scrollback) (hbot : bottom < grid.rows.length) (lc : Nat)
    (style : Style) :
    IsTopScroll columnCount.toNat grid scrollback bottom (min lc (bottom + 1))
      (deleteTopLinesIntoScrollback grid scrollback bottom lc style).1
      (deleteTopLinesIntoScrollback grid scrollback bottom lc style).2 := by
  have hrowCount : grid.getGridDimensions.1 = grid.rows.length := asU16_of_le hsize
  have hsaturated : satAdd16 bottom 1 = bottom + 1 := by
    rw [satAdd16]
    omega
  obtain ⟨fedGrid, hfed, hrows, hfacts⟩ := feedScrollbackRows_eq h scrollback
    (show min lc (bottom + 1) ≤ grid.rows.length by omega)
  have hlen : fedGrid.rows.length = grid.rows.length := by
    have := congrArg List.length hrows
    rwa [length_map, length_map] at this
  have hcx : ∀ index, fedGrid.getRowCells index = grid.getRowCells index := by
    intro index
    have hboth := congrArg (fun rows => rows[index]?.map rowCells) hrows
    simp only [List.getElem?_map, Option.map_map] at hboth
    exact hboth
  have hscrolled : deleteTopLinesIntoScrollback grid scrollback bottom lc style =
      (fedGrid.deleteLines 0 bottom lc style,
        (scrollOperations ((grid.rows.map toCellRow).take (min lc (bottom + 1)))).foldl
          applyHistoryOperation scrollback) := by
    have hso : ¬grid.getGridDimensions.1 = 0 := by omega
    have hl : min bottom (grid.getGridDimensions.1 - 1) = bottom := by omega
    simp only [deleteTopLinesIntoScrollback, if_neg hso, hl, hsaturated, hfed]
  rw [hscrolled]
  obtain ⟨hshiftedLen, hshiftedRows⟩ := deleteLines_top (hlen.symm ▸ hbot) (hlen.symm ▸ hsize) lc style
  refine ⟨hfacts.deleteLines _ _ _ _, ?_, rfl, hshiftedLen.trans hlen, ?_, fun index hro => ?_⟩
  · intro hproper
    refine isProper_deleteLines (fun row hro c hce => ?_) _ _ _ _
    have hm := @List.mem_map_of_mem _ _ _ _ toCellRow hro
    rw [hrows] at hm
    obtain ⟨src, hsr, hs⟩ := List.mem_map.1 hm
    have hcx : src.cells = row.cells := congrArg rowCells hs
    exact hproper src hsr c (hcx ▸ hce)
  · rw [(hfacts.deleteLines _ _ _ _).columnCount_eq (by omega), h.columnCount_eq (by omega)]
  · rw [hshiftedRows index hro, hcx]

theorem namedRow_topScroll {columnCount : UInt16} {scrollback scrolled' : Scrollback} {scrolled : Grid} {shifted : Nat}
    (hscr : IsTopScroll columnCount.toNat grid scrollback bottom shifted scrolled scrolled')
    (h : grid.Facts columnCount.toNat) (hsize : grid.rows.length ≤ u16Max) (hbot : bottom < grid.rows.length)
    (hshifted : shifted ≤ bottom + 1) (hpu : scrollback.HoldsPushed 0 (pushed.map toSnapshot)) {row : Nat}
    (hro : row ≤ pushed.length + bottom) (col : Nat) :
    (namedRow (pushed ++ (grid.rows.map toCellRow).take shifted)
        scrolled'.retainedLines.length scrolled row).bind (cellOfRow scrolled.getGridDimensions.2 col) =
      (namedRow pushed scrollback.retainedLines.length grid row).bind (cellOfRow grid.getGridDimensions.2 col) ∨
    namedRow (pushed ++ (grid.rows.map toCellRow).take shifted) scrolled'.retainedLines.length scrolled row = none := by
  have hrt := length_retainedLines_foldl hpu.length_le (scrollOperations ((grid.rows.map toCellRow).take shifted))
  have hlen : ((grid.rows.map toCellRow).take shifted).length = shifted := by
    rw [length_take, length_map]
    omega
  rw [← hscr.history, listPushedRows_scrollOperations, hlen] at hrt
  have hrowCount : grid.getGridDimensions.1 = grid.rows.length := asU16_of_le hsize
  have hscrolledRowCount : scrolled.getGridDimensions.1 = grid.rows.length :=
    (congrArg asU16 hscr.rowCount).trans hrowCount
  rw [hscr.width]
  simp only [namedRow, length_append, hlen, hrowCount, hscrolledRowCount]
  by_cases hpast : row < pushed.length
  · -- a line of the history: the pushes evict it or keep its number
    rw [if_pos (by omega), if_pos hpast, List.getElem?_append_left hpast]
    split_ifs
    · exact .inl rfl
    · omega
    · exact .inr rfl
    · exact .inr rfl
  · by_cases hleft : row < pushed.length + shifted
    · -- a row that left the screen
      rw [if_pos hleft, if_neg hpast, if_pos (show row - pushed.length < grid.rows.length by omega),
        List.getElem?_append_right (Nat.le_of_not_lt hpast),
        List.getElem?_take_of_lt (by omega), List.getElem?_map, Grid.getRowCells,
        List.getElem?_eq_getElem (show row - pushed.length < grid.rows.length by omega)]
      split_ifs
      · left
        simp only [map_some, bind_some, toCellRow]
        rw [← Grid.width_eq_getGridDimensions h (getElem_mem _)]
        exact cellOfRow_content _ _ _ _
      · exact .inr rfl
    · -- a row that moved up on the screen
      rw [if_neg hleft, if_neg hpast, if_pos (by omega), if_pos (by omega), hscr.rows _ (by omega),
        show row - (pushed.length + shifted) + shifted = row - pushed.length by omega]
      left
      cases grid.getRowCells (row - pushed.length) <;> rfl

/-- What the terminal does to a primary screen and its history as output scrolls it. -/
inductive ScrollStep where
  /-- A scroll of the region from the top row to `bottomRowIndex`. -/
  | scrollRegion (bottom lineCount : Nat) (style : Style)
  | evictForNextPush
  | clear

def applyScrollStep (screen : Grid × Scrollback) : ScrollStep → Grid × Scrollback
  | .scrollRegion bottom lineCount style =>
    deleteTopLinesIntoScrollback screen.1 screen.2 bottom lineCount style
  | .evictForNextPush => (screen.1, screen.2.applyHistoryOperation .evictForNextPush)
  | .clear => (screen.1, screen.2.applyHistoryOperation .clear)

/-- The row is in history, or on the screen no lower than the region the step scrolls into history. -/
def ScrollStep.Reaches (totalPushedLineCount rowIndex : Nat) : ScrollStep → Prop
  | .scrollRegion bottom _ _ => rowIndex ≤ totalPushedLineCount + bottom
  | .evictForNextPush | .clear => True

structure IsProperScreen (columnCount : UInt16) (pushedRows : List CellRow) (screen : Grid × Scrollback) : Prop where
  facts : screen.1.Facts columnCount.toNat
  size : screen.1.rows.length ≤ u16Max
  cells : ∀ row ∈ screen.1.rows, ∀ cell ∈ row.cells, cell.IsProper
  pushed : screen.2.HoldsPushed 0 (pushedRows.map toSnapshot)
  rows : ∀ row ∈ pushedRows, row.IsProper

def readCell (screen : Grid × Scrollback) (rowIndex column : Nat) : Option (Option Cell) :=
  ((fromScrollbackAndGrid screen.2 screen.1).getCell rowIndex column).map (·.1)

section

variable {columnCount : UInt16} {pushed : List CellRow} {screen : Grid × Scrollback}

section

variable (h : IsProperScreen columnCount pushed screen)

include h

theorem IsProperScreen.readCell_eq (row col : Nat) :
    readCell screen row col =
      some ((namedRow pushed screen.2.retainedLines.length screen.1 row).bind
        (cellOfRow screen.1.getGridDimensions.2 col)) :=
  getCell_eq h.pushed h.rows screen.1 row col

/-- After a step that moves no row of the screen and pushes none, a read gives what it gave, or nothing. -/
theorem IsProperScreen.applyHistoryOperation {op : HistoryOperation} (hnone : listPushedRows [op] = []) :
    IsProperScreen columnCount pushed (screen.1, screen.2.applyHistoryOperation op) ∧
      ∀ row col,
        readCell (screen.1, screen.2.applyHistoryOperation op) row col = readCell screen row col ∨
        readCell (screen.1, screen.2.applyHistoryOperation op) row col = some none := by
  have hpu := holdsPushed_foldl h.pushed [op]
  have hrt := length_retainedLines_foldl h.pushed.length_le [op]
  rw [hnone, map_nil, append_nil] at hpu
  rw [hnone, length_nil, Nat.add_zero] at hrt
  have hn : IsProperScreen columnCount pushed (screen.1, screen.2.applyHistoryOperation op) :=
    ⟨h.facts, h.size, h.cells, hpu, h.rows⟩
  refine ⟨hn, fun row col => ?_⟩
  rw [hn.readCell_eq, h.readCell_eq]
  simp only [namedRow]
  have hless : (screen.2.applyHistoryOperation op).retainedLines.length ≤ screen.2.retainedLines.length := hrt
  split_ifs with hpast hk hb hsh
  · exact .inl rfl
  · omega
  · exact .inr rfl
  · exact .inr rfl
  · exact .inl rfl
  · exact .inl rfl

theorem isProper_toCellRow : ∀ row ∈ screen.1.rows.map toCellRow, row.IsProper := by
  intro row hro
  obtain ⟨src, hsr, rfl⟩ := List.mem_map.1 hro
  refine ⟨h.cells src hsr, ?_⟩
  rw [show src.toCellRow.rowCells = src.cells from rfl, (h.facts src hsr).width]
  exact Nat.le_of_lt_succ columnCount.toNat_lt

theorem IsProperScreen.scrollRegion (bottom lc : Nat) (style : Style) :
    ∃ laterRows, IsProperScreen columnCount (pushed ++ laterRows)
        (deleteTopLinesIntoScrollback screen.1 screen.2 bottom lc style) ∧
      (deleteTopLinesIntoScrollback screen.1 screen.2 bottom lc style).1.rows.length = screen.1.rows.length ∧
      ∀ index col, index < pushed.length + screen.1.rows.length →
        index ≤ pushed.length + bottom →
          readCell (deleteTopLinesIntoScrollback screen.1 screen.2 bottom lc style) index
              col = readCell screen index col ∨
          readCell (deleteTopLinesIntoScrollback screen.1 screen.2 bottom lc style) index col = some none := by
  have hrowCount : screen.1.getGridDimensions.1 = screen.1.rows.length := asU16_of_le h.size
  by_cases hrows : screen.1.rows.length = 0
  · have hnone : screen.1.getGridDimensions.1 = 0 := hrowCount.trans hrows
    have hs : deleteTopLinesIntoScrollback screen.1 screen.2 bottom lc style = screen := by
      simp only [deleteTopLinesIntoScrollback, if_pos hnone]
    rw [hs]
    refine ⟨[], ?_, rfl, fun index col _ _ => .inl rfl⟩
    rwa [append_nil]
  · -- the source clamps the region to the screen
    have hclamped : deleteTopLinesIntoScrollback screen.1 screen.2 bottom lc style =
        deleteTopLinesIntoScrollback screen.1 screen.2 (min bottom (screen.1.rows.length - 1)) lc
          style := by
      simp only [deleteTopLinesIntoScrollback, hrowCount, min_assoc, min_self]
    have hbot : min bottom (screen.1.rows.length - 1) < screen.1.rows.length := by omega
    rw [hclamped]
    generalize hl : min bottom (screen.1.rows.length - 1) = lastRow at hbot
    have hscr := deleteTopLinesIntoScrollback_spec h.facts h.size screen.2 hbot lc style
    have hpu := holdsPushed_foldl h.pushed (scrollOperations ((screen.1.rows.map toCellRow).take
      (min lc (lastRow + 1))))
    rw [listPushedRows_scrollOperations, ← map_append, ← hscr.history] at hpu
    have hn : IsProperScreen columnCount (pushed ++ (screen.1.rows.map toCellRow).take (min lc (lastRow + 1)))
        (deleteTopLinesIntoScrollback screen.1 screen.2 lastRow lc style) := by
      refine ⟨hscr.facts, hscr.rowCount.symm ▸ h.size, hscr.proper h.cells, hpu, ?_⟩
      intro row hro
      rcases mem_append.1 hro with hro | hro
      · exact h.rows row hro
      · exact isProper_toCellRow h row (mem_of_mem_take hro)
    refine ⟨_, hn, hscr.rowCount, fun index col hro hregion => ?_⟩
    rw [hn.readCell_eq, h.readCell_eq]
    refine (namedRow_topScroll hscr h.facts h.size hbot (Nat.min_le_right ..) h.pushed (by omega)
      col).imp (congrArg some) fun hnone => ?_
    rw [hnone]
    rfl

end

end

theorem ScrollStep.Reaches.mono {step : ScrollStep} {lc laterLineCount row : Nat} (h : step.Reaches lc row)
    (hle : lc ≤ laterLineCount) : step.Reaches laterLineCount row := by
  cases step with
  | scrollRegion bottom =>
    exact Nat.le_trans h (Nat.add_le_add_right hle bottom)
  | evictForNextPush => trivial
  | clear => trivial

theorem IsProperScreen.applyScrollStep {columnCount : UInt16} {screen : Grid × Scrollback}
    (h : IsProperScreen columnCount pushed screen) (step : ScrollStep) :
    ∃ laterRows, IsProperScreen columnCount (pushed ++ laterRows) (applyScrollStep screen step) ∧
      (Terminal.applyScrollStep screen step).1.rows.length = screen.1.rows.length ∧
      ∀ row col, row < pushed.length + screen.1.rows.length →
        step.Reaches pushed.length row →
          readCell (Terminal.applyScrollStep screen step) row col = readCell screen row col ∨
          readCell (Terminal.applyScrollStep screen step) row col = some none := by
  cases step with
  | scrollRegion bottom lc style => exact h.scrollRegion bottom lc style
  | evictForNextPush =>
    obtain ⟨hn, hrd⟩ := h.applyHistoryOperation (show listPushedRows [.evictForNextPush] = [] from rfl)
    exact ⟨[], (append_nil pushed).symm ▸ hn, rfl, fun row col _ _ => hrd row col⟩
  | clear =>
    obtain ⟨hn, hrd⟩ := h.applyHistoryOperation (show listPushedRows [.clear] = [] from rfl)
    exact ⟨[], (append_nil pushed).symm ▸ hn, rfl, fun row col _ _ => hrd row col⟩

theorem IsProperScreen.foldl_applyScrollStep {columnCount : UInt16} {screen : Grid × Scrollback}
    (h : IsProperScreen columnCount pushed screen) (steps : List ScrollStep) {row : Nat}
    (hro : row < pushed.length + screen.1.rows.length) (hsteps : ∀ step ∈ steps, step.Reaches pushed.length row)
    (col : Nat) :
    readCell (steps.foldl Terminal.applyScrollStep screen) row col = readCell screen row col ∨
      readCell (steps.foldl Terminal.applyScrollStep screen) row col = some none := by
  induction steps generalizing screen pushed with
  | nil => exact .inl rfl
  | cons step steps ih =>
    obtain ⟨laterRows, hn, hrows, hrd⟩ := h.applyScrollStep step
    rw [foldl_cons]
    have hlr : row < (pushed ++ laterRows).length + (Terminal.applyScrollStep screen step).1.rows.length := by
      rw [length_append]
      omega
    have hreaches : ∀ laterStep ∈ steps, laterStep.Reaches (pushed ++ laterRows).length row := by
      intro laterStep hm
      rw [length_append]
      exact (hsteps laterStep (mem_cons_of_mem step hm)).mono (Nat.le_add_right ..)
    rcases ih hn hlr hreaches with hr | hr
    · rw [hr]
      exact hrd row col hro (hsteps step mem_cons_self)
    · exact .inr hr

/-- **Absolute row numbers keep their meaning.** After any pushes, evictions and clears the count of pushed lines is
exact and no less than the retained count, and a view reads under a row number, after any earlier reads, the pushed line
of that number while it is retained, the row of the screen past the pushed lines, and nothing otherwise. Whatever
happens to the history and the screen later, a line of the history reads the same or not at all; and over a run of
scrolls into history, of the whole screen or of a region from its top row, so does every row of the screen that no
region of the run ends above: every row at all, where each region ends at the last one. -/
theorem rowNumbers_keep_meaning (limit : ScrollbackLimit) (moves : List HistoryOperation)
    (hproper : ∀ row ∈ listPushedRows moves, row.IsProper) (screenGrid : Grid) :
    (runHistory limit moves).totalPushedLineCount = (listPushedRows moves).length ∧
    (runHistory limit moves).retainedLines.length ≤ (runHistory limit moves).totalPushedLineCount ∧
    (∀ earlierIndexes rowIndex, ∃ view nextView,
      (fromScrollbackAndGrid (runHistory limit moves) screenGrid).readRows earlierIndexes = some view ∧
      view.readRow rowIndex = some (namedRow (listPushedRows moves)
        (runHistory limit moves).retainedLines.length screenGrid rowIndex, nextView)) ∧
    (∀ later laterGrid rowIndex, (∀ row ∈ listPushedRows later, row.IsProper) →
      rowIndex < (runHistory limit moves).totalPushedLineCount →
        ((fromScrollbackAndGrid (runHistory limit (moves ++ later)) laterGrid).readRow rowIndex).map (·.1) =
          ((fromScrollbackAndGrid (runHistory limit moves) screenGrid).readRow rowIndex).map (·.1) ∨
        ((fromScrollbackAndGrid (runHistory limit (moves ++ later)) laterGrid).readRow
            rowIndex).map (·.1) = some none) ∧
    ∀ columnCount (steps : List ScrollStep) rowIndex columnIndex,
      IsProperScreen columnCount (listPushedRows moves) (screenGrid, runHistory limit moves) →
      rowIndex < (runHistory limit moves).totalPushedLineCount + screenGrid.rows.length →
      (∀ step ∈ steps, step.Reaches (runHistory limit moves).totalPushedLineCount rowIndex) →
        readCell (steps.foldl applyScrollStep (screenGrid, runHistory limit moves)) rowIndex columnIndex =
          readCell (screenGrid, runHistory limit moves) rowIndex columnIndex ∨
        readCell (steps.foldl applyScrollStep (screenGrid, runHistory limit moves)) rowIndex columnIndex =
          some none := by
  have hpushed := holdsPushed_runHistory limit moves
  have htotal : (runHistory limit moves).totalPushedLineCount = (listPushedRows moves).length := by
    rw [hpushed.total, Nat.zero_add, length_map]
  refine ⟨htotal, hpushed.length_le, ?_, ?_, ?_⟩
  · intro earlierIndexes rowIndex
    obtain ⟨view, hview, hviews⟩ := (views_fromGrid _ screenGrid).readRows_eq hpushed hproper earlierIndexes
    obtain ⟨nextView, hread, -⟩ := hviews.readRow_eq hpushed hproper rowIndex
    exact ⟨view, nextView, hview, hread⟩
  · intro later laterGrid rowIndex hlater hrow
    have hpushedLater := holdsPushed_runHistory limit (moves ++ later)
    have hretained : (runHistory limit (moves ++ later)).retainedLines.length ≤
        (runHistory limit moves).retainedLines.length + (listPushedRows later).length := by
      rw [runHistory, List.foldl_append]
      exact length_retainedLines_foldl hpushed.length_le later
    have hproperLater : ∀ row ∈ listPushedRows (moves ++ later), row.IsProper := by
      rw [listPushedRows_append]
      intro row hmem
      exact (mem_append.1 hmem).elim (hproper row) (hlater row)
    obtain ⟨_, hread, -⟩ := (views_fromGrid _ screenGrid).readRow_eq hpushed hproper rowIndex
    obtain ⟨_, hreadLater, -⟩ :=
      (views_fromGrid _ laterGrid).readRow_eq hpushedLater hproperLater rowIndex
    rw [hread, hreadLater, map_some, map_some]
    rw [htotal] at hrow
    simp only [namedRow, listPushedRows_append, length_append, List.getElem?_append_left hrow]
    rw [if_pos (by omega), if_pos hrow]
    split_ifs
    · exact .inl rfl
    · omega
    · exact .inr rfl
    · exact .inr rfl
  · intro columnCount steps rowIndex columnIndex hscreen hrow hsteps
    rw [htotal] at hrow hsteps
    exact hscreen.foldl_applyScrollStep steps hrow hsteps columnIndex

def threeLines : List HistoryOperation :=
  [.push (buildNarrowRow ['a', 'b'] .hard), .push (buildNarrowRow ['c', 'd'] .hard), .push (buildNarrowRow ['e'] .hard)]

/-- Rows `a`, `b` and `c`, and no history. -/
def threeRowScreen : Grid × Scrollback :=
  (.fromRowsWithMetadata (['a', 'b', 'c'].map fun char => ((buildNarrowRow [char] .hard).rowCells, ⟨.hard, false⟩)) 1
    .default, .fromScrollbackLimit ⟨10, 100⟩)

theorem isProperScreen_threeRowScreen : IsProperScreen 1 [] threeRowScreen where
  facts := by
    show Grid.Facts 1 (Grid.fromRowsWithMetadata _ 1 .default)
    intro row hrow
    exact Grid.facts_fromRowsWithMetadata _ 1 .default row hrow
  size := by decide +kernel
  cells row hrow cell hcell := by
    have hcells : threeRowScreen.1.rows.flatMap (·.cells) = (buildNarrowRow ['a', 'b', 'c'] .hard).rowCells := by
      decide +kernel
    have hmem : cell ∈ (buildNarrowRow ['a', 'b', 'c'] .hard).rowCells := hcells ▸ mem_flatMap.2 ⟨row, hrow, hcell⟩
    exact (isProper_buildNarrowRow (by decide) .hard).cells cell hmem
  pushed := holdsPushed_new _
  rows row hrow := absurd hrow not_mem_nil

/-- `CSI 1;2 r` on three rows, then a line feed at the margin: `c` stays in the last row, whose number named it before
and names the emptied row above it now. -/
theorem scrollRegion_renumbers_lastRow :
    IsProperScreen 1 [] threeRowScreen ∧
      readCell threeRowScreen 2 0 = some (some (.fromCharacter 'c' 1 .default)) ∧
      readCell (applyScrollStep threeRowScreen (.scrollRegion 1 1 .default)) 2 0 = some (some .buildBlank) ∧
      readCell (applyScrollStep threeRowScreen (.scrollRegion 1 1 .default)) 3 0 =
        some (some (.fromCharacter 'c' 1 .default)) :=
  ⟨isProperScreen_threeRowScreen, by decide +kernel, by decide +kernel, by decide +kernel⟩

/-- Under a cap of two lines, the first of three is gone and the second reads whole; two scrolls of three rows leave the
last of them its number. -/
theorem rowNumbers_keep_meaning_threeLines :
    (∃ view nextView, (fromScrollbackAndGrid (runHistory ⟨2, 100⟩ threeLines) ⟨[]⟩).readRows [2] = some view ∧
      view.readRow 1 = some (some ((buildNarrowRow ['c', 'd'] .hard).rowCells, .hard), nextView)) ∧
    (∃ view nextView, (fromScrollbackAndGrid (runHistory ⟨2, 100⟩ threeLines) ⟨[]⟩).readRows [2, 1] = some view ∧
      view.readRow 0 = some (none, nextView)) ∧
    (let scrolledScreen := [.scrollRegion 2 1 .default, .scrollRegion 2 1 .default].foldl applyScrollStep threeRowScreen
    (readCell scrolledScreen 2 0 = readCell threeRowScreen 2 0 ∨ readCell scrolledScreen 2 0 = some none) ∧
      readCell scrolledScreen 2 0 = some (some (.fromCharacter 'c' 1 .default))) := by
  have hproper : ∀ row ∈ listPushedRows threeLines, row.IsProper := by
    intro row hrow
    rw [show listPushedRows threeLines = [buildNarrowRow ['a', 'b'] .hard,
      buildNarrowRow ['c', 'd'] .hard, buildNarrowRow ['e'] .hard] from rfl] at hrow
    simp only [mem_cons, not_mem_nil, or_false] at hrow
    rcases hrow with rfl | rfl | rfl <;> exact isProper_buildNarrowRow (by decide) .hard
  have hread := (rowNumbers_keep_meaning ⟨2, 100⟩ threeLines hproper ⟨[]⟩).2.2.1
  have hretained : namedRow (listPushedRows threeLines) (runHistory ⟨2, 100⟩ threeLines).retainedLines.length ⟨[]⟩ 1 =
    some ((buildNarrowRow ['c', 'd'] .hard).rowCells, .hard) := by decide +kernel
  have hevicted : namedRow (listPushedRows threeLines) (runHistory ⟨2, 100⟩ threeLines).retainedLines.length ⟨[]⟩ 0 =
    none := by decide +kernel
  have hscroll := (rowNumbers_keep_meaning ⟨10, 100⟩ [] (fun row hrow => absurd hrow not_mem_nil)
    threeRowScreen.1).2.2.2.2 1 [.scrollRegion 2 1 .default, .scrollRegion 2 1 .default] 2 0
    isProperScreen_threeRowScreen (by decide +kernel) fun step hstep => by
      rw [eq_of_mem_replicate (n := 2) hstep]
      exact Nat.le_refl 2
  exact ⟨hretained ▸ hread [2] 1, hevicted ▸ hread [2, 1] 0, hscroll, by decide +kernel⟩

end

end Koshi.Terminal
