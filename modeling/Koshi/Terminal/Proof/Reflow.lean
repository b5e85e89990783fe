import Mathlib.Tactic
import Koshi.Terminal.Proof.KeepRows
import Koshi.Terminal.Proof.Lines
import Koshi.Terminal.Proof.Scrollback

/-!
# A reflow keeps what the terminal says

Either way of reading the rows, kept or re-wrapped, gives output rows that say what the rows said. Applying the output
then drops blank rows at the end, splits the rest into history and screen, and pads the screen: none of it changes a
line or moves a mark.
-/

namespace Koshi.Terminal

open Base Koshi.Core List Option OutputRow CellRow

/-! ### Rows that say the same -/

structure SaysSame (fill : Style) (rows others : List CellRow) : Prop where
  lines : listLogicalLines fill others = listLogicalLines fill rows
  places : ∀ place, (place ∈ placeRows 0 0 others ∧ place.rowMetadata.hasPromptMark = true) ↔
    (place ∈ placeRows 0 0 rows ∧ place.rowMetadata.hasPromptMark = true)

/-- A row that says nothing at the end. -/
structure CellRow.IsBlank (fill : Style) (row : CellRow) : Prop where
  rowEnd : row.rowMetadata.rowEnd = .hard
  unmarked : row.rowMetadata.hasPromptMark = false
  cells : ∀ cell ∈ row.rowCells, isFillBlank fill cell = true

section

variable {fill : Style} {rows others lastRows : List CellRow}

theorem SaysSame.symm (h : SaysSame fill rows others) : SaysSame fill others rows :=
  ⟨h.lines.symm, fun place => (h.places place).symm⟩

theorem SaysSame.trans (h : SaysSame fill rows others) (hl : SaysSame fill others lastRows) :
    SaysSame fill rows lastRows :=
  ⟨hl.lines.trans h.lines, fun place => (hl.places place).trans (h.places place)⟩

theorem saysSame_append {blankRows : List CellRow} (hblk : ∀ row ∈ blankRows, row.IsBlank fill) :
    SaysSame fill rows (rows ++ blankRows) :=
  ⟨trimLines_joinLines_append [] rows fun row hro => ⟨(hblk row hro).rowEnd, (hblk row hro).cells⟩,
    fun _ => mem_placeRows_append fun row hro => (hblk row hro).unmarked⟩

theorem saysSame_of_forall₂ (h : List.Forall₂ (SameRow fill) rows others) : SaysSame fill rows others :=
  ⟨trimLines_joinLines_congr [] h, fun place => by rw [placeRows_congr h]⟩

theorem KeepsMarks.congr (h : KeepsMarks lastRows rows) (hs : SaysSame fill rows others) :
    KeepsMarks lastRows others := by
  constructor
  · intro place hpc hmark
    obtain ⟨newPlace, hnewPlace, hnewMark, hhl⟩ := h.kept place hpc hmark
    exact ⟨newPlace, ((hs.places newPlace).2 ⟨hnewPlace, hnewMark⟩).1, hnewMark, hhl⟩
  · intro newPlace hnewPlace hmark
    exact h.only newPlace ((hs.places newPlace).1 ⟨hnewPlace, hmark⟩).1 hmark

end

/-! ### Applying an output -/

section

variable {columnCount : Nat} {backgroundStyle : Style} {outRow : OutputRow}

theorem OutputRow.IsValid.decodeRowCells_eq (h : outRow.IsValid columnCount) (hcols : columnCount ≤ u16Max) :
    outRow.toRewrappedRow.decodeRowCells = some (outRow.row.rowCells.take outRow.rowCellCount) := by
  rw [RewrappedRow.decodeRowCells, toRewrappedRow, toSnapshot, decodeRowCells_of_proper h.proper (by rwa [h.width])]
  rfl

theorem OutputRow.IsValid.isDroppable_eq (h : outRow.IsValid columnCount) (hcols : columnCount ≤ u16Max) :
    ∃ isDroppable, outRow.toRewrappedRow.isDroppable = some isDroppable ∧
      (isDroppable = true → outRow.row.IsBlank backgroundStyle) := by
  rw [RewrappedRow.isDroppable]
  split_ifs with hpl
  · refine ⟨_, by rw [h.decodeRowCells_eq hcols]; rfl, fun hnone => ⟨hpl.1, hpl.2, fun c hce => ?_⟩⟩
    have hc : countRowContentCells (outRow.row.rowCells.take outRow.rowCellCount) ≤ 0 :=
      (beq_iff_eq.1 hnone).le
    rw [countContentCells_le_iff, drop_zero] at hc
    rw [← take_append_drop outRow.rowCellCount outRow.row.rowCells] at hce
    rcases mem_append.1 hce with hce | hce
    · rw [hc c hce]
      exact isFillBlank_blank
    · rw [h.padding] at hce
      rw [eq_of_mem_replicate hce]
      exact isFillBlank_blank
  · exact ⟨false, rfl, by simp⟩

theorem dropTrailingBlankRows_spec (hcols : columnCount ≤ u16Max) (rowCount newRow : Nat) (outRows : List OutputRow)
    (hv : ∀ outRow ∈ outRows, outRow.IsValid columnCount) :
    ∃ dropped kept, outRows = dropped ++ kept ∧
      dropTrailingBlankRows rowCount newRow (outRows.map OutputRow.toRewrappedRow) =
        some (kept.map OutputRow.toRewrappedRow) ∧
      ∀ droppedRow ∈ dropped, droppedRow.row.IsBlank backgroundStyle := by
  induction outRows with
  | nil => exact ⟨[], [], rfl, rfl, by simp⟩
  | cons lastRow earlierRows ih =>
    obtain ⟨hl, her⟩ := forall_mem_cons.1 hv
    obtain ⟨isDroppable, hdroppable, hblk⟩ := @hl.isDroppable_eq _ backgroundStyle _ hcols
    rw [map_cons, dropTrailingBlankRows]
    split_ifs
    · rw [hdroppable]
      cases isDroppable with
      | false => exact ⟨[], lastRow :: earlierRows, rfl, rfl, by simp⟩
      | true =>
        obtain ⟨dropped, kept, rfl, hdrop, hdp⟩ := ih her
        exact ⟨lastRow :: dropped, kept, rfl, hdrop, forall_mem_cons.2 ⟨hblk rfl, hdp⟩⟩
    · exact ⟨[], lastRow :: earlierRows, rfl, rfl, by simp⟩

def OutputRow.toScreenRow (columnCount : Nat) (backgroundStyle : Style) (outRow : OutputRow) : CellRow :=
  ⟨Grid.resizeCells (outRow.row.rowCells.take outRow.rowCellCount) columnCount
    (.buildBlankWithStyle backgroundStyle), outRow.row.rowMetadata⟩

theorem OutputRow.IsValid.rowCells_toScreenRow (h : outRow.IsValid columnCount) :
    (outRow.toScreenRow columnCount backgroundStyle).rowCells = outRow.row.rowCells.take outRow.rowCellCount ++
      List.replicate (columnCount - outRow.rowCellCount) (.buildBlankWithStyle backgroundStyle) := by
  have hc := h.count_le
  have hlen : (outRow.row.rowCells.take outRow.rowCellCount).length = outRow.rowCellCount := by
    rw [length_take, h.width, Nat.min_eq_left hc]
  simp only [toScreenRow, Grid.resizeCells, hlen]
  rw [take_of_length_le (by rw [hlen]; exact hc)]

theorem OutputRow.IsValid.sameRow_toScreenRow (h : outRow.IsValid columnCount) :
    SameRow backgroundStyle outRow.row (outRow.toScreenRow columnCount backgroundStyle) := by
  refine ⟨rfl, ?_, fun hsoft => ?_, ?_⟩
  · rw [h.width]
    exact Grid.length_resizeCells _ _ _
  · rw [h.rowCells_toScreenRow, h.full hsoft, Nat.sub_self, ← h.width, take_length]
    exact append_nil _
  · refine ⟨_, _, _, (take_append_drop outRow.rowCellCount outRow.row.rowCells).symm,
      h.rowCells_toScreenRow, fun c hce => ?_, fun c hce => ?_⟩
    · rw [h.padding] at hce
      rw [eq_of_mem_replicate hce]
      exact isFillBlank_blank
    · rw [eq_of_mem_replicate hce]
      exact isFillBlank_fill

theorem isProper_toScreenRow (h : outRow.IsValid columnCount) :
    ∀ c ∈ (outRow.toScreenRow columnCount backgroundStyle).rowCells, c.IsProper := by
  intro c hce
  rw [h.rowCells_toScreenRow] at hce
  rcases mem_append.1 hce with hce | hce
  · exact h.proper c (mem_of_mem_take hce)
  · rw [eq_of_mem_replicate hce]
    exact Cell.isProper_blank backgroundStyle

theorem mapM_decodeRowCells (hcols : columnCount ≤ u16Max) {outRows : List OutputRow}
    (hv : ∀ outRow ∈ outRows, outRow.IsValid columnCount) :
    ((outRows.map OutputRow.toRewrappedRow).mapM fun rewrappedRow =>
      rewrappedRow.decodeRowCells.map fun cells => (cells, rewrappedRow.rowSnapshot.rowMetadata)) =
      some (outRows.map fun outRow =>
        (outRow.row.rowCells.take outRow.rowCellCount, outRow.row.rowMetadata)) := by
  induction outRows with
  | nil => rfl
  | cons outRow outRows ih =>
    obtain ⟨hro, hrows⟩ := forall_mem_cons.1 hv
    rw [map_cons, mapM_cons, hro.decodeRowCells_eq hcols, ih hrows]
    rfl

def CellRow.blankRow (columnCount : Nat) (style : Style) : CellRow :=
  ⟨List.replicate columnCount (.buildBlankWithStyle style), .default⟩

theorem isProper_blankRow (columnCount : Nat) (style : Style) :
    ∀ c ∈ (blankRow columnCount style).rowCells, c.IsProper := fun c hce => by
  rw [eq_of_mem_replicate hce]
  exact Cell.isProper_blank style

theorem isBlank_blankRow (columnCount : Nat) {style : Style}
    (h : isFillBlank backgroundStyle (.buildBlankWithStyle style) = true) :
    (blankRow columnCount style).IsBlank backgroundStyle :=
  ⟨rfl, rfl, fun c hce => by rwa [eq_of_mem_replicate hce]⟩

theorem isValid_blankRow (columnCount : Nat) : OutputRow.IsValid columnCount ⟨.blankRow columnCount .default, 0⟩ :=
  ⟨isProper_blankRow columnCount .default, length_replicate, Nat.zero_le _, rfl, fun hsoft => absurd rfl hsoft⟩

end

structure PrimaryScreen.IsReflowed (screen newScreen : PrimaryScreen) (columnCount : Nat)
    (newHistory : List CellRow) : Prop where
  history : newScreen.scrollback.retainedLines <:+ newHistory.map toSnapshot
  fits : newHistory.length ≤ screen.scrollback.maximumLineCount →
    computeRetainedByteCount (newHistory.map toSnapshot) ≤ screen.scrollback.maximumByteCount →
      newScreen.HoldsHistory newHistory
  proper : ∀ row ∈ newHistory ++ newScreen.listCellRows, row.IsProper
  width : ∀ row ∈ newHistory ++ newScreen.listCellRows, row.rowCells.length = columnCount

theorem Scrollback.retainedLines_replaceRetainedLines (sb : Scrollback) (lines : List RowSnapshot) (countBefore : Nat) :
    (sb.replaceRetainedLines lines countBefore).retainedLines <:+ lines ∧
      (lines.length ≤ sb.maximumLineCount → computeRetainedByteCount lines ≤ sb.maximumByteCount →
        (sb.replaceRetainedLines lines countBefore).retainedLines = lines) := by
  have hspec := evictLines_spec sb.maximumLineCount sb.maximumByteCount lines
  refine ⟨⟨_, hspec.split.symm⟩, fun hlns hby => ?_⟩
  simp only [replaceRetainedLines, evictOldestLinesToLimits]
  cases lines with
  | nil => rfl
  | cons oldestLine lines =>
    rw [evictLines, if_neg]
    rw [length_cons] at hlns
    omega

section

variable {columnCount : Nat} {reflowOutput : ReflowOutput} {outRows : List OutputRow}

theorem exists_filledRows (rowCount : Nat) (houtput : reflowOutput.rewrappedRows = outRows.map OutputRow.toRewrappedRow)
    (hv : ∀ outRow ∈ outRows, outRow.IsValid columnCount) :
    ∃ filled : List OutputRow,
      (if reflowOutput.rewrappedRows.isEmpty && rowCount > 0 then
        [RewrappedRow.fromLeadingCells [] 0 .default columnCount] else reflowOutput.rewrappedRows) =
          filled.map OutputRow.toRewrappedRow ∧
      (∀ outRow ∈ filled, outRow.IsValid columnCount) ∧
      SaysSame reflowOutput.backgroundStyle (outRows.map (·.row)) (filled.map (·.row)) := by
  split_ifs with hem
  · have hnil : outRows = [] := by
      rw [Bool.and_eq_true, houtput, List.isEmpty_iff, map_eq_nil_iff] at hem
      exact hem.1
    refine ⟨[⟨.blankRow columnCount .default, 0⟩], ?_, ?_, ?_⟩
    · simp only [RewrappedRow.fromLeadingCells, Nat.max_zero, map_singleton, OutputRow.toRewrappedRow, toSnapshot]
      rw [fromPaddedRowCells_eq (Nat.zero_le _)]
      rfl
    · exact fun outRow hout => mem_singleton.1 hout ▸ isValid_blankRow columnCount
    · rw [hnil]
      refine @saysSame_append _ [] _ fun row hro => ?_
      obtain rfl := mem_singleton.1 hro
      exact isBlank_blankRow columnCount isFillBlank_blank
  · exact ⟨outRows, houtput, hv, ⟨rfl, fun _ => Iff.rfl⟩⟩

theorem exists_keptRows (hcols : columnCount ≤ u16Max) (hv : ∀ outRow ∈ outRows, outRow.IsValid columnCount)
    (rowCount newRow : Nat) (backgroundStyle : Style) :
    ∃ kept : List OutputRow,
      dropTrailingBlankRows rowCount newRow (outRows.map OutputRow.toRewrappedRow).reverse =
        some (kept.map OutputRow.toRewrappedRow).reverse ∧
      (∀ outRow ∈ kept, outRow.IsValid columnCount) ∧
      SaysSame backgroundStyle (outRows.map (·.row)) (kept.map (·.row)) := by
  obtain ⟨dropped, kept, hsp, hdrop, hdp⟩ := @dropTrailingBlankRows_spec _ backgroundStyle
    hcols rowCount newRow outRows.reverse (fun outRow hout =>
      hv outRow (mem_reverse.1 hout))
  have hrows : outRows = kept.reverse ++ dropped.reverse := by
    rw [← reverse_append, ← hsp, reverse_reverse]
  refine ⟨kept.reverse, ?_, fun outRow hout => hv outRow (hrows ▸ mem_append_left _ hout), ?_⟩
  · rw [← map_reverse, hdrop, ← map_reverse, reverse_reverse]
  · rw [hrows, map_append]
    refine SaysSame.symm (saysSame_append fun row hro => ?_)
    obtain ⟨droppedRow, hdroppedRow, rfl⟩ := List.mem_map.1 hro
    exact hdp droppedRow (mem_reverse.1 hdroppedRow)

theorem saysSame_split (hv : ∀ outRow ∈ outRows, outRow.IsValid columnCount) (overflow blanks : Nat)
    (backgroundStyle : Style) :
    SaysSame backgroundStyle (outRows.map (·.row))
      ((outRows.take overflow).map (·.row) ++
        ((outRows.drop overflow).map (toScreenRow columnCount backgroundStyle) ++
          List.replicate blanks (.blankRow columnCount backgroundStyle))) := by
  have hscr : List.Forall₂ (SameRow backgroundStyle) (outRows.map (·.row))
      ((outRows.take overflow).map (·.row) ++
        (outRows.drop overflow).map (toScreenRow columnCount backgroundStyle)) := by
    conv_lhs => rw [← take_append_drop overflow outRows, map_append]
    refine rel_append ?_ ?_
    · exact forall₂_same.2 fun row _ => SameRow.refl row
    · rw [forall₂_map_left_iff, forall₂_map_right_iff]
      exact forall₂_same.2 fun outRow hout =>
        (hv outRow (mem_of_mem_drop hout)).sameRow_toScreenRow
  rw [← append_assoc]
  refine (saysSame_of_forall₂ hscr).trans (saysSame_append fun row hro => ?_)
  rw [eq_of_mem_replicate hro]
  exact isBlank_blankRow columnCount isFillBlank_fill

theorem isProper_split (hcols : columnCount ≤ u16Max) (hv : ∀ outRow ∈ outRows, outRow.IsValid columnCount)
    (overflow blanks : Nat) (backgroundStyle : Style) :
    ∀ row ∈ (outRows.take overflow).map (·.row) ++
        ((outRows.drop overflow).map (toScreenRow columnCount backgroundStyle) ++
          List.replicate blanks (.blankRow columnCount backgroundStyle)),
      row.IsProper ∧ row.rowCells.length = columnCount := by
  intro row hro
  rcases mem_append.1 hro with hro | hro
  · obtain ⟨outRow, hout, rfl⟩ := List.mem_map.1 hro
    have hrowOk := hv outRow (mem_of_mem_take hout)
    exact ⟨⟨hrowOk.proper, by rwa [hrowOk.width]⟩, hrowOk.width⟩
  · rcases mem_append.1 hro with hro | hro
    · obtain ⟨outRow, hout, rfl⟩ := List.mem_map.1 hro
      have hrowOk := hv outRow (mem_of_mem_drop hout)
      have hwd : (outRow.toScreenRow columnCount backgroundStyle).rowCells.length = columnCount :=
        Grid.length_resizeCells _ _ _
      exact ⟨⟨isProper_toScreenRow hrowOk, by rwa [hwd]⟩, hwd⟩
    · rw [eq_of_mem_replicate hro]
      have hwd : (blankRow columnCount backgroundStyle).rowCells.length = columnCount := length_replicate
      exact ⟨⟨isProper_blankRow columnCount backgroundStyle, by rwa [hwd]⟩, hwd⟩

end

namespace PrimaryScreen

theorem listCellRows_applied (kept : List OutputRow) (columnCount blanks : Nat) (backgroundStyle : Style)
    (sb : Scrollback) (currentRow col : Nat) :
    (PrimaryScreen.mk (.fromRowsWithMetadata (kept.map (fun outRow =>
          (outRow.row.rowCells.take outRow.rowCellCount, outRow.row.rowMetadata)) ++
        List.replicate blanks (List.replicate columnCount (.buildBlankWithStyle backgroundStyle), .default))
      columnCount backgroundStyle) sb currentRow col).listCellRows =
      kept.map (toScreenRow columnCount backgroundStyle) ++
        List.replicate blanks (.blankRow columnCount backgroundStyle) := by
  simp only [listCellRows, Grid.fromRowsWithMetadata, map_append, List.map_map, map_replicate]
  refine congrArg₂ (· ++ ·) rfl (congrArg (List.replicate blanks) ?_)
  simp [GridRow.fromCells, Grid.resizeCells, blankRow]

theorem applyReflowOutput_spec (screen : PrimaryScreen) (rowCount : Nat) {columnCount : Nat}
    (hcols : columnCount ≤ u16Max) {reflowOutput : ReflowOutput} {outRows : List OutputRow}
    (houtput : reflowOutput.rewrappedRows = outRows.map OutputRow.toRewrappedRow)
    (hv : ∀ outRow ∈ outRows, outRow.IsValid columnCount) (oldCount : Nat) :
    ∃ newScreen newHistory,
      screen.applyReflowOutput rowCount columnCount reflowOutput oldCount = some newScreen ∧
      screen.IsReflowed newScreen columnCount newHistory ∧
      SaysSame reflowOutput.backgroundStyle (outRows.map (·.row)) (newHistory ++ newScreen.listCellRows) := by
  obtain ⟨filled, hfilled, hfilledOk, hfilledSame⟩ := exists_filledRows rowCount houtput hv
  obtain ⟨kept, hdrop, hkeptOk, hkeptSame⟩ := exists_keptRows hcols hfilledOk rowCount
    reflowOutput.newCursorPhysicalRowIndex reflowOutput.backgroundStyle
  have hdecode := @mapM_decodeRowCells _ hcols (kept.drop (kept.length - rowCount))
    fun outRow hout => hkeptOk outRow (mem_of_mem_drop hout)
  have hsp := saysSame_split hkeptOk (kept.length - rowCount)
    (rowCount - (kept.drop (kept.length - rowCount)).length) reflowOutput.backgroundStyle
  have hproper := isProper_split hcols hkeptOk (kept.length - rowCount)
    (rowCount - (kept.drop (kept.length - rowCount)).length) reflowOutput.backgroundStyle
  have hlns : ((kept.take (kept.length - rowCount)).map OutputRow.toRewrappedRow).map (·.rowSnapshot) =
      ((kept.take (kept.length - rowCount)).map (·.row)).map toSnapshot := by
    rw [List.map_map, List.map_map]
    rfl
  have happly : screen.applyReflowOutput rowCount columnCount reflowOutput oldCount =
      some ⟨.fromRowsWithMetadata ((kept.drop (kept.length - rowCount)).map (fun outRow =>
            (outRow.row.rowCells.take outRow.rowCellCount, outRow.row.rowMetadata)) ++
          List.replicate (rowCount - (kept.drop (kept.length - rowCount)).length)
            (List.replicate columnCount (.buildBlankWithStyle reflowOutput.backgroundStyle), .default))
          columnCount reflowOutput.backgroundStyle,
        screen.scrollback.replaceRetainedLines (((kept.take (kept.length - rowCount)).map (·.row)).map
          toSnapshot) oldCount,
        asU16 (min (reflowOutput.newCursorPhysicalRowIndex - (kept.length - rowCount)) (rowCount - 1)),
        asU16 (min reflowOutput.newCursorColumnIndex (columnCount - 1))⟩ := by
    rw [applyReflowOutput, hfilled]
    simp only [hdrop, bind_eq_bind, bind_some, reverse_reverse, length_map, ← map_drop, ← map_take, hdecode, hlns]
  obtain ⟨hsuffix, hft⟩ := screen.scrollback.retainedLines_replaceRetainedLines
    (((kept.take (kept.length - rowCount)).map (·.row)).map toSnapshot) oldCount
  refine ⟨_, (kept.take (kept.length - rowCount)).map (·.row), happly, ?_⟩
  rw [listCellRows_applied]
  refine ⟨⟨hsuffix, fun hlineCount hbCnt => ⟨hft (by rwa [length_map]) hbCnt, ?_⟩, ?_, ?_⟩,
    (hfilledSame.trans hkeptSame).trans hsp⟩
  · exact fun row hro => (hproper row (mem_append_left _ hro)).1
  · rw [listCellRows_applied]
    exact fun row hro => (hproper row hro).1
  · rw [listCellRows_applied]
    exact fun row hro => (hproper row hro).2

end PrimaryScreen

/-! ### Kept rows -/

namespace KeptRowReflow

/-- The output has these rows behind the ones it had. -/
structure Extends (kept : KeptRowReflow) (rows : List CellRow) (next : KeptRowReflow) : Prop where
  rewrappedRows : next.reflowOutput.rewrappedRows = kept.reflowOutput.rewrappedRows ++ rows.map CellRow.toRewrappedRow
  columnCount : next.reflowOutput.columnCount = kept.reflowOutput.columnCount
  backgroundStyle : next.reflowOutput.backgroundStyle = kept.reflowOutput.backgroundStyle

section

variable {kept next last : KeptRowReflow} {rows : List CellRow} {row : CellRow}

theorem Extends.cons (h : kept.Extends [row] next) (hr : next.Extends rows last) : kept.Extends (row :: rows) last := by
  refine ⟨?_, hr.columnCount.trans h.columnCount, hr.backgroundStyle.trans h.backgroundStyle⟩
  rw [hr.rewrappedRows, h.rewrappedRows, append_assoc]
  rfl

theorem extends_addRow (kept : KeptRowReflow) (row : CellRow) : kept.Extends [row] (kept.addRow row) := by
  by_cases hhard : row.rowMetadata.rowEnd = .hard
  · constructor <;> simp only [addRow, hhard, if_true, map_singleton]
  · constructor <;> simp only [addRow, hhard, if_false, map_singleton]

section

variable (hcols : 2 ≤ kept.reflowOutput.columnCount)

include hcols

theorem extends_pushCellRow (hwd : row.rowCells.length = kept.reflowOutput.columnCount)
    (h : kept.pushCellRow row = some next) :
    kept.Extends [row] next := by
  obtain ⟨-, -, rfl⟩ := pushCellRow_eq_some hcols hwd h
  exact extends_addRow kept row

theorem pushHistoryLines_spec (hproper : ∀ row ∈ rows, row.IsProper)
    (hwd : ∀ row ∈ rows, row.rowCells.length = kept.reflowOutput.columnCount) :
    ∃ result, pushHistoryLines (rows.map toSnapshot) kept = some result ∧
      ∀ next, result = some next → kept.Extends rows next := by
  induction rows generalizing kept with
  | nil =>
    refine ⟨some kept, rfl, fun next hn => ?_⟩
    obtain rfl := some_inj.1 hn
    exact ⟨by simp, rfl, rfl⟩
  | cons row rows ih =>
    obtain ⟨hrowProper, hrowsProper⟩ := forall_mem_cons.1 hproper
    obtain ⟨hrowWidth, hrowsWidth⟩ := forall_mem_cons.1 hwd
    rw [map_cons, pushHistoryLines, pushHistoryLine_eq hrowProper hrowWidth]
    cases hpush : kept.pushCellRow row with
    | none => exact ⟨none, rfl, by simp⟩
    | some next =>
      have hn := extends_pushCellRow hcols hrowWidth hpush
      obtain ⟨result, hres, hextends⟩ := @ih next (by rwa [hn.columnCount]) hrowsProper (by rwa [hn.columnCount])
      exact ⟨result, hres, fun last hl => hn.cons (hextends last hl)⟩

theorem extends_pushScreenRows {rowIndex columnIndex : Nat}
    (hwd : ∀ row ∈ rows, row.rowCells.length = kept.reflowOutput.columnCount)
    (h : pushScreenRows rowIndex columnIndex
      (rows.map fun row => (row.rowCells, row.rowMetadata)) kept = some last) : kept.Extends rows last := by
  induction rows generalizing kept with
  | nil =>
    obtain rfl := some_inj.1 h
    exact ⟨by simp, rfl, rfl⟩
  | cons row rows ih =>
    obtain ⟨hrowWidth, hrowsWidth⟩ := forall_mem_cons.1 hwd
    obtain ⟨next, hpush, hr⟩ := bind_eq_some_iff.1 h
    obtain ⟨-, hpush⟩ := pushScreenRow_eq_some hrowWidth hpush
    have hpld : ∀ onCurrent, kept.Extends [] (kept.placeCursorAt onCurrent columnIndex) := by
      intro onCurrent
      cases onCurrent <;> exact ⟨by simp [placeCursorAt, placeCursor], rfl, rfl⟩
    have hst := hpld (kept.reflowOutput.rewrappedRows.length == rowIndex)
    have hpu := extends_pushCellRow (by rwa [hst.columnCount]) (by rwa [hst.columnCount]) hpush
    have hn : kept.Extends [row] next :=
      ⟨by rw [hpu.rewrappedRows, hst.rewrappedRows, map_nil, append_nil],
        hpu.columnCount.trans hst.columnCount, hpu.backgroundStyle.trans hst.backgroundStyle⟩
    exact hn.cons (ih (by rwa [hn.columnCount]) (by rwa [hn.columnCount]) hr)

end

end

end KeptRowReflow

theorem isValid_keptRow {columnCount : Nat} {row : CellRow} (hproper : ∀ c ∈ row.rowCells, c.IsProper)
    (hwd : row.rowCells.length = columnCount) : OutputRow.IsValid columnCount ⟨row, row.countKeptCells⟩ := by
  have hct := countContentCells_le row.rowCells
  cases hen : row.rowMetadata.rowEnd with
  | hard =>
    have hc : row.countKeptCells = countRowContentCells row.rowCells := by
      simp [countKeptCells, hen, length_content_hard hen]
    have hpadding := congrArg (List.drop (countRowContentCells row.rowCells)) (take_countContentCells row.rowCells)
    rw [drop_left' (by rw [length_take, Nat.min_eq_left hct])] at hpadding
    rw [hc, ← hwd]
    exact ⟨hproper, rfl, hct, hpadding.symm, fun hsoft => absurd hen hsoft⟩
  | soft =>
    have hc : row.countKeptCells = columnCount := by simp [countKeptCells, hen, hwd]
    exact ⟨hproper, hwd, hc.le, by simp [hc, hwd], fun _ => hc⟩
  | softWide =>
    have hc : row.countKeptCells = columnCount := by simp [countKeptCells, hen, hwd]
    exact ⟨hproper, hwd, hc.le, by simp [hc, hwd], fun _ => hc⟩

theorem keepsMarks_refl {rows : List CellRow} (hwd : ∀ row ∈ rows, 2 ≤ row.rowCells.length) : KeepsMarks rows rows := by
  have hhl : ∀ lineIndex startOffset, ∀ place ∈ placeRows lineIndex startOffset rows,
      place.Holds place.lineIndex place.startOffset := by
    induction rows with
    | nil => simp [placeRows]
    | cons row rows ih =>
      obtain ⟨hro, hrows⟩ := forall_mem_cons.1 hwd
      intro lineIndex startOffset place hpc
      rw [placeRows] at hpc
      rcases mem_cons.1 hpc with rfl | hpc
      · refine ⟨rfl, le_refl _, .inl ?_⟩
        have hcx : 0 < row.lineCells.length := by
          unfold lineCells
          split
          · rw [length_dropLast]
            omega
          · omega
          · omega
        simp only
        omega
      · split_ifs at hpc
        · exact ih hrows _ _ place hpc
        · exact ih hrows _ _ place hpc
  exact ⟨fun place hpc hmark => ⟨place, hpc, hmark, hhl 0 0 place hpc⟩,
    fun place hpc hmark => ⟨place, hpc, hmark, hhl 0 0 place hpc⟩⟩

/-! ### The reflow -/

theorem isProper_collectLines {rows : List CellRow} {ln : LogicalLine} (hln : ∀ c ∈ ln.cells, c.IsProper)
    (hrows : ∀ row ∈ rows, row.IsProper) : ∀ found ∈ collectLines ln rows, ∀ c ∈ found.cells, c.IsProper := by
  induction rows generalizing ln with
  | nil =>
    intro found hfo
    rw [collectLines] at hfo
    split_ifs at hfo
    · rwa [mem_singleton.1 hfo]
    · simp at hfo
  | cons row rows ih =>
    obtain ⟨hro, hr⟩ := forall_mem_cons.1 hrows
    have hpu : ∀ c ∈ (ln.pushRow row).cells, c.IsProper := fun c hce =>
      (mem_append.1 hce).elim (hln c) fun hce => hro.cells c (mem_of_mem_content hce)
    intro found hfo
    rw [collectLines] at hfo
    split_ifs at hfo
    · rcases mem_cons.1 hfo with rfl | hfo
      · exact hpu
      · exact @ih .default (by simp [LogicalLine.default]) hr found hfo
    · exact ih hpu hr found hfo

namespace PrimaryScreen

section

variable {screen : PrimaryScreen} {oldRows : List CellRow} {columnCount : Nat} {backgroundStyle : Style}

structure IsOutputOf (rows : List CellRow) (columnCount : Nat) (backgroundStyle : Style) (reflowOutput : ReflowOutput)
    (outRows : List OutputRow) : Prop where
  rewrappedRows : reflowOutput.rewrappedRows = outRows.map OutputRow.toRewrappedRow
  style : reflowOutput.backgroundStyle = backgroundStyle
  valid : ∀ outRow ∈ outRows, outRow.IsValid columnCount
  lines : listLogicalLines backgroundStyle (outRows.map (·.row)) = listLogicalLines backgroundStyle rows
  marks : KeepsMarks rows (outRows.map (·.row))

theorem isOutputOf_rewrapPrimaryRows (hhistory : screen.HoldsHistory oldRows)
    (hproper : ∀ row ∈ screen.listCellRows, row.IsProper) (hcols : 2 ≤ columnCount) :
    ∃ reflowOutput outRows, screen.rewrapPrimaryRows columnCount backgroundStyle = some reflowOutput ∧
      IsOutputOf (oldRows ++ screen.listCellRows) columnCount backgroundStyle reflowOutput outRows := by
  obtain ⟨hrows, hstyle⟩ := @rewrappedRows_finishLines ⟨.fromColumnCount columnCount backgroundStyle, .default, none⟩
    hcols (oldRows.length + screen.cursorRow) screen.cursorColumn 0 (oldRows ++ screen.listCellRows)
  refine ⟨_, (collectLines .default (oldRows ++ screen.listCellRows)).flatMap (wrapLine columnCount backgroundStyle),
    rewrapPrimaryRows_eq hhistory columnCount backgroundStyle, hrows, hstyle, ?_, ?_, ?_⟩
  · intro outRow hout
    obtain ⟨ln, hln, hout⟩ := mem_flatMap.1 hout
    refine isValid_wrapLine hcols ?_ outRow hout
    exact @isProper_collectLines _ .default (by simp [LogicalLine.default])
      (fun row hro => (mem_append.1 hro).elim (hhistory.proper row) (hproper row)) ln hln
  · rw [listLogicalLines, trimLines_wrapLines backgroundStyle hcols, trimLines_collectLines]
    rfl
  · exact keepsMarks_wrapLines hcols backgroundStyle _

theorem isOutputOf_keepPrimaryRows (hhistory : screen.HoldsHistory oldRows)
    (hproper : ∀ row ∈ screen.listCellRows, row.IsProper)
    (hwidth : columnCount = screen.primary.getGridDimensions.2 →
      ∀ row ∈ oldRows ++ screen.listCellRows, row.rowCells.length = columnCount) :
    ∃ result, screen.keepPrimaryRows columnCount backgroundStyle = some result ∧
      ∀ reflowOutput, result = some reflowOutput → ∃ outRows,
        IsOutputOf (oldRows ++ screen.listCellRows) columnCount backgroundStyle reflowOutput outRows := by
  have hscreenRows : screen.listScreenRows = screen.listCellRows.map fun row => (row.rowCells, row.rowMetadata) := by
    simp [listScreenRows, listCellRows, Function.comp_def]
  rw [keepPrimaryRows, hhistory.lines, hscreenRows]
  simp only
  split_ifs with hrefused
  · exact ⟨none, rfl, by simp⟩
  · simp only [not_or, Nat.not_lt, not_not] at hrefused
    obtain ⟨hcols, rfl, -⟩ := hrefused
    have hwd := hwidth rfl
    obtain ⟨keptHistory, hpushHistory, hkeptHistory⟩ := @KeptRowReflow.pushHistoryLines_spec
      ⟨.fromColumnCount screen.primary.getGridDimensions.2 backgroundStyle, 0, 0, .hard⟩ oldRows hcols
      hhistory.proper fun row hro => hwd row (mem_append_left _ hro)
    rw [hpushHistory]
    refine ⟨_, rfl, fun reflowOutput hres => ?_⟩
    obtain ⟨kept, hk, hscr⟩ := bind_eq_some_iff.1 hres
    obtain ⟨next, hpushScreen, hl⟩ := bind_eq_some_iff.1 hscr
    split_ifs at hl
    obtain rfl := some_inj.1 hl
    have hf := hkeptHistory kept hk
    have hse := KeptRowReflow.extends_pushScreenRows (by rwa [hf.columnCount])
      (fun row hro => by rw [hf.columnCount]; exact hwd row (mem_append_right _ hro)) hpushScreen
    have hrows : ((oldRows ++ screen.listCellRows).map fun row => OutputRow.mk row row.countKeptCells).map (·.row) =
        oldRows ++ screen.listCellRows := by
      rw [List.map_map]
      exact List.map_id _
    refine ⟨(oldRows ++ screen.listCellRows).map fun row => ⟨row, row.countKeptCells⟩, ?_,
      hse.backgroundStyle.trans hf.backgroundStyle, ?_, by rw [hrows], ?_⟩
    · rw [hse.rewrappedRows, hf.rewrappedRows, List.map_map, map_append]
      rfl
    · intro outRow hout
      obtain ⟨row, hro, rfl⟩ := List.mem_map.1 hout
      refine isValid_keptRow ?_ (hwd row hro)
      exact (mem_append.1 hro).elim (fun hro => (hhistory.proper row hro).cells) fun hro => (hproper row hro).cells
    · rw [hrows]
      exact keepsMarks_refl fun row hro => by rwa [hwd row hro]

/-- **A reflow keeps what the terminal says.** At every new height and every width of two columns or more, the history
and the screen join to the same lines, less blanks at the end of a line and empty lines at the end; every prompt mark is
on the row that holds the start of the row it marked. The new rows past the screen are all in history when both caps
have room for them. -/
theorem reflowPrimary_keeps_lines (hhistory : screen.HoldsHistory oldRows)
    (hproper : ∀ row ∈ screen.listCellRows, row.IsProper)
    (hwidth : columnCount = screen.primary.getGridDimensions.2 →
      ∀ row ∈ oldRows ++ screen.listCellRows, row.rowCells.length = columnCount)
    (hcols : 2 ≤ columnCount) (hmax : columnCount ≤ u16Max) (rowCount : Nat) :
    ∃ newScreen newRows, screen.reflowPrimary rowCount columnCount backgroundStyle = some newScreen ∧
      screen.IsReflowed newScreen columnCount newRows ∧
      listLogicalLines backgroundStyle (newRows ++ newScreen.listCellRows) =
        listLogicalLines backgroundStyle (oldRows ++ screen.listCellRows) ∧
      KeepsMarks (oldRows ++ screen.listCellRows) (newRows ++ newScreen.listCellRows) := by
  have happly : ∀ (source : PrimaryScreen) (reflowOutput : ReflowOutput) (outRows : List OutputRow),
      source.scrollback.maximumLineCount = screen.scrollback.maximumLineCount →
      source.scrollback.maximumByteCount = screen.scrollback.maximumByteCount →
      IsOutputOf (oldRows ++ screen.listCellRows) columnCount backgroundStyle reflowOutput outRows →
      ∃ newScreen newRows,
        source.applyReflowOutput rowCount columnCount reflowOutput screen.scrollback.retainedLines.length =
          some newScreen ∧
        screen.IsReflowed newScreen columnCount newRows ∧
        listLogicalLines backgroundStyle (newRows ++ newScreen.listCellRows) =
          listLogicalLines backgroundStyle (oldRows ++ screen.listCellRows) ∧
        KeepsMarks (oldRows ++ screen.listCellRows) (newRows ++ newScreen.listCellRows) := by
    intro source reflowOutput outRows hlineCap hbyteCap houtput
    obtain ⟨newScreen, newRows, happlied, hreflowed, hsame⟩ := source.applyReflowOutput_spec rowCount hmax
      houtput.rewrappedRows houtput.valid screen.scrollback.retainedLines.length
    rw [houtput.style] at hsame
    refine ⟨newScreen, newRows, happlied, ⟨hreflowed.history, ?_, hreflowed.proper, hreflowed.width⟩,
      hsame.lines.trans houtput.lines, houtput.marks.congr hsame⟩
    rw [← hlineCap, ← hbyteCap]
    exact hreflowed.fits
  obtain ⟨result, hkeep, hkept⟩ := @isOutputOf_keepPrimaryRows _ _ columnCount backgroundStyle hhistory hproper hwidth
  rw [reflowPrimary, hkeep]
  cases result with
  | some reflowOutput =>
    obtain ⟨outRows, houtput⟩ := hkept reflowOutput rfl
    exact happly screen reflowOutput outRows rfl rfl houtput
  | none =>
    obtain ⟨reflowOutput, outRows, hrewrap, houtput⟩ := @isOutputOf_rewrapPrimaryRows _ _ _ backgroundStyle hhistory
      hproper hcols
    obtain ⟨newScreen, newRows, happlied, hrest⟩ := happly
      { screen with scrollback := screen.scrollback.takeRetainedLines.2 } reflowOutput outRows rfl rfl houtput
    refine ⟨newScreen, newRows, ?_, hrest⟩
    simp only [bind_eq_bind, bind_some, hrewrap]
    exact happlied

end

/-- A soft-ended row in history and the end of its line on the screen, at another width. -/
theorem reflowPrimary_keeps_lines_wrappedScreen :
    ∃ newScreen newRows, wrappedScreen.reflowPrimary 1 3 .default = some newScreen ∧
      wrappedScreen.IsReflowed newScreen 3 newRows ∧
      listLogicalLines .default (newRows ++ newScreen.listCellRows) =
        [['a', 'b', 'c'].map fun character => .fromCharacter character 1 .default] := by
  have hhistory : wrappedScreen.HoldsHistory [buildNarrowRow ['a', 'b'] .soft] :=
    ⟨by decide +kernel, by simpa using isProper_buildNarrowRow (by decide) .soft⟩
  have hproper : ∀ row ∈ wrappedScreen.listCellRows, row.IsProper := by
    intro row hrow
    obtain rfl : row = buildNarrowRow ['c', ' '] .hard := mem_singleton.1 hrow
    exact isProper_buildNarrowRow (by decide) .hard
  obtain ⟨newScreen, newRows, hreflow, hreflowed, hlines, -⟩ := @reflowPrimary_keeps_lines wrappedScreen _ 3 .default
    hhistory hproper (by decide) (by decide) (by decide) 1
  exact ⟨newScreen, newRows, hreflow, hreflowed, hlines.trans (by decide +kernel)⟩

end PrimaryScreen

end Koshi.Terminal
