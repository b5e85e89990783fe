import Mathlib.Tactic
import Koshi.Base.Loop
import Koshi.Terminal.Grid
import Koshi.Terminal.Proof.RowDecode
import Koshi.Terminal.Proof.RowPadding

/-!
# Grid rows keep their facts

What a row records beside its cells stays true over every operation of the grid: where its blanks start, that a plain
row is plain, how wide it is, and that a snapshot it keeps is the one a fresh encoding gives.
-/

namespace Koshi.Terminal

open Base List Option GridRow

variable {style : Style} {cells : List Cell}

/-! ### Plain rows encode like any other -/

structure Cell.IsPlain (style : Style) (cell : Cell) : Prop where
  style_eq : cell.style = style
  ascii : isAscii cell.character = true
  width : cell.displayWidth = 1
  tail : cell.combining = none

theorem Cell.IsPlain.isPlainAsciiCell {c : Cell} (h : c.IsPlain style) : IsPlainAsciiCell c := by
  refine ⟨h.ascii, ?_⟩
  simp [isPlainNarrowCell, listEncodedCombiningCharacters, hasImagePlaceholder, listCombiningCharacters,
    h.width, h.tail]

theorem Cell.isPlain_blank (style : Style) : (Cell.buildBlankWithStyle style).IsPlain style := ⟨rfl, rfl, rfl, rfl⟩

theorem listImageCells_plain (hpl : ∀ c ∈ cells, c.IsPlain style) (col : Nat) : listImageCells col cells = [] := by
  induction cells generalizing col with
  | nil => rfl
  | cons c cells ih =>
    have ih := ih (fun other h => hpl other (mem_cons_of_mem _ h)) (col + 1)
    simp only [listImageCells, zipIdx_cons, filterMap_cons, Cell.getImageCellExtra,
      (hpl c (by simp)).tail, filter_none, map_none] at ih ⊢
    exact ih

theorem fromPaddedRowCells_plain (hpl : ∀ c ∈ cells, c.IsPlain style) (columnCount : Nat) (metadata : RowMetadata) :
    RowSnapshot.fromPaddedRowCells cells columnCount (some style) metadata =
      RowSnapshot.fromPaddedRowCells cells columnCount none metadata := by
  have hct : IsPlainRow style (cells.take (countRowContentCells cells)) := fun c h =>
    ⟨(hpl c (mem_of_mem_take h)).style_eq, (hpl c (mem_of_mem_take h)).isPlainAsciiCell⟩
  simp only [RowSnapshot.fromPaddedRowCells, encodeRowCellsWithBuffers, isSome_some, isSome_none,
    if_true, Bool.false_eq_true, if_false]
  rw [encodeRuns_plain hct, listImageCells_plain hpl]
  rfl

/-! ### One row -/

structure GridRow.Facts (columnCount : Nat) (row : GridRow) : Prop where
  width : row.cells.length = columnCount
  written : row.writtenCellCount ≤ columnCount
  blank : ∀ cell ∈ row.cells.drop row.writtenCellCount, cell = .buildBlankWithStyle row.blankFillStyle
  plain : ∀ style, row.plainRowStyle = some style → ∀ cell ∈ row.cells, cell.IsPlain style
  snapshot : ∀ snapshot, row.publishedRowSnapshot = some snapshot → snapshot = .fromRowCells row.cells row.rowMetadata

namespace GridRow

theorem facts_fromBlank (columnCount : Nat) (fill : Style) : (fromBlank columnCount fill).Facts columnCount where
  width := length_replicate ..
  written := Nat.zero_le _
  blank c hce := eq_of_mem_replicate (mem_of_mem_drop hce)
  plain style hstyle c hce := by
    obtain rfl := Option.some.inj hstyle
    rw [eq_of_mem_replicate hce]
    exact Cell.isPlain_blank fill
  snapshot := by simp [fromBlank]

theorem facts_fromCells (cells : List Cell) (metadata : RowMetadata) :
    (fromCells cells metadata).Facts cells.length where
  width := rfl
  written := le_refl _
  blank := by simp [fromCells]
  plain := by simp [fromCells]
  snapshot := by simp [fromCells]

section

variable {columnCount : Nat} {row : GridRow}

variable {start : Nat}

theorem Facts.getCellsMut {ec : Nat} {changed : List Cell → List Cell} (h : row.Facts columnCount) (hle : start ≤ ec)
    (hen : ec ≤ columnCount) (hchg : ∀ slice, slice.length = ec - start → (changed slice).length = ec - start) :
    (row.getCellsMut start ec changed).Facts columnCount := by
  have hwt : max row.writtenCellCount ec ≤ columnCount := Nat.max_le.2 ⟨h.written, hen⟩
  have hen : ec ≤ row.cells.length := hen.trans h.width.ge
  have hslice := @length_sliceRange _ row.cells start ec hen
  have hlen : (changed (sliceRange row.cells start ec)).length =
      (sliceRange row.cells start ec).length := (hchg _ hslice).trans hslice.symm
  refine ⟨(length_updateRange hle hen hlen).trans h.width, hwt, ?_, by simp [GridRow.getCellsMut],
    by simp [GridRow.getCellsMut]⟩
  intro c hce
  simp only [GridRow.getCellsMut] at hce ⊢
  rw [drop_updateRange hle hen hlen (Nat.le_max_right ..)] at hce
  refine h.blank c ?_
  rw [← Nat.add_sub_cancel' (Nat.le_max_left row.writtenCellCount ec), ← drop_drop] at hce
  exact mem_of_mem_drop hce

variable {plainRowStyle : Option Style}

section

variable (h : row.Facts columnCount)

include h

theorem Facts.recordPlain (hsnap : row.publishedRowSnapshot = none)
    (hpl : ∀ style, plainRowStyle = some style → ∀ c ∈ row.cells, c.IsPlain style) :
    { row with plainRowStyle }.Facts columnCount :=
  ⟨h.width, h.written, h.blank, hpl, by simp [hsnap]⟩

theorem Facts.getRowMetadataMut (changed : RowMetadata → RowMetadata) :
    (row.getRowMetadataMut changed).Facts columnCount :=
  ⟨h.width, h.written, h.blank, h.plain, by simp [GridRow.getRowMetadataMut]⟩

/-- A row that records `style` after a change over a span: the row was plain in it, or the span is the row. -/
theorem Facts.isPlain_of_record {style : Style} {ec : Nat} (changed : List Cell → List Cell)
    (hrec : row.plainRowStyle = some style ∨ (start = 0 ∧ ec = row.cells.length))
    (hchg : ∀ slice, ∀ c ∈ changed slice, c.IsPlain style) :
    ∀ c ∈ updateRange row.cells start ec changed, c.IsPlain style := by
  intro c hce
  rcases hrec with hpl | ⟨rfl, rfl⟩
  · rcases mem_updateRange hce with hce | hce
    · exact hchg _ c hce
    · exact h.plain style hpl c hce
  · rw [updateRange, take_zero, nil_append, drop_length, append_nil] at hce
    exact hchg _ c hce

theorem Facts.writeAsciiCells {fst : Nat} {asciiBytes : List UInt8} (hen : fst + asciiBytes.length ≤ columnCount)
    (hascii : ∀ asciiByte ∈ asciiBytes, isAsciiByte asciiByte)
    (style : Style) : (row.writeAsciiCells fst asciiBytes style).Facts columnCount := by
  refine Facts.recordPlain (h.getCellsMut (Nat.le_add_right ..) hen (by simp)) rfl ?_
  intro recorded hrecorded
  split_ifs at hrecorded with hrec
  obtain rfl := Option.some.inj hrecorded
  refine h.isPlain_of_record (fun _ => asciiBytes.map fun asciiByte => .fromCharacter
    (Char.ofNat asciiByte.toNat) 1 style)
    hrec fun _ c hce => ?_
  obtain ⟨asciiByte, hb, rfl⟩ := List.mem_map.1 hce
  exact ⟨rfl, (isAscii_ofNat (hascii asciiByte hb)).1, rfl, rfl⟩

/-- A span that reaches the row's end: the blanks already there need no rewriting when they are in the fill style. -/
theorem Facts.fillToEnd {rowEnd writtenCellCount : Nat} {fill : Style} (hst : start ≤ columnCount)
    (hrw : fill = row.blankFillStyle ∧ rowEnd = max row.writtenCellCount start ∧
        writtenCellCount = min row.writtenCellCount start ∨
      rowEnd = row.cells.length ∧ writtenCellCount = start)
    (hrec : ∀ style, plainRowStyle = some style → fill = style ∧ (row.plainRowStyle = some fill ∨ start = 0)) :
    ({ row with
        publishedRowSnapshot := none
        plainRowStyle
        cells := fillRange row.cells start rowEnd (.buildBlankWithStyle fill)
        writtenCellCount
        blankFillStyle := fill } : GridRow).Facts columnCount := by
  have hwd := h.width
  have hwt := h.written
  have hle : start ≤ rowEnd := by omega
  have hen : rowEnd ≤ row.cells.length := by omega
  have hblk : ∀ index, writtenCellCount ≤ index → ∀ c,
      (fillRange row.cells start rowEnd (.buildBlankWithStyle fill))[index]? = some c →
        c = .buildBlankWithStyle fill := by
    intro index hidx c hce
    rw [getElem?_fillRange hle hen] at hce
    split_ifs at hce with hins
    · exact (Option.some.inj hce).symm
    · rcases hrw with ⟨rfl, rfl, rfl⟩ | ⟨rfl, rfl⟩
      · exact h.blank c (mem_drop_iff.2 ⟨index, by omega, hce⟩)
      · rw [List.getElem?_eq_none (by omega)] at hce
        cases hce
  refine ⟨(length_fillRange hle hen).trans hwd, show writtenCellCount ≤ columnCount by omega, ?_, ?_, by simp⟩
  · intro c hce
    obtain ⟨index, hidx, hce⟩ := mem_drop_iff.1 hce
    exact hblk index hidx c hce
  · intro style hstyle c hce
    obtain ⟨rfl, hpl | rfl⟩ := hrec style hstyle
    · rcases mem_fillRange hce with rfl | hce
      · exact Cell.isPlain_blank fill
      · exact h.plain fill hpl c hce
    · obtain ⟨index, hidx⟩ := mem_iff_getElem?.1 hce
      rw [hblk index (by omega) c hidx]
      exact Cell.isPlain_blank fill

theorem Facts.fillWithBlank {ec : Nat} (hle : start ≤ ec) (hen : ec ≤ columnCount) (fill : Style) :
    (row.fillWithBlank start ec fill).Facts columnCount := by
  have hblk : ∀ slice : List Cell, ∀ c ∈ List.replicate slice.length (Cell.buildBlankWithStyle fill),
      c.IsPlain fill := by
    intro slice c hce
    rw [eq_of_mem_replicate hce]
    exact Cell.isPlain_blank fill
  simp only [GridRow.fillWithBlank]
  have hrecorded : ∀ style, (if row.plainRowStyle = some fill ∨ start = 0 ∧ ec = row.cells.length then
      some fill else none) = some style →
      fill = style ∧ (row.plainRowStyle = some fill ∨ start = 0 ∧ ec = row.cells.length) := by
    intro style hstyle
    split_ifs at hstyle with hrec
    exact ⟨Option.some.inj hstyle, hrec⟩
  by_cases hins : ec < row.cells.length
  · rw [if_pos hins]
    refine Facts.recordPlain (h.getCellsMut hle hen (by simp)) rfl fun style hstyle => ?_
    obtain ⟨rfl, hrec⟩ := hrecorded style hstyle
    exact h.isPlain_of_record (fun slice => List.replicate slice.length (.buildBlankWithStyle fill)) hrec hblk
  · rw [if_neg hins]
    have hrec : ∀ style, _ → _ := fun style hstyle =>
      (hrecorded style hstyle).imp_right fun hrec => hrec.imp_right fun hwhole => hwhole.1
    by_cases hstyle : fill = row.blankFillStyle
    · rw [if_pos hstyle]
      exact h.fillToEnd (hle.trans hen) (Or.inl ⟨hstyle, rfl, rfl⟩) hrec
    · rw [if_neg hstyle]
      exact h.fillToEnd (hle.trans hen) (Or.inr ⟨rfl, rfl⟩) hrec

end

theorem publishedRowSnapshot_fillWithBlank (start ec : Nat) (fill : Style) :
    (row.fillWithBlank start ec fill).publishedRowSnapshot = none := by
  simp only [fillWithBlank]
  split_ifs <;> rfl

section

variable (h : row.Facts columnCount)

include h

theorem Facts.resetToBlank (fill : Style) : (row.resetToBlank fill).Facts columnCount := by
  have hfilled := h.fillWithBlank (Nat.zero_le row.cells.length) h.width.le fill
  refine ⟨hfilled.width, hfilled.written, hfilled.blank, hfilled.plain, ?_⟩
  simp [GridRow.resetToBlank, publishedRowSnapshot_fillWithBlank]

theorem Facts.encodeRowSnapshot_eq : row.encodeRowSnapshot = .fromRowCells row.cells row.rowMetadata := by
  unfold encodeRowSnapshot RowSnapshot.fromRowCells
  cases hpl : row.plainRowStyle with
  | none => rfl
  | some style => exact fromPaddedRowCells_plain (h.plain style hpl) ..

theorem Facts.getRowSnapshot_eq : row.getRowSnapshot.1 = .fromRowCells row.cells row.rowMetadata := by
  unfold getRowSnapshot
  cases hpub : row.publishedRowSnapshot with
  | none => exact h.encodeRowSnapshot_eq
  | some snapshot => exact h.snapshot snapshot hpub

theorem Facts.getRowSnapshot : row.getRowSnapshot.2.Facts columnCount := by
  refine ⟨h.width, h.written, h.blank, h.plain, fun snapshot hsnap => ?_⟩
  exact (Option.some.inj hsnap).symm.trans h.getRowSnapshot_eq

theorem Facts.takeRowSnapshot : row.takeRowSnapshot.2.Facts columnCount :=
  ⟨h.width, h.written, h.blank, h.plain, by simp [GridRow.takeRowSnapshot]⟩

end

end

end GridRow

/-! ### The grid -/

/-- Every row keeps its facts. -/
def Grid.Facts (columnCount : Nat) (grid : Grid) : Prop := ∀ row ∈ grid.rows, row.Facts columnCount

namespace Grid

theorem facts_buildBlank (rowCount columnCount : Nat) (fill : Style) :
    (buildBlank rowCount columnCount fill).Facts columnCount := by
  intro row hro
  rw [eq_of_mem_replicate hro]
  exact facts_fromBlank columnCount fill

theorem length_resizeCells (rowCells : List Cell) (columnCount : Nat) (blankCell : Cell) :
    (resizeCells rowCells columnCount blankCell).length = columnCount := by
  rw [resizeCells, length_append, length_take, length_replicate]
  omega

theorem facts_fromRowsWithMetadata (rowCells : List (List Cell × RowMetadata)) (columnCount : Nat) (fill : Style) :
    (fromRowsWithMetadata rowCells columnCount fill).Facts columnCount := by
  intro row hro
  obtain ⟨⟨cells, metadata⟩, -, rfl⟩ := List.mem_map.1 hro
  have hro := facts_fromCells (resizeCells cells columnCount (.buildBlankWithStyle fill)) metadata
  rwa [length_resizeCells] at hro

section

variable {columnCount : Nat} {grid : Grid}

variable {band : List GridRow}

section

variable (h : grid.Facts columnCount)

include h

theorem Facts.columnCount_le : grid.getGridDimensions.2 ≤ columnCount := by
  unfold getGridDimensions
  cases hrows : grid.rows with
  | nil => exact Nat.zero_le _
  | cons row rows =>
    have hwd := (h row (by simp [hrows])).width
    simp only [List.head?_cons, map_some, getD_some, hwd]
    exact Nat.mod_le ..

theorem Facts.setRowEnd (index : Nat) (rowEnd : RowEnd) : (grid.setRowEnd index rowEnd).Facts columnCount := by
  refine forall_mem_modify h fun row hro => ?_
  split_ifs
  · exact hro.getRowMetadataMut _
  · exact hro

theorem Facts.setPromptMark (index : Nat) (hasPromptMark : Bool) :
    (grid.setPromptMark index hasPromptMark).Facts columnCount := by
  refine forall_mem_modify h fun row hro => ?_
  split_ifs
  · exact hro.getRowMetadataMut _
  · exact hro

theorem Facts.getCellMut (index col : Nat) (changed : Cell → Cell) :
    (grid.getCellMut index col changed).Facts columnCount := by
  refine forall_mem_modify h fun row hro => ?_
  split_ifs with hidx
  · exact hro
  · have hwd := hro.width
    exact hro.getCellsMut (Nat.le_succ _) (by omega) (by simp)

theorem Facts.getRowSnapshot (index : Nat) : (grid.getRowSnapshot index).2.Facts columnCount :=
  forall_mem_modify h fun _ hro => hro.getRowSnapshot

theorem Facts.listRowSnapshots : grid.listRowSnapshots.2.Facts columnCount := by
  intro row hro
  obtain ⟨src, hsr, rfl⟩ := List.mem_map.1 hro
  exact (h src hsr).getRowSnapshot

theorem Facts.takeRowSnapshot (index : Nat) : (grid.takeRowSnapshot index).2.Facts columnCount :=
  forall_mem_modify h fun _ hro => hro.takeRowSnapshot

theorem Facts.writeAsciiCells {asciiBytes : List UInt8} (index fst : Nat)
    (hascii : ∀ asciiByte ∈ asciiBytes, isAsciiByte asciiByte) (style : Style) :
    (grid.writeAsciiCells index fst asciiBytes style).Facts columnCount := by
  refine forall_mem_modify h fun row hro => ?_
  dsimp only
  split_ifs with hnone
  · exact hro
  · have hwd := hro.width
    refine hro.writeAsciiCells ?_ (fun asciiByte hb => hascii asciiByte (mem_of_mem_take hb)) style
    rw [length_take]
    omega

theorem Facts.clearWideGlyphAt (index col : Nat) (fill : Style) :
    (grid.clearWideGlyphAt index col fill).Facts columnCount := by
  unfold Grid.clearWideGlyphAt
  dsimp only
  split
  · exact h.getCellMut _ _ _
  · exact h

theorem Facts.clearLine (index fst last : Nat) (fill : Style) :
    (grid.clearLine index fst last fill).Facts columnCount := by
  have hcleared : (⟨grid.rows.modify index fun row =>
      if fst < min last row.cells.length then
        row.fillWithBlank fst (min last row.cells.length) fill
      else row⟩ : Grid).Facts columnCount := by
    refine forall_mem_modify h fun row hro => ?_
    split_ifs with hspan
    · exact hro.fillWithBlank hspan.le ((Nat.min_le_right ..).trans hro.width.le) fill
    · exact hro
  unfold Grid.clearLine
  dsimp only
  split_ifs
  · exact hcleared.setRowEnd _ _
  · exact hcleared

theorem Facts.updateCellsInColumns {changed : Nat → List Cell → List Cell} (index fst last : Nat)
    (hchg : ∀ span slice, slice.length = span → (changed span slice).length = span) :
    (grid.updateCellsInColumns index fst last changed).Facts columnCount := by
  unfold Grid.updateCellsInColumns
  cases hro : grid.rows[index]? with
  | none => exact h
  | some row =>
    have hwd := (h row (mem_of_getElem? hro)).width
    dsimp only
    split_ifs with hspan
    · exact h
    · refine Facts.setRowEnd (forall_mem_modify h fun other ho => ?_) _ _
      exact ho.getCellsMut (by omega) (by omega) (hchg _)

theorem Facts.insertCellsInColumns (index fst last insertedCells : Nat) (fill : Style) :
    (grid.insertCellsInColumns index fst last insertedCells fill).Facts columnCount := by
  refine h.updateCellsInColumns _ _ _ fun span slice hslice => ?_
  have hrotated : (rotateRight slice (min span insertedCells)).length = span := by
    rw [rotateRight, length_rotate, hslice]
  dsimp only
  rw [length_fillRange (Nat.zero_le _) (by omega), hrotated]

theorem Facts.deleteCellsInColumns (index fst last deletedCells : Nat) (fill : Style) :
    (grid.deleteCellsInColumns index fst last deletedCells fill).Facts columnCount := by
  refine h.updateCellsInColumns _ _ _ fun span slice hslice => ?_
  dsimp only
  rw [length_fillRange (Nat.sub_le ..) (by rw [length_rotate]; omega), length_rotate, hslice]

theorem facts_updateRange {changed : List GridRow → List GridRow} {startRow endRowIndex : Nat}
    (hchg : ∀ band, (∀ row ∈ band, row.Facts columnCount) → ∀ row ∈ changed band, row.Facts columnCount) :
    (⟨updateRange grid.rows startRow endRowIndex changed⟩ : Grid).Facts columnCount :=
  forall_mem_updateRange h hchg

end

theorem facts_swapCells (h : ∀ row ∈ band, row.Facts columnCount) {start ec : Nat} (hle : start ≤ ec)
    (hen : ec ≤ columnCount) (i₀ secondIndex : Nat) :
    ∀ row ∈ swapCells start ec band i₀ secondIndex, row.Facts columnCount := by
  unfold swapCells
  split
  · next fstRow secondRow hf hse =>
    have hf := h fstRow (mem_of_getElem? hf)
    have hse := h secondRow (mem_of_getElem? hse)
    refine forall_mem_set (forall_mem_set h ?_) ?_
    · exact hf.getCellsMut hle hen fun _ _ => length_sliceRange (hen.trans hse.width.ge)
    · exact hse.getCellsMut hle hen fun _ _ => length_sliceRange (hen.trans hf.width.ge)
  · exact h

theorem facts_map_vacateCells (h : ∀ row ∈ band, row.Facts columnCount) {start ec : Nat} (hle : start ≤ ec)
    (hen : ec ≤ columnCount) (fill : Style) :
    ∀ row ∈ band.map (vacateCells start ec fill), row.Facts columnCount := by
  intro row hro
  obtain ⟨src, hsr, rfl⟩ := List.mem_map.1 hro
  exact (h src hsr).getCellsMut hle hen (by simp)

theorem Facts.shiftLinesInColumns {shift : Nat → Nat → Nat → List GridRow → List GridRow} (h : grid.Facts columnCount)
    (startRow lastRow shiftRowCount fst last : Nat)
    (hshift : ∀ start ec shiftedRowCount, start ≤ ec → ec ≤ columnCount →
      ∀ band, (∀ row ∈ band, row.Facts columnCount) →
        ∀ row ∈ shift start ec shiftedRowCount band, row.Facts columnCount) :
    (grid.shiftLinesInColumns startRow lastRow shiftRowCount fst last shift).Facts
      columnCount := by
  have hco := h.columnCount_le
  unfold Grid.shiftLinesInColumns
  dsimp only
  split_ifs with hbounds hspan hc
  · exact h
  · exact h
  · exact h
  · exact forall_mem_updateRange h (hshift _ _ _ (by omega) (by omega))

theorem Facts.deleteLinesInColumns (h : grid.Facts columnCount) (startRow lastRow deleted fst last : Nat)
    (fill : Style) :
    (grid.deleteLinesInColumns startRow lastRow deleted fst last fill).Facts columnCount := by
  refine h.shiftLinesInColumns _ _ _ _ _ fun start ec removedRowCount hle hen band hband => ?_
  refine forall_mem_updateRange ?_ fun slice hslice => facts_map_vacateCells hslice hle hen fill
  exact foldl_keeps (fun rows : List GridRow => ∀ row ∈ rows, row.Facts columnCount) hband
    fun rows hrows sourceRowIndex _ => facts_swapCells hrows hle hen _ _

theorem Facts.insertLinesInColumns (h : grid.Facts columnCount) (startRow lastRow inserted fst last : Nat)
    (fill : Style) :
    (grid.insertLinesInColumns startRow lastRow inserted fst last fill).Facts columnCount := by
  refine h.shiftLinesInColumns _ _ _ _ _ fun start ec insertedRowCount hle hen band hband => ?_
  refine forall_mem_updateRange ?_ fun slice hslice => facts_map_vacateCells hslice hle hen fill
  exact foldl_keeps (fun rows : List GridRow => ∀ row ∈ rows, row.Facts columnCount) hband
    fun rows hrows destinationRowIndex _ => facts_swapCells hrows hle hen _ _

theorem facts_map_resetToBlank (h : ∀ row ∈ band, row.Facts columnCount)
    (fill : Style) : ∀ row ∈ band.map (·.resetToBlank fill), row.Facts columnCount := by
  intro row hro
  obtain ⟨src, hsr, rfl⟩ := List.mem_map.1 hro
  exact (h src hsr).resetToBlank fill

theorem Facts.deleteLines (h : grid.Facts columnCount) (startRow lastRow deleted : Nat)
    (fill : Style) : (grid.deleteLines startRow lastRow deleted fill).Facts columnCount := by
  have hshifted : (⟨updateRange grid.rows startRow (lastRow + 1) fun band =>
      updateRange (band.rotate (min deleted (lastRow - startRow + 1)))
        (band.length - min deleted (lastRow - startRow + 1)) band.length
        (·.map (·.resetToBlank fill))⟩ : Grid).Facts columnCount := by
    refine facts_updateRange h fun band hband => ?_
    refine forall_mem_updateRange (fun row hro => hband row (mem_rotate.1 hro)) fun slice hslice => ?_
    exact facts_map_resetToBlank hslice fill
  unfold Grid.deleteLines
  dsimp only
  split_ifs
  · exact h
  · exact (hshifted.setRowEnd _ _).setRowEnd _ _
  · exact hshifted.setRowEnd _ _
  · exact hshifted.setRowEnd _ _
  · exact hshifted
  · exact hshifted

theorem Facts.insertLines (h : grid.Facts columnCount) (startRow lastRow inserted : Nat)
    (fill : Style) : (grid.insertLines startRow lastRow inserted fill).Facts columnCount := by
  have hshifted : (⟨updateRange grid.rows startRow (lastRow + 1) fun band =>
      updateRange (rotateRight band (min inserted (lastRow - startRow + 1))) 0
        (min inserted (lastRow - startRow + 1)) (·.map (·.resetToBlank fill))⟩ : Grid).Facts
      columnCount := by
    refine facts_updateRange h fun band hband => ?_
    refine forall_mem_updateRange (fun row hro => hband row (mem_rotate.1 hro)) fun slice hslice => ?_
    exact facts_map_resetToBlank hslice fill
  unfold Grid.insertLines
  dsimp only
  split_ifs
  · exact h
  · exact (hshifted.setRowEnd _ _).setRowEnd _ _
  · exact hshifted.setRowEnd _ _
  · exact hshifted

end

/-! ### Every sequence of operations -/

/-- A change of a grid. `getCellMut` stands for any write through a cell reference, `resize` for the grid a resize puts
in its place. -/
inductive Operation where
  | setRowEnd (rowIndex : Nat) (rowEnd : RowEnd)
  | setPromptMark (rowIndex : Nat) (hasPromptMark : Bool)
  | getCellMut (rowIndex column : Nat) (change : Cell → Cell)
  | getRowSnapshot (rowIndex : Nat)
  | listRowSnapshots
  | takeRowSnapshot (rowIndex : Nat)
  | writeAsciiCells (rowIndex first : Nat) (asciiBytes : List UInt8)
      (ascii : ∀ asciiByte ∈ asciiBytes, isAsciiByte asciiByte) (style : Style)
  | clearWideGlyphAt (rowIndex column : Nat) (fill : Style)
  | clearLine (rowIndex first lastColumnIndexExclusive : Nat) (fill : Style)
  | insertCellsInColumns (rowIndex first last inserted' : Nat) (fill : Style)
  | deleteCellsInColumns (rowIndex first last deleted' : Nat) (fill : Style)
  | deleteLinesInColumns (firstRow lastRow rowCount' first last : Nat) (fill : Style)
  | insertLinesInColumns (firstRow lastRow rowCount first last : Nat) (fill : Style)
  | deleteLines (firstRow lastRow rowCount' : Nat) (fill : Style)
  | insertLines (firstRow lastRow rowCount : Nat) (fill : Style)
  | resize (rowCells : List (List Cell × RowMetadata)) (columnCount : UInt16) (fill : Style)

def applyOperation (grid : Grid) : Operation → Grid
  | .setRowEnd rowIndex rowEnd => grid.setRowEnd rowIndex rowEnd
  | .setPromptMark rowIndex hasPromptMark => grid.setPromptMark rowIndex hasPromptMark
  | .getCellMut rowIndex column change => grid.getCellMut rowIndex column change
  | .getRowSnapshot rowIndex => (grid.getRowSnapshot rowIndex).2
  | .listRowSnapshots => grid.listRowSnapshots.2
  | .takeRowSnapshot rowIndex => (grid.takeRowSnapshot rowIndex).2
  | .writeAsciiCells rowIndex first asciiBytes _ style =>
    grid.writeAsciiCells rowIndex first asciiBytes style
  | .clearWideGlyphAt rowIndex column fill => grid.clearWideGlyphAt rowIndex column fill
  | .clearLine rowIndex first lastColumnIndexExclusive fill =>
    grid.clearLine rowIndex first lastColumnIndexExclusive fill
  | .insertCellsInColumns rowIndex first last inserted' fill =>
    grid.insertCellsInColumns rowIndex first last inserted' fill
  | .deleteCellsInColumns rowIndex first last deleted' fill =>
    grid.deleteCellsInColumns rowIndex first last deleted' fill
  | .deleteLinesInColumns firstRow lastRow rowCount' first last fill =>
    grid.deleteLinesInColumns firstRow lastRow rowCount' first last fill
  | .insertLinesInColumns firstRow lastRow rowCount first last fill =>
    grid.insertLinesInColumns firstRow lastRow rowCount first last fill
  | .deleteLines firstRow lastRow rowCount' fill =>
    grid.deleteLines firstRow lastRow rowCount' fill
  | .insertLines firstRow lastRow rowCount fill =>
    grid.insertLines firstRow lastRow rowCount fill
  | .resize rowCells columnCount fill => fromRowsWithMetadata rowCells columnCount.toNat fill

/-- Facts of a grid with a `u16` column count. -/
def KeepsFacts (grid : Grid) : Prop := ∃ columnCount : UInt16, grid.Facts columnCount.toNat

theorem KeepsFacts.applyOperation {grid : Grid} (h : grid.KeepsFacts) (op : Operation) :
    (grid.applyOperation op).KeepsFacts := by
  obtain ⟨columnCount, h⟩ := h
  cases op with
  | resize rowCells columnCount fill => exact ⟨columnCount, facts_fromRowsWithMetadata rowCells _ fill⟩
  | setRowEnd => exact ⟨columnCount, h.setRowEnd _ _⟩
  | setPromptMark => exact ⟨columnCount, h.setPromptMark _ _⟩
  | getCellMut => exact ⟨columnCount, h.getCellMut _ _ _⟩
  | getRowSnapshot => exact ⟨columnCount, h.getRowSnapshot _⟩
  | listRowSnapshots => exact ⟨columnCount, h.listRowSnapshots⟩
  | takeRowSnapshot => exact ⟨columnCount, h.takeRowSnapshot _⟩
  | writeAsciiCells _ _ _ ascii => exact ⟨columnCount, h.writeAsciiCells _ _ ascii _⟩
  | clearWideGlyphAt => exact ⟨columnCount, h.clearWideGlyphAt _ _ _⟩
  | clearLine => exact ⟨columnCount, h.clearLine _ _ _ _⟩
  | insertCellsInColumns => exact ⟨columnCount, h.insertCellsInColumns _ _ _ _ _⟩
  | deleteCellsInColumns => exact ⟨columnCount, h.deleteCellsInColumns _ _ _ _ _⟩
  | deleteLinesInColumns => exact ⟨columnCount, h.deleteLinesInColumns _ _ _ _ _ _⟩
  | insertLinesInColumns => exact ⟨columnCount, h.insertLinesInColumns _ _ _ _ _ _⟩
  | deleteLines => exact ⟨columnCount, h.deleteLines _ _ _ _⟩
  | insertLines => exact ⟨columnCount, h.insertLines _ _ _ _⟩

theorem width_eq_getGridDimensions {grid : Grid} {columnCount : UInt16} (h : grid.Facts columnCount.toNat)
    {row : GridRow} (hro : row ∈ grid.rows) : row.cells.length = grid.getGridDimensions.2 := by
  rw [(h row hro).width, getGridDimensions]
  cases hrows : grid.rows with
  | nil => simp [hrows] at hro
  | cons fstRow rows =>
    simp only [List.head?_cons, map_some, getD_some, (h fstRow (by simp [hrows])).width]
    exact (asU16_of_le (Nat.le_of_lt_succ columnCount.toNat_lt)).symm

/-- **Rows keep their facts.** After any sequence of operations on a blank grid, every row is as wide as the grid,
blank in its fill style past its written cells, plain in the style it records, and a snapshot it keeps is the general
encoding of its cells and metadata. -/
theorem rows_keep_facts (rowCount columnCount : UInt16) (fillStyle : Style) (operations : List Operation) :
    ∀ row ∈ (operations.foldl applyOperation (buildBlank rowCount.toNat columnCount.toNat fillStyle)).rows,
      (∀ cell ∈ row.cells.drop row.writtenCellCount, cell = .buildBlankWithStyle row.blankFillStyle) ∧
      (∀ style, row.plainRowStyle = some style → ∀ cell ∈ row.cells.take row.writtenCellCount, cell.IsPlain style) ∧
      row.cells.length =
        (operations.foldl applyOperation (buildBlank rowCount.toNat columnCount.toNat fillStyle)).getGridDimensions.2 ∧
      ∀ snapshot, row.publishedRowSnapshot = some snapshot → snapshot = .fromRowCells row.cells row.rowMetadata := by
  obtain ⟨columnCount, hfacts⟩ := @foldl_keeps _ _ KeepsFacts applyOperation operations _
    ⟨columnCount, facts_buildBlank rowCount.toNat columnCount.toNat fillStyle⟩
    fun grid hgrid operation _ => hgrid.applyOperation operation
  intro row hrow
  have h := hfacts row hrow
  exact ⟨h.blank, fun style hstyle cell hcell => h.plain style hstyle cell (mem_of_mem_take hcell),
    width_eq_getGridDimensions hfacts hrow, h.snapshot⟩

/-- A row of three columns, cleared and published. -/
theorem rows_keep_facts_publishedRow :
    ∃ row ∈ ([.clearLine 0 1 3 .default, .getRowSnapshot 0].foldl applyOperation (buildBlank 1 3 .default)).rows,
      row.cells.length = 3 ∧ row.publishedRowSnapshot = some (.fromRowCells row.cells row.rowMetadata) := by
  have hfacts := rows_keep_facts 1 3 .default [.clearLine 0 1 3 .default, .getRowSnapshot 0] _ mem_cons_self
  exact ⟨_, mem_cons_self, rfl, congrArg some (hfacts.2.2.2 _ rfl)⟩

end Grid

end Koshi.Terminal
