import Mathlib.Tactic
import Koshi.Terminal.Reflow
import Koshi.Terminal.Proof.RowSnapshot

/-!
# The runs of a row

A row's runs hold its content. Padding, reading the runs alone and writing the header anew all leave the content as it
is, so each of them is the encoding of the row at another width.
-/

namespace Koshi.Terminal

open Base Koshi.Core List Option RowSnapshot

variable {cells : List Cell}

/-- A cell as the terminal builds them: it encodes, and no tail is empty. -/
structure Cell.IsProper (cell : Cell) : Prop where
  encodable : cell.Encodable
  tail : cell.combining ≠ some .default

theorem Cell.IsProper.dropEmptyTail_eq {c : Cell} (h : c.IsProper) : c.dropEmptyTail = c := if_neg h.tail

theorem Cell.isProper_blank (style : Style) : (Cell.buildBlankWithStyle style).IsProper :=
  ⟨⟨Nat.le_succ 1, Nat.zero_le _⟩, by simp [buildBlankWithStyle]⟩

theorem map_dropEmptyTail (hcx : ∀ c ∈ cells, c.IsProper) : cells.map Cell.dropEmptyTail = cells :=
  (map_congr_left fun c hce => (hcx c hce).dropEmptyTail_eq).trans (List.map_id _)

theorem decodeRowCells_of_proper (hcx : ∀ c ∈ cells, c.IsProper) (hlen : cells.length ≤ u16Max)
    (metadata : RowMetadata) :
    (fromRowCells cells metadata).decodeRowCells = some cells := by
  rw [decodeRowCells_fromRowCells (fun c hce => (hcx c hce).encodable) hlen, map_dropEmptyTail hcx]

/-! ### Padding -/

theorem listImageCells_append_blanks (col : Nat) (cells : List Cell) (blankCount : Nat) :
    listImageCells col (cells ++ List.replicate blankCount .buildBlank) = listImageCells col cells := by
  induction cells generalizing col with
  | nil =>
    induction blankCount generalizing col with
    | zero => rfl
    | succ blankCount ih =>
      rw [nil_append] at ih ⊢
      rw [replicate_succ, listImageCells_cons, ih]
      rfl
  | cons c cells ih => rw [cons_append, listImageCells_cons, listImageCells_cons, ih]

theorem fromPaddedRowCells_eq {columns : Nat} (hco : cells.length ≤ columns) (metadata : RowMetadata) :
    fromPaddedRowCells cells columns none metadata =
      .fromRowCells (cells ++ List.replicate (columns - cells.length) .buildBlank) metadata := by
  have hlen : (cells ++ List.replicate (columns - cells.length) Cell.buildBlank).length = columns := by
    rw [length_append, length_replicate]
    omega
  rw [fromRowCells, hlen]
  simp only [fromPaddedRowCells, encodeRowCellsWithBuffers, isSome_none, Bool.false_eq_true, if_false,
    countContentCells_append_blanks, take_append_of_le_length (countContentCells_le cells),
    listImageCells_append_blanks]

theorem fromPaddedRowCells_take_content (cells : List Cell) (metadata : RowMetadata) :
    fromPaddedRowCells (cells.take (countRowContentCells cells)) cells.length none metadata =
      .fromRowCells cells metadata := by
  have hcontentLe := countContentCells_le cells
  have hlen : (cells.take (countRowContentCells cells)).length = countRowContentCells cells := by
    rw [length_take]
    omega
  rw [fromPaddedRowCells_eq (by omega), hlen, take_countContentCells]

/-! ### The runs alone -/

theorem decodeRowRunCellsInto_fromRowCells (hcx : ∀ c ∈ cells, c.IsProper) (hlen : cells.length ≤ u16Max)
    (metadata : RowMetadata) (lineCells : List Cell) :
    (fromRowCells cells metadata).decodeRowRunCellsInto lineCells =
      some (⟨cells.length, metadata.rowEnd, cells.length - countRowContentCells cells⟩,
        lineCells ++ cells.take (countRowContentCells cells)) := by
  have hencodable := fun c hce => (hcx c hce).encodable
  have hdecodes := (encodeRowCellsWith_written hencodable false (by simp) (le_refl cells.length) hlen
    metadata.rowEnd).decodes lineCells
  have himgs : listImageCells 0 cells = listImageCells 0 (cells.take (countRowContentCells cells)) := by
    conv_lhs => rw [← take_countContentCells cells, listImageCells_append_blanks]
  have hrestore := restoreImageCells_listImageCells [] (cells.take (countRowContentCells cells))
  rw [map_dropEmptyTail fun c hce => hcx c (mem_of_mem_take hce)] at hrestore
  simp only [nil_append, length_nil] at hrestore
  rw [RowSnapshot.decodeRowRunCellsInto]
  simp only [fromRowCells, fromPaddedRowCells, isSome_none, Bool.false_eq_true, if_false,
    decodeRowRunCellsInto, hdecodes, drop_left, take_left, himgs, hrestore]
  rfl

theorem getEncodedRowShape_of_proper (hcx : ∀ c ∈ cells, c.IsProper) (hlen : cells.length ≤ u16Max)
    (metadata : RowMetadata) :
    (fromRowCells cells metadata).getEncodedRowShape =
      some ⟨cells.length, metadata.rowEnd, cells.length - countRowContentCells cells⟩ := by
  have hencodable := fun c hce => (hcx c hce).encodable
  obtain ⟨styleAndRunBytes, hheader⟩ := (encodeRowCellsWith_written hencodable false (by simp)
    (le_refl cells.length) hlen metadata.rowEnd).header
  rw [getEncodedRowShape]
  simp only [fromRowCells, fromPaddedRowCells, isSome_none, hheader]

/-! ### The header anew -/

theorem encodeRuns_withText (isPlainRow : Bool) (ts : Nat) (cells : List Cell) (writer : RunsWriter)
    (textByteCount : Nat) :
    ∃ nextCount, encodeRuns isPlainRow ts cells { writer with textByteCount } =
      { encodeRuns isPlainRow ts cells writer with textByteCount := nextCount } := by
  induction ts generalizing cells writer textByteCount with
  | zero => exact ⟨textByteCount, rfl⟩
  | succ ts ih =>
    obtain _ | ⟨fc, fs⟩ := cells
    · exact ⟨textByteCount, rfl⟩
    · simp only [encodeRuns]
      exact ih _ ⟨_, _, _, _⟩ _

/-- The style table and the runs of a row, which do not depend on its width. -/
def writeStyleAndRunBytes (rowCells : List Cell) : List UInt8 :=
  let contentCells := rowCells.take (countRowContentCells rowCells)
  let writer := encodeRuns false contentCells.length contentCells ⟨.empty, [], 0, 0⟩
  writeVarint writer.rowStyleTable.styles.length ++ (writer.rowStyleTable.styles.flatMap writeStyleEntry ++
    (writeVarint writer.runCount ++ writer.runBytes))

theorem encodeRowCellsWith_fst (cells : List Cell) (columns : Nat) (rowEnd : RowEnd) :
    (encodeRowCellsWithBuffers cells columns false rowEnd).1 =
      writeVarint ((writeVarint columns ++ writeVarint (computeRowEndCode rowEnd) ++
          writeVarint (columns - countRowContentCells cells)).length + (writeStyleAndRunBytes cells).length) ++
        (writeVarint columns ++ writeVarint (computeRowEndCode rowEnd) ++
          writeVarint (columns - countRowContentCells cells)) ++ writeStyleAndRunBytes cells := by
  obtain ⟨nextCount, htext⟩ := encodeRuns_withText false (cells.take (countRowContentCells cells)).length
    (cells.take (countRowContentCells cells)) ⟨.empty, [], 0, 0⟩
    (if rowEnd = .hard then 0 else columns - countRowContentCells cells)
  simp only [encodeRowCellsWithBuffers, writeStyleAndRunBytes, htext, length_append, append_assoc]
  congr 2
  omega

theorem repadEncodedRow_encodeRowCellsWith (hlen : cells.length ≤ u16Max) {rowEnd : RowEnd}
    (hby : (encodeRowCellsWithBuffers cells cells.length false rowEnd).1.length < 2 ^ 64) (columns : Nat) :
    repadEncodedRow (encodeRowCellsWithBuffers cells cells.length false rowEnd).1 columns =
      .ok (if countRowContentCells cells ≥ columns then none
        else some (countRowContentCells cells, (encodeRowCellsWithBuffers cells columns false rowEnd).1)) := by
  have hcontentLe := countContentCells_le cells
  rw [encodeRowCellsWith_fst] at hby ⊢
  simp only [length_append] at hby
  have hheader := @readRowHeader_writeVarint ((writeVarint cells.length ++ writeVarint (computeRowEndCode rowEnd) ++
      writeVarint (cells.length - countRowContentCells cells)).length + (writeStyleAndRunBytes cells).length)
    _ _ rowEnd (by simp only [length_append]; omega) hlen
    (Nat.sub_le cells.length (countRowContentCells cells)) (writeStyleAndRunBytes cells)
  rw [repadEncodedRow]
  simp only [append_assoc] at hheader ⊢
  simp only [bind, Except.bind, hheader, Nat.sub_sub_self hcontentLe]
  split_ifs
  · rfl
  · rw [encodeRowCellsWith_fst]
    simp only [append_assoc]

/-- A hard-ended row at another width: its content encoded at that width, when it leaves room. -/
theorem repadHardRow_fromRowCells (hcx : ∀ c ∈ cells, c.IsProper) (hlen : cells.length ≤ u16Max)
    {metadata : RowMetadata} (hhard : metadata.rowEnd = .hard) (columns : Nat) :
    (fromRowCells cells metadata).repadHardRow columns =
      some (if countRowContentCells cells ≥ columns then none
        else some ⟨.fromPaddedRowCells (cells.take (countRowContentCells cells)) columns none metadata,
          countRowContentCells cells⟩) := by
  have hwt := encodeRowCellsWith_written (fun c hce => (hcx c hce).encodable) false (by simp)
    (le_refl cells.length) hlen .hard
  have hrepad := repadEncodedRow_encodeRowCellsWith hlen hwt.length_lt columns
  have himgs : listImageCells 0 cells = listImageCells 0 (cells.take (countRowContentCells cells)) := by
    conv_lhs => rw [← take_countContentCells cells, listImageCells_append_blanks]
  rw [repadHardRow]
  simp only [fromRowCells, fromPaddedRowCells, hhard, ne_eq, not_true_eq_false, if_false,
    isSome_none, hrepad, Bool.false_eq_true, himgs]
  split_ifs with hfull
  · simp
  · simp [encodeRowCellsWithBuffers, countContentCells_take, take_take]

end Koshi.Terminal
