import Mathlib.Tactic
import Koshi.Terminal.Proof.RowRuns

/-!
# Stored rows

A row's image cells lie in its runs, by rising column, each with image data. So nothing that reads a snapshot built
from cells can panic, and the stored form of a snapshot reads back as the snapshot.
-/

namespace Koshi.Terminal

open Base List Option RowSnapshot

variable {rowCells : List Cell}

theorem mem_listImageCells {col : Nat} {cell : RowImageCell} (h : cell ∈ listImageCells col rowCells) :
    col ≤ cell.columnIndex ∧ cell.columnIndex < col + rowCells.length ∧ cell.cellExtra.hasImageData = true := by
  simp only [listImageCells, mem_filterMap] at h
  obtain ⟨⟨c, index⟩, hce, himage⟩ := h
  obtain ⟨cellExtra, hextra, rfl⟩ := map_eq_some_iff.1 himage
  exact ⟨le_snd_of_mem_zipIdx hce, snd_lt_add_of_mem_zipIdx hce, (filter_eq_some_iff.1 hextra).2⟩

theorem columnIndex_lt_of_mem_listImageCells {cell : RowImageCell} (h : cell ∈ listImageCells 0 rowCells) :
    cell.columnIndex < countRowContentCells rowCells := by
  rw [← take_countContentCells rowCells, listImageCells_append_blanks] at h
  have hlt := (mem_listImageCells h).2.1
  rw [length_take] at hlt
  omega

theorem pairwise_listImageCells (col : Nat) (rowCells : List Cell) :
    (listImageCells col rowCells).Pairwise (·.columnIndex < ·.columnIndex) := by
  induction rowCells generalizing col with
  | nil => exact .nil
  | cons c rowCells ih =>
    rw [listImageCells_cons]
    cases c.getImageCellExtra with
    | none => exact ih _
    | some cellExtra => exact .cons (fun cell hm => (mem_listImageCells hm).1) (ih _)

theorem restoreStoredImageCells_eq {imageCells : List RowImageCell} {restoredCells : List Cell}
    {previousIndex : Option Nat} (hord : imageCells.Pairwise (·.columnIndex < ·.columnIndex))
    (hprev : ∀ previous ∈ previousIndex, ∀ cell ∈ imageCells, previous < cell.columnIndex)
    (himgs : ∀ cell ∈ imageCells, cell.cellExtra.hasImageData = true)
    (hrestore : restoreImageCells imageCells rowCells = some restoredCells) :
    restoreStoredImageCells previousIndex imageCells rowCells = .ok restoredCells := by
  induction imageCells generalizing rowCells previousIndex with
  | nil => exact congrArg Except.ok (some_inj.1 hrestore)
  | cons cell imageCells ih =>
    rw [restoreImageCells] at hrestore
    split_ifs at hrestore with hins
    have hinOrder : previousIndex.any (cell.columnIndex ≤ ·) = false := by
      cases previousIndex with
      | none => rfl
      | some previous => simpa using hprev previous rfl cell (by simp)
    have himg := himgs cell (by simp)
    obtain ⟨hf, hord⟩ := pairwise_cons.1 hord
    rw [restoreStoredImageCells, hinOrder, if_neg (by decide), if_pos hins, himg, if_neg (by decide)]
    refine ih hord ?_ (fun other ho => himgs other (mem_cons_of_mem _ ho)) hrestore
    intro previous hm
    rw [← some_inj.1 hm]
    exact hf

/-- **A snapshot built from cells keeps them**, image data included; its stored form reads back as the snapshot; its
image cells lie in its runs, and every read that would panic on other bytes gives a value. -/
theorem fromRowCells_keeps (hcells : ∀ cell ∈ rowCells, cell.IsProper) (hlength : rowCells.length ≤ u16Max)
    (rowMetadata : RowMetadata) :
    (fromRowCells rowCells rowMetadata).decodeRowCells = some rowCells ∧
      fromStoredRow (fromRowCells rowCells rowMetadata).encodedRowBytes rowMetadata
          (fromRowCells rowCells rowMetadata).imageCells = .ok (.fromRowCells rowCells rowMetadata) ∧
      (∀ imageCell ∈ (fromRowCells rowCells rowMetadata).imageCells,
        imageCell.columnIndex < countRowContentCells rowCells) ∧
      (∀ lineCells, (fromRowCells rowCells rowMetadata).decodeRowRunCellsInto lineCells =
        some (⟨rowCells.length, rowMetadata.rowEnd, rowCells.length - countRowContentCells rowCells⟩,
          lineCells ++ rowCells.take (countRowContentCells rowCells))) ∧
      (fromRowCells rowCells rowMetadata).getEncodedRowShape =
        some ⟨rowCells.length, rowMetadata.rowEnd, rowCells.length - countRowContentCells rowCells⟩ ∧
      ∀ columnCount, ((fromRowCells rowCells rowMetadata).repadHardRow columnCount).isSome := by
  have hencodable := fun cell hcell => (hcells cell hcell).encodable
  have hkeeps := decodeRowCells_of_proper hcells hlength rowMetadata
  refine ⟨hkeeps, ?_, fun imageCell => columnIndex_lt_of_mem_listImageCells,
    decodeRowRunCellsInto_fromRowCells hcells hlength rowMetadata,
    getEncodedRowShape_of_proper hcells hlength rowMetadata, fun columnCount => ?_⟩
  · have hdecode := decodeRowCells_encodeRowCellsWith hencodable false (by simp) (le_refl rowCells.length) hlength
      rowMetadata.rowEnd
    rw [Nat.sub_self, replicate_zero, append_nil] at hdecode
    have hrestore := restoreStoredImageCells_eq (pairwise_listImageCells 0 rowCells)
      (fun _ hmem => nomatch (hmem : none = some _)) (fun imageCell hmem => (mem_listImageCells hmem).2.2)
      (restoreImageCells_listImageCells [] rowCells)
    rw [nil_append, nil_append, map_dropEmptyTail hcells] at hrestore
    rw [fromStoredRow]
    simp only [fromRowCells, fromPaddedRowCells, isSome_none, Bool.false_eq_true, if_false,
      hdecode, ne_eq, not_true_eq_false, bind, Except.bind, hrestore]
  · by_cases hhard : rowMetadata.rowEnd = .hard
    · rw [repadHardRow_fromRowCells hcells hlength hhard]
      rfl
    · have hsoft : (fromRowCells rowCells rowMetadata).rowMetadata.rowEnd ≠ .hard := hhard
      rw [repadHardRow, if_pos hsoft]
      rfl

/-- A row of a plain cell, a cell with a native image fragment and a Kitty placeholder cell. -/
def imageRow : List Cell :=
  [.fromCharacter 'a' 1 .default, ⟨' ', some ⟨[], none, [⟨1, 0, 0⟩]⟩, 1, .default⟩,
    ⟨' ', some ⟨['\u0305'], some ⟨7, none, some 0, none, none⟩, []⟩, 1, .default⟩, .buildBlank]

theorem fromRowCells_keeps_imageRow : (fromRowCells imageRow ⟨.hard, false⟩).decodeRowCells = some imageRow :=
  (fromRowCells_keeps (by
    intro cell hcell
    simp only [imageRow, mem_cons, not_mem_nil, or_false] at hcell
    rcases hcell with rfl | rfl | rfl | rfl <;> exact ⟨⟨by decide, by decide⟩, by decide⟩) (by decide) _).1

/-- The stored form keeps the image data; and a tail that holds nothing is not read back. -/
theorem fromStoredRow_keeps_images :
    (fromStoredRow (fromRowCells imageRow ⟨.hard, false⟩).encodedRowBytes ⟨.hard, false⟩
        (fromRowCells imageRow ⟨.hard, false⟩).imageCells).map (·.imageCells) =
      .ok [⟨1, ⟨[], none, [⟨1, 0, 0⟩]⟩⟩, ⟨2, ⟨['\u0305'], some ⟨7, none, some 0, none, none⟩, []⟩⟩] ∧
    (fromRowCells [⟨'a', some .default, 1, .default⟩] ⟨.hard, false⟩).decodeRowCells =
      some [.fromCharacter 'a' 1 .default] := by
  constructor <;> rfl

end Koshi.Terminal
