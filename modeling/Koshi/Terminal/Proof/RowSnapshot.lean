import Mathlib.Tactic
import Koshi.Terminal.Proof.RowDecode
import Koshi.Terminal.Proof.TextByteCount

/-!
# A snapshot gives back its cells

The row encoding drops the image data and a tail with nothing in it. The image cells beside the bytes bring the image
data back, so a snapshot reads back as its cells without empty tails.
-/

namespace Koshi.Terminal

open Base List Option Cell RowSnapshot

variable (rowCells : List Cell)

/-- The cell without a tail that holds nothing. -/
def Cell.dropEmptyTail (cell : Cell) : Cell :=
  if cell.combining = some .default then { cell with combining := none } else cell

theorem Cell.dropImageData_of_no_image {c : Cell} (h : c.getImageCellExtra = none) :
    c.dropImageData = c.dropEmptyTail := by
  obtain ⟨char, tail, width, style⟩ := c
  cases tail with
  | none => rfl
  | some extra =>
    obtain ⟨combining, imagePlaceholder, imageFragments⟩ := extra
    have himg : imagePlaceholder = none ∧ imageFragments = [] := by
      simpa [getImageCellExtra, CellExtra.hasImageData, Option.filter] using h
    obtain ⟨rfl, rfl⟩ := himg
    cases combining with
    | nil => rfl
    | cons mark marks =>
      simp [dropImageData, dropEmptyTail, hasImagePlaceholder, listCombiningCharacters, CellExtra.default]

theorem Cell.setCellExtra_dropImageData {c : Cell} {cellExtra : CellExtra} (h : c.getImageCellExtra = some cellExtra) :
    c.dropImageData.setCellExtra cellExtra = c.dropEmptyTail := by
  obtain ⟨char, tail, width, style⟩ := c
  obtain ⟨htail, himg⟩ := filter_eq_some_iff.1 h
  simp only at htail
  subst htail
  have hne : cellExtra ≠ .default := by
    rintro rfl
    simp [CellExtra.hasImageData, CellExtra.default] at himg
  simp [setCellExtra, dropImageData, dropEmptyTail, hne]

theorem listImageCells_cons (col : Nat) (c : Cell) (cells : List Cell) :
    listImageCells col (c :: cells) =
      (c.getImageCellExtra.map fun cellExtra => ⟨col, cellExtra⟩).toList ++ listImageCells (col + 1) cells := by
  simp only [listImageCells, zipIdx_cons, filterMap_cons]
  cases himage : c.getImageCellExtra <;> simp

theorem modify_length_append (readCells cells : List Cell) (c : Cell) (changed : Cell → Cell) :
    (readCells ++ c :: cells).modify readCells.length changed = readCells ++ changed c :: cells := by
  induction readCells with
  | nil => rfl
  | cons readCell readCells ih => rw [cons_append, length_cons, modify_succ_cons, ih, cons_append]

theorem restoreImageCells_listImageCells (readCells cells : List Cell) :
    restoreImageCells (listImageCells readCells.length cells) (readCells ++ cells.map dropImageData) =
      some (readCells ++ cells.map dropEmptyTail) := by
  induction cells generalizing readCells with
  | nil => rfl
  | cons c cells ih =>
    have ih := ih (readCells ++ [c.dropEmptyTail])
    rw [length_append, length_singleton, append_assoc, append_assoc, singleton_append, singleton_append] at ih
    rw [map_cons, map_cons, ← ih, listImageCells_cons]
    cases himg : c.getImageCellExtra with
    | none =>
      rw [dropImageData_of_no_image himg]
      rfl
    | some cellExtra =>
      rw [map_some, toList_some, singleton_append, restoreImageCells,
        if_pos (by simp), modify_length_append, setCellExtra_dropImageData himg]

variable {cells : List Cell}

/-- **A row built from cells gives back those cells**, less their empty tails. -/
theorem decodeRowCells_fromRowCells (hcx : ∀ c ∈ cells, c.Encodable) (hlen : cells.length ≤ u16Max)
    (metadata : RowMetadata) :
    (fromRowCells cells metadata).decodeRowCells = some (cells.map dropEmptyTail) := by
  have hdecode := decodeRowCells_encodeRowCellsWith hcx false (by simp) (le_refl cells.length) hlen metadata.rowEnd
  rw [Nat.sub_self, replicate_zero, append_nil] at hdecode
  rw [RowSnapshot.decodeRowCells]
  simp only [fromRowCells, fromPaddedRowCells, isSome_none, Bool.false_eq_true, if_false, hdecode]
  exact restoreImageCells_listImageCells [] cells

theorem getEncodedRowShape_fromRowCells (hcx : ∀ c ∈ cells, c.Encodable) (hlen : cells.length ≤ u16Max)
    (metadata : RowMetadata) :
    ∃ shape, (fromRowCells cells metadata).getEncodedRowShape = some shape ∧
      shape.columnCount = cells.length ∧ shape.rowEnd = metadata.rowEnd := by
  have hdecode := decodeRowCells_encodeRowCellsWith hcx false (by simp) (le_refl cells.length) hlen metadata.rowEnd
  rw [Nat.sub_self, replicate_zero, append_nil] at hdecode
  obtain ⟨shape, restBytes, hheader, hc, hen, -⟩ := decodeRowCells_isDecoded hdecode
  rw [length_map] at hc
  refine ⟨shape, ?_, hc.symm, hen.symm⟩
  rw [getEncodedRowShape]
  simp only [fromRowCells, fromPaddedRowCells, isSome_none, hheader]

/-! ### Text bytes and blanks -/

theorem countTextBytes_dropEmptyTail (c : Cell) : c.dropEmptyTail.countTextBytes = c.countTextBytes := by
  unfold dropEmptyTail
  split_ifs with htail
  · simp [Cell.countTextBytes, listEncodedCombiningCharacters, Cell.hasImagePlaceholder, Cell.listCombiningCharacters,
      htail, CellExtra.default]
  · rfl

theorem Cell.Encodable.dropEmptyTail {c : Cell} (h : c.Encodable) : c.dropEmptyTail.Encodable := by
  unfold Cell.dropEmptyTail
  split_ifs
  · exact ⟨h.width, Nat.zero_le _⟩
  · exact h

theorem countContentCells_concat (c : Cell) :
    countRowContentCells (rowCells ++ [c]) =
      if c = .buildBlank then countRowContentCells rowCells else rowCells.length + 1 := by
  rw [countRowContentCells, reverse_append, reverse_singleton, singleton_append, dropWhile_cons]
  by_cases hblk : c = .buildBlank
  · simp [hblk, countRowContentCells]
  · simp [hblk]

theorem countContentCells_append_blanks (blanks : Nat) :
    countRowContentCells (rowCells ++ List.replicate blanks .buildBlank) = countRowContentCells rowCells := by
  induction blanks with
  | zero => simp
  | succ blanks ih =>
    rw [replicate_succ', ← append_assoc, countContentCells_concat, if_pos rfl, ih]

theorem countContentCells_take :
    countRowContentCells (rowCells.take (countRowContentCells rowCells)) = countRowContentCells rowCells := by
  conv_rhs => rw [← take_countContentCells rowCells, countContentCells_append_blanks]

theorem countContentCells_le_iff {count : Nat} :
    countRowContentCells cells ≤ count ↔ ∀ c ∈ cells.drop count, c = .buildBlank := by
  induction cells using List.reverseRecOn with
  | nil => simp [countRowContentCells]
  | append_singleton cells c ih =>
    rw [countContentCells_concat, drop_append]
    by_cases hblk : c = .buildBlank
    · rw [if_pos hblk, ih]
      refine ⟨fun h other ho => ?_, fun h other ho => h other (by simp [ho])⟩
      rcases mem_append.1 ho with ho | ho
      · exact h other ho
      · rw [mem_singleton.1 (mem_of_mem_drop ho), hblk]
    · rw [if_neg hblk]
      constructor
      · intro hc other ho
        rw [drop_eq_nil_of_le (by omega), drop_eq_nil_of_le (by simp; omega)] at ho
        simp at ho
      · intro h
        by_contra hc
        refine hblk (h c (mem_append_right _ ?_))
        rw [show count - cells.length = 0 by omega]
        simp

/-- A row has no more text than a row that starts with its cells, a hard-ended one with its content. -/
theorem textByteCount_le_append {cells restCells : List Cell} (rowEnd : RowEnd) :
    computeTextByteCount cells rowEnd ≤ computeTextByteCount (cells ++ restCells) rowEnd := by
  rw [textByteCount_eq, textByteCount_eq]
  split_ifs with hhard
  · have hle : countRowContentCells cells ≤ countRowContentCells (cells ++ restCells) := by
      rw [countContentCells_le_iff]
      intro c hce
      refine countContentCells_le_iff.1 (le_refl (countRowContentCells (cells ++ restCells))) c ?_
      rw [drop_append]
      exact mem_append_left _ hce
    have htake := countContentCells_le cells
    rw [show cells.take (countRowContentCells cells) =
      ((cells ++ restCells).take (countRowContentCells (cells ++ restCells))).take (countRowContentCells cells) by
        rw [take_take, Nat.min_eq_left hle, take_append_of_le_length htake]]
    have := countTextBytes_take_add_drop
      ((cells ++ restCells).take (countRowContentCells (cells ++ restCells))) (countRowContentCells cells)
    omega
  · rw [take_length, take_length, countTextBytes_append]
    omega

theorem textByteCount_append_blanks (blanks : Nat) (rowEnd : RowEnd) :
    computeTextByteCount (rowCells ++ List.replicate blanks .buildBlank) rowEnd =
      computeTextByteCount rowCells rowEnd + if rowEnd = .hard then 0 else blanks := by
  rw [textByteCount_eq, textByteCount_eq]
  split_ifs with hhard
  · rw [countContentCells_append_blanks, take_append_of_le_length (countContentCells_le rowCells), Nat.add_zero]
  · rw [take_length, take_length, countTextBytes_append, countTextBytes_replicate,
      show buildBlank.countTextBytes = 1 from rfl, Nat.mul_one]

theorem textByteCount_map_dropEmptyTail (rowEnd : RowEnd) :
    computeTextByteCount (rowCells.map dropEmptyTail) rowEnd ≤ computeTextByteCount rowCells rowEnd := by
  have htext : ∀ cells : List Cell, countTextBytes (cells.map dropEmptyTail) = countTextBytes cells := by
    intro cells
    rw [countTextBytes, List.map_map, countTextBytes]
    congr 1
    exact map_congr_left fun c _ => countTextBytes_dropEmptyTail c
  rw [textByteCount_eq, textByteCount_eq]
  split_ifs with hhard
  · have hle : countRowContentCells (rowCells.map dropEmptyTail) ≤ countRowContentCells rowCells := by
      rw [countContentCells_le_iff]
      intro c hce
      rw [← map_drop] at hce
      obtain ⟨src, hsr, rfl⟩ := List.mem_map.1 hce
      rw [countContentCells_le_iff.1 (le_refl _) src hsr]
      rfl
    rw [← map_take, htext]
    have := countTextBytes_take_add_drop (rowCells.take (countRowContentCells rowCells))
      (countRowContentCells (rowCells.map dropEmptyTail))
    rw [take_take, Nat.min_eq_left hle] at this
    omega
  · rw [length_map, ← map_take, htext]

end Koshi.Terminal
