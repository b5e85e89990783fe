import Mathlib.Tactic
import Koshi.Terminal.Proof.RowRuns

/-!
# One encoding of a row

A row has one encoding, however its writer is called: with the plain-row flag or without, padded by the encoder or by
the caller, and from cells or from the bytes of the row at another width.
-/

namespace Koshi.Terminal

open Base Koshi.Core List Option

variable {rowCells : List Cell} {columnCount : Nat}

/-! ### The plain row -/

/-- What the encoder asserts of a row it is told is plain, whose cells are then not looked at one by one. -/
def IsPlainRow (plainRowStyle : Style) (rowCells : List Cell) : Prop :=
  ∀ cell ∈ rowCells, cell.style = plainRowStyle ∧ IsPlainAsciiCell cell

theorem scanAsciiCells_plain (rects : List Cell) {cells : List Cell} (hpl : ∀ c ∈ cells, IsPlainAsciiCell c)
    (scan : AsciiScan) : scanAsciiCells true rects cells scan = scanAsciiCells false rects cells scan := by
  induction cells generalizing scan with
  | nil => rfl
  | cons c cells ih =>
    obtain ⟨hascii, hnarrow⟩ := hpl c (by simp)
    have hgoes : (!isAscii c.character || !isPlainNarrowCell c) = false := by
      rw [hascii, hnarrow]
      rfl
    simp only [scanAsciiCells, Bool.not_true, Bool.not_false, Bool.false_and, Bool.true_and, hgoes, Bool.false_eq_true,
      if_false]
    exact ih (fun other ho => hpl other (mem_cons_of_mem _ ho)) _

theorem encodeRunLoop_plain (ts : Nat) {rects : List Cell} (hpl : ∀ c ∈ rects, IsPlainAsciiCell c)
    (writer : RunWriter) : encodeRunLoop true ts rects writer = encodeRunLoop false ts rects writer := by
  induction ts generalizing rects writer with
  | zero => rfl
  | succ ts ih =>
    obtain _ | ⟨baseCell, fs⟩ := rects
    · rfl
    · have hr : ∀ count nextWriter, encodeRunLoop true ts ((baseCell :: fs).drop count) nextWriter =
          encodeRunLoop false ts ((baseCell :: fs).drop count) nextWriter :=
        fun count => ih fun c hce => hpl c (mem_of_mem_drop hce)
      simp only [encodeRunLoop, scanAsciiCells_plain _ hpl, hr]

theorem encodeRuns_plain {plainRowStyle : Style} (hpl : IsPlainRow plainRowStyle rowCells) (ts : Nat)
    (writer : RunsWriter) : encodeRuns true ts rowCells writer = encodeRuns false ts rowCells writer := by
  obtain _ | ts := ts
  · rfl
  · obtain _ | ⟨fc, fs⟩ := rowCells
    · rfl
    · have hc : countStyleRunCells false fc fs = countStyleRunCells true fc fs := by
        have hfi : (fc :: fs).findIdx? (fun c => decide (c.style ≠ fc.style)) = none := by
          refine List.findIdx?_eq_none_iff.2 fun c hce => ?_
          simp [(hpl c hce).1, (hpl fc (by simp)).1]
        rw [countStyleRunCells, countStyleRunCells, if_neg (by decide), if_pos rfl, hfi, getD_none]
      have hall : countStyleRunCells true fc fs = (fc :: fs).length := rfl
      have hcx : ∀ c ∈ fc :: fs, IsPlainAsciiCell c := fun c hce => (hpl c hce).2
      simp only [encodeRuns, hc, hall, take_length, drop_length, encodeRun, encodeRunLoop_plain _ hcx]
      cases ts <;> rfl

/-- **A row has one encoding.** Rows that the caller says are plain, and are, and rows that the encoder pads encode to
the bytes of the padded row; and the text byte count is the one `compute_text_byte_count` counts. -/
theorem encodePaddedRowCells_eq {plainRowStyle : Option Style}
    (hplain : ∀ style ∈ plainRowStyle, IsPlainRow style rowCells) (hroom : rowCells.length ≤ columnCount)
    (hcols : columnCount ≤ u16Max) (rowEnd : RowEnd) :
    encodePaddedRowCells rowCells columnCount plainRowStyle rowEnd =
        encodePaddedRowCells rowCells columnCount none rowEnd ∧
      encodePaddedRowCells rowCells columnCount plainRowStyle rowEnd =
        encodeRowCells (rowCells ++ List.replicate (columnCount - rowCells.length) .buildBlank) rowEnd ∧
      ∃ encodedRowBytes, encodePaddedRowCells rowCells columnCount plainRowStyle rowEnd = some (encodedRowBytes,
        computeTextByteCount (rowCells ++ List.replicate (columnCount - rowCells.length) .buildBlank) rowEnd) := by
  have hlen : (rowCells ++ List.replicate (columnCount - rowCells.length) Cell.buildBlank).length = columnCount := by
    rw [length_append, length_replicate]
    omega
  have hgeneral : encodePaddedRowCells rowCells columnCount plainRowStyle rowEnd =
      some (encodeRowCellsWithBuffers rowCells columnCount false rowEnd) := by
    rw [encodePaddedRowCells, if_pos hroom]
    obtain _ | style := plainRowStyle
    · rfl
    · have hcontent : IsPlainRow style (rowCells.take (countRowContentCells rowCells)) := fun cell hcell =>
        hplain style rfl cell (mem_of_mem_take hcell)
      simp only [encodeRowCellsWithBuffers, isSome_some, encodeRuns_plain hcontent]
  have hpadded : encodeRowCellsWithBuffers rowCells columnCount false rowEnd =
      encodeRowCellsWithBuffers (rowCells ++ List.replicate (columnCount - rowCells.length) .buildBlank) columnCount
        false rowEnd := by
    simp only [encodeRowCellsWithBuffers, countContentCells_append_blanks,
      take_append_of_le_length (countContentCells_le rowCells)]
  refine ⟨hgeneral.trans (if_pos hroom).symm, ?_, (encodeRowCellsWithBuffers rowCells columnCount false rowEnd).1, ?_⟩
  · rw [hgeneral, hpadded, encodeRowCells, if_pos (hlen.trans_le hcols), hlen]
  · have htext := textByteCount_fromRowCells
      (rowCells ++ List.replicate (columnCount - rowCells.length) Cell.buildBlank) ⟨rowEnd, false⟩
    rw [RowSnapshot.fromRowCells, hlen] at htext
    rw [hgeneral, hpadded, ← htext]
    rfl

/-- The cells `ab` in four columns. -/
theorem encodePaddedRowCells_eq_ab : ∃ encodedRowBytes,
    encodePaddedRowCells [.fromCharacter 'a' 1 .default, .fromCharacter 'b' 1 .default] 4 (some .default) .hard =
      some (encodedRowBytes, 2) :=
  (encodePaddedRowCells_eq (by simp [IsPlainRow, IsPlainAsciiCell, Cell.fromCharacter]; decide) (by decide) (by decide)
    .hard).2.2

/-! ### Another width -/

/-- **An encoded row at another width is encoded as it would be from its cells.** The cells of its runs are the row's
cells but its trailing default blanks; where they leave room for a blank the bytes are those of these cells padded with
default blanks, with the same row end, and where they leave none there are no bytes. -/
theorem repadEncodedRow_encodeRowCells {rowEnd : RowEnd} {encodedRowBytes : List UInt8} {textByteCount : Nat}
    (hencoded : encodeRowCells rowCells rowEnd = some (encodedRowBytes, textByteCount))
    (hbytes : encodedRowBytes.length < 2 ^ 64) (hcols : columnCount ≤ u16Max) :
    (repadEncodedRow encodedRowBytes columnCount = .ok none ↔ columnCount ≤ countRowContentCells rowCells) ∧
      (countRowContentCells rowCells < columnCount → ∃ repadded textCount,
        repadEncodedRow encodedRowBytes columnCount = .ok (some (countRowContentCells rowCells, repadded)) ∧
          encodeRowCells (rowCells.take (countRowContentCells rowCells) ++
              List.replicate (columnCount - countRowContentCells rowCells) .buildBlank) rowEnd =
            some (repadded, textCount)) := by
  unfold encodeRowCells at hencoded
  split_ifs at hencoded with hlen
  obtain rfl : (encodeRowCellsWithBuffers rowCells rowCells.length false rowEnd).1 = encodedRowBytes :=
    congrArg Prod.fst (some_inj.1 hencoded)
  rw [repadEncodedRow_encodeRowCellsWith hlen hbytes]
  refine ⟨by split_ifs <;> simp_all, fun hroom => ?_⟩
  have hcontent : (rowCells.take (countRowContentCells rowCells)).length = countRowContentCells rowCells :=
    length_take_of_le (countContentCells_le rowCells)
  have hpadded := (@encodePaddedRowCells_eq (rowCells.take (countRowContentCells rowCells)) columnCount none (by simp)
    (hcontent.trans_le hroom.le) hcols rowEnd).2.1
  rw [encodePaddedRowCells, if_pos (hcontent.trans_le hroom.le), hcontent] at hpadded
  have hbuffers : encodeRowCellsWithBuffers (rowCells.take (countRowContentCells rowCells)) columnCount false rowEnd =
      encodeRowCellsWithBuffers rowCells columnCount false rowEnd := by
    simp [encodeRowCellsWithBuffers, countContentCells_take, take_take]
  rw [if_neg (Nat.not_le.2 hroom)]
  exact ⟨_, _, rfl, hpadded.symm.trans (congrArg some hbuffers)⟩

/-- The row `a` at three columns. -/
theorem repadEncodedRow_encodeRowCells_a : ∃ repadded textCount,
    repadEncodedRow [15, 1, 0, 0, 1, 4, 0, 0, 0, 0, 1, 0, 1, 1, 97, 0] 3 = .ok (some (1, repadded)) ∧
      encodeRowCells [.fromCharacter 'a' 1 .default, .buildBlank, .buildBlank] .hard = some (repadded, textCount) :=
  (@repadEncodedRow_encodeRowCells [.fromCharacter 'a' 1 .default] 3 .hard _ 1 (by decide +kernel) (by decide)
    (by decide)).2 (by decide)

/-- The padding is of default blanks, not in the style the row is filled with; and bytes that decode but are not what
the encoder writes, a blank in a run of its own, keep their runs. -/
theorem repadEncodedRow_not_filled :
    (encodeRowCells [.buildBlankWithStyle { Style.default with backgroundColor := .indexed 1 }] .hard =
        some ([16, 1, 0, 0, 1, 5, 0, 1, 1, 0, 0, 1, 0, 1, 1, 32, 0], 1) ∧
      repadEncodedRow [16, 1, 0, 0, 1, 5, 0, 1, 1, 0, 0, 1, 0, 1, 1, 32, 0] 2 =
        .ok (some (1, [16, 2, 0, 1, 1, 5, 0, 1, 1, 0, 0, 1, 0, 1, 1, 32, 0])) ∧
      encodeRowCells (List.replicate 2 (.buildBlankWithStyle { Style.default with backgroundColor := .indexed 1 }))
          .hard =
        some ([17, 2, 0, 0, 1, 5, 0, 1, 1, 0, 0, 1, 0, 2, 2, 32, 32, 0], 2)) ∧
      decodeRowCells [15, 1, 0, 0, 1, 4, 0, 0, 0, 0, 1, 0, 1, 1, 32, 0] = .ok ⟨[.buildBlank], .hard⟩ ∧
      repadEncodedRow [15, 1, 0, 0, 1, 4, 0, 0, 0, 0, 1, 0, 1, 1, 32, 0] 2 =
        .ok (some (1, [15, 2, 0, 1, 1, 4, 0, 0, 0, 0, 1, 0, 1, 1, 32, 0])) ∧
      encodeRowCells [.buildBlank, .buildBlank] .hard = some ([5, 2, 0, 2, 0, 0], 0) :=
  ⟨⟨by decide +kernel, rfl, by decide +kernel⟩, rfl, rfl, by decide +kernel⟩

end Koshi.Terminal
