import Mathlib.Tactic
import Koshi.Terminal.RowSnapshot
import Koshi.Terminal.Proof.RowRoundTrip

/-!
# The text byte count of a row

The count the encoder returns is the sum over the row's cells that `compute_text_byte_count` takes without encoding.
-/

namespace Koshi.Terminal

open Base List Cell

def Cell.countTextBytes (cell : Cell) : Nat :=
  if cell.displayWidth ≠ 0 then cell.character.utf8Size + countUtf8Bytes (listEncodedCombiningCharacters cell) else 0

def countTextBytes (cells : List Cell) : Nat := (cells.map Cell.countTextBytes).sum

@[simp] theorem countTextBytes_nil : countTextBytes [] = 0 := rfl

@[simp] theorem countTextBytes_cons (c : Cell) (cells : List Cell) :
    countTextBytes (c :: cells) = c.countTextBytes + countTextBytes cells := rfl

@[simp] theorem countTextBytes_append (fst second : List Cell) :
    countTextBytes (fst ++ second) = countTextBytes fst + countTextBytes second := by
  simp [countTextBytes]

theorem countTextBytes_replicate (count : Nat) (c : Cell) :
    countTextBytes (List.replicate count c) = count * c.countTextBytes := by
  simp [countTextBytes]

theorem countTextBytes_flatten_replicate (count : Nat) (cells : List Cell) :
    countTextBytes (List.replicate count cells).flatten = count * countTextBytes cells := by
  induction count with
  | zero => simp
  | succ count ih => rw [replicate_succ, flatten_cons, countTextBytes_append, ih, Nat.succ_mul, Nat.add_comm]

variable (cells : List Cell)

theorem countTextBytes_take_add_drop (count : Nat) :
    countTextBytes (cells.take count) + countTextBytes (cells.drop count) = countTextBytes cells := by
  rw [← countTextBytes_append, take_append_drop]

theorem textByteCount_eq (rowCells : List Cell) (rowEnd : RowEnd) :
    computeTextByteCount rowCells rowEnd =
      countTextBytes (rowCells.take (if rowEnd = .hard then countRowContentCells rowCells else rowCells.length)) := by
  simp only [computeTextByteCount]
  generalize rowCells.take _ = cells
  induction cells with
  | nil => rfl
  | cons c cells ih =>
    rw [countTextBytes_cons, ← ih, filter_cons, Cell.countTextBytes]
    by_cases hwd : c.displayWidth = 0
    · simp [hwd]
    · simp [hwd]

theorem countTextBytes_dropImageData (c : Cell) : c.dropImageData.countTextBytes = c.countTextBytes := by
  have hcomb : listEncodedCombiningCharacters c.dropImageData = listEncodedCombiningCharacters c := by
    unfold listEncodedCombiningCharacters dropImageData
    generalize (if c.hasImagePlaceholder then [] else c.listCombiningCharacters) = chars
    cases chars <;> simp [hasImagePlaceholder, listCombiningCharacters]
  rw [Cell.countTextBytes, hcomb]
  rfl

theorem countTextBytes_map_dropImageData : countTextBytes (cells.map dropImageData) = countTextBytes cells := by
  rw [countTextBytes, List.map_map, countTextBytes]
  congr 1
  exact map_congr_left fun c _ => countTextBytes_dropImageData c

/-! ### One run -/

theorem countTextBytes_of_isPlainAsciiCell {c : Cell} (h : IsPlainAsciiCell c) : c.countTextBytes = 1 := by
  have hdrop := h.dropImageData
  rw [← countTextBytes_dropImageData, hdrop]
  have hsize : c.character.utf8Size = 1 := by
    rw [← String.length_utf8EncodeChar, utf8EncodeChar_of_isAscii h.1]
    rfl
  simp [Cell.countTextBytes, Cell.fromCharacter, hsize, listEncodedCombiningCharacters, Cell.hasImagePlaceholder,
    Cell.listCombiningCharacters, countUtf8Bytes]

theorem scanAsciiCells_textByteCount (rects cells : List Cell) (scan : AsciiScan) :
    (scanAsciiCells false rects cells scan).writer.textByteCount = scan.writer.textByteCount ∧
      ∃ passedCells restCells, cells = passedCells ++ restCells ∧ (∀ c ∈ passedCells, IsPlainAsciiCell c) ∧
        (scanAsciiCells false rects cells scan).cellIndex = scan.cellIndex + passedCells.length := by
  induction cells generalizing scan with
  | nil => exact ⟨rfl, [], [], rfl, by simp, rfl⟩
  | cons c cells ih =>
    rw [scanAsciiCells]
    by_cases hstop : (!isAscii c.character || !isPlainNarrowCell c) = true
    · simp only [Bool.not_false, Bool.true_and, hstop, if_true]
      exact ⟨trivial, [], c :: cells, rfl, by simp, rfl⟩
    · simp only [Bool.not_false, Bool.true_and, hstop]
      have hce : IsPlainAsciiCell c := by
        simpa [IsPlainAsciiCell, not_or] using hstop
      generalize hn : (if c.character ≠ scan.groupCharacter then _ else _ : AsciiScan) = nextScan
      have hk : nextScan.writer.textByteCount = scan.writer.textByteCount ∧ nextScan.cellIndex = scan.cellIndex := by
        subst hn
        split_ifs <;> exact ⟨rfl, rfl⟩
      obtain ⟨htext, passedCells, restCells, rfl, hpl, hidx⟩ := ih { nextScan with cellIndex := nextScan.cellIndex + 1 }
      refine ⟨htext.trans hk.1, c :: passedCells, restCells, rfl, ?_, ?_⟩
      · rintro other (_ | ⟨_, ho⟩)
        · exact hce
        · exact hpl other ho
      · rw [if_neg (by decide), hidx, length_cons]
        simp only [hk.2]
        omega

theorem countTextBytes_of_plain {cells : List Cell} (h : ∀ c ∈ cells, IsPlainAsciiCell c) :
    countTextBytes cells = cells.length := by
  induction cells with
  | nil => rfl
  | cons c cells ih =>
    rw [countTextBytes_cons, countTextBytes_of_isPlainAsciiCell (h c (by simp)),
      ih fun other ho => h other (mem_cons_of_mem _ ho), length_cons, Nat.add_comm]

theorem finishAsciiScan_textByteCount (rects : List Cell) (scan : AsciiScan) :
    (finishAsciiScan rects scan).textByteCount = scan.writer.textByteCount + scan.cellIndex := by
  simp only [finishAsciiScan]
  split_ifs <;> rfl

theorem encodeItem_snd_textByteCount (base : Cell) (fs : List Cell) (writer : RunWriter) :
    (encodeItem base fs writer).2.textByteCount =
      if base.displayWidth ≠ 0 then writer.textByteCount +
        (base.character.utf8Size + countUtf8Bytes (listEncodedCombiningCharacters base)) *
          (encodedItem base fs).repeatItemCount
      else writer.textByteCount := by
  simp only [encodeItem, RunWriter.writeRepeatException, RunWriter.writeCombiningException,
    RunWriter.writeShapeException, RunWriter.finishException, RunWriter.writeExceptionHeader,
      apply_ite RunWriter.textByteCount,
    ite_self]
  rfl

variable {runStyle : Style}

theorem encodeItem_textByteCount {base : Cell} {fs : List Cell} (hstyle : ∀ c ∈ base :: fs, c.style = runStyle)
    (writer : RunWriter) :
    (encodeItem base fs writer).2.textByteCount = writer.textByteCount +
      countTextBytes ((base :: fs).take (encodeItem base fs writer).1) := by
  obtain ⟨-, -, -, hbuild⟩ := encodedItem_cells hstyle
  have hitem : countTextBytes ((base :: fs).take (if isWidePairItem base fs then 2 else 1)) = base.countTextBytes := by
    cases hpr : isWidePairItem base fs with
    | false => simp
    | true =>
      obtain _ | ⟨rightCell, fs⟩ := fs
      · simp [isWidePairItem] at hpr
      · have hright : rightCell.countTextBytes = 0 := by
          simp [isWidePairItem, isStandardContinuationCell] at hpr
          simp [Cell.countTextBytes, hpr]
        simp [hright]
  have hbase : countTextBytes (buildItemCells (encodedItem base fs).character
      ((encodedItem base fs).itemState none) runStyle) = base.countTextBytes := by
    rw [← hitem, ← countTextBytes_map_dropImageData ((base :: fs).take _), ← buildItemCells_encodedItem hstyle]
    rfl
  rw [encodeItem_fst, ← countTextBytes_map_dropImageData, ← hbuild, RunItem.buildCells,
    countTextBytes_flatten_replicate,
    hbase, encodeItem_snd_textByteCount, Cell.countTextBytes]
  split_ifs
  · rw [Nat.mul_comm]
  · rfl

theorem encodeRunLoop_textByteCount (ts : Nat) {rects : List Cell} (hturns : rects.length ≤ ts)
    (hstyle : ∀ c ∈ rects, c.style = runStyle) (writer : RunWriter) :
    (encodeRunLoop false ts rects writer).textByteCount = writer.textByteCount + countTextBytes rects := by
  induction ts generalizing rects writer with
  | zero =>
    obtain rfl := length_eq_zero_iff.1 (Nat.le_zero.1 hturns)
    rfl
  | succ ts ih =>
    obtain _ | ⟨base, fs⟩ := rects
    · rfl
    · obtain ⟨htext, passedCells, restCells, hsp, hpl, hidx⟩ :=
        scanAsciiCells_textByteCount (base :: fs) (base :: fs) ⟨0, 0, 0, '\x00', writer⟩
      have hr : ∀ count, 0 < count → ∀ nextWriter, (encodeRunLoop false ts
          ((base :: fs).drop count) nextWriter).textByteCount =
            nextWriter.textByteCount + countTextBytes ((base :: fs).drop count) := by
        intro count hc nextWriter
        rw [length_cons] at hturns
        exact ih (by rw [length_drop, length_cons]; omega) (fun c h => hstyle c (mem_of_mem_drop h)) _
      rw [encodeRunLoop]
      generalize hscan : scanAsciiCells false _ _ _ = scan at htext hidx ⊢
      dsimp only at hidx htext ⊢
      split_ifs with hpassed
      · rw [hr _ hpassed, finishAsciiScan_textByteCount, htext,
          ← countTextBytes_take_add_drop (base :: fs) scan.cellIndex]
        have htake : (base :: fs).take scan.cellIndex = passedCells := by
          rw [hsp, hidx, Nat.zero_add, take_left]
        rw [htake, countTextBytes_of_plain hpl, hidx, Nat.zero_add, Nat.add_assoc]
      · obtain ⟨hpos, hrepeats, -, -⟩ := encodedItem_cells hstyle
        rw [hr _ (by rw [encodeItem_fst]; exact hpos.trans_le hrepeats), encodeItem_textByteCount hstyle,
          Nat.add_assoc, countTextBytes_take_add_drop]

theorem encodeRun_textByteCount {rects : List Cell} (si : Nat) (hstyle : ∀ c ∈ rects, c.style = runStyle) :
    (encodeRun rects si false).2 = countTextBytes rects := by
  have hloop := encodeRunLoop_textByteCount rects.length (le_refl _) hstyle .empty
  rw [show RunWriter.empty.textByteCount = 0 from rfl, Nat.zero_add] at hloop
  exact hloop

/-! ### A row -/

theorem encodeRuns_textByteCount (ts : Nat) {cells : List Cell} (hturns : cells.length ≤ ts) (writer : RunsWriter) :
    (encodeRuns false ts cells writer).textByteCount = writer.textByteCount + countTextBytes cells := by
  induction ts generalizing cells writer with
  | zero =>
    obtain rfl := length_eq_zero_iff.1 (Nat.le_zero.1 hturns)
    rfl
  | succ ts ih =>
    obtain _ | ⟨fc, fs⟩ := cells
    · rfl
    · obtain ⟨hpos, hle, hstyle⟩ := @take_countStyleRunCells false fc fs (by simp)
      simp only [encodeRuns]
      generalize countStyleRunCells false fc fs = runCellCount at hpos hle hstyle ⊢
      rw [length_cons] at hturns
      rw [ih (by rw [length_drop, length_cons]; omega)]
      dsimp only
      rw [encodeRun_textByteCount _ hstyle, Nat.add_assoc, countTextBytes_take_add_drop]

/-- **The encoder counts the text of the row's cells**: of a soft-ended row all of them, of a hard-ended one all but its
trailing default blanks. -/
theorem textByteCount_fromRowCells (metadata : RowMetadata) :
    (RowSnapshot.fromRowCells cells metadata).textByteCount = computeTextByteCount cells metadata.rowEnd := by
  have hcontentLe := countContentCells_le cells
  have hro := take_countContentCells cells
  have hct : (cells.take (countRowContentCells cells)).length = countRowContentCells cells := by
    rw [length_take]
    omega
  have hruns := encodeRuns_textByteCount (cells.take (countRowContentCells cells)).length (le_refl _)
  rw [textByteCount_eq]
  simp only [RowSnapshot.fromRowCells, RowSnapshot.fromPaddedRowCells, encodeRowCellsWithBuffers, Option.isSome_none]
  rw [hruns]
  dsimp only
  split_ifs
  · rw [Nat.zero_add]
  · conv_rhs => rw [take_length, ← hro, countTextBytes_append, countTextBytes_replicate]
    rw [Nat.add_comm, show buildBlank.countTextBytes = 1 from rfl, Nat.mul_one]

end Koshi.Terminal
