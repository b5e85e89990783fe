import Mathlib.Tactic
import Koshi.Terminal.Scrollback
import Koshi.Terminal.Proof.Grid
import Koshi.Terminal.Proof.RowSnapshot

/-!
# The caps of the scrollback

The byte count is the sum of the rows' counts, and both caps hold, over every sequence of operations. One operation
does not re-check the caps: bringing rows to a column count pads them, and padding a soft-ended row adds text.
-/

namespace Koshi.Terminal

open Base List Option

variable {cells : List Cell}

/-! ### Rows at another width -/

/-- What every constructor of a row snapshot gives: the bytes decode to cells that encode, as many as the header says,
and their text is no more than the snapshot counts. -/
structure RowSnapshot.ReadsAs (rowSnapshot : RowSnapshot) (cells : List Cell) : Prop where
  decode : rowSnapshot.decodeRowCells = some cells
  shape : ∃ encodedRowShape, rowSnapshot.getEncodedRowShape = some encodedRowShape ∧
    encodedRowShape.columnCount = cells.length
  encodable : ∀ cell ∈ cells, cell.Encodable
  length : cells.length ≤ u16Max
  text : computeTextByteCount cells rowSnapshot.rowMetadata.rowEnd ≤ rowSnapshot.textByteCount

def RowSnapshot.IsReadable (rowSnapshot : RowSnapshot) : Prop := ∃ cells, rowSnapshot.ReadsAs cells

theorem RowSnapshot.readsAs_fromRowCells (hcx : ∀ c ∈ cells, c.Encodable) (hlen : cells.length ≤ u16Max)
    (metadata : RowMetadata) :
    (RowSnapshot.fromRowCells cells metadata).ReadsAs (cells.map Cell.dropEmptyTail) := by
  obtain ⟨shape, hshape, hc, -⟩ := getEncodedRowShape_fromRowCells hcx hlen metadata
  refine ⟨decodeRowCells_fromRowCells hcx hlen metadata, ⟨shape, hshape, ?_⟩, ?_, ?_, ?_⟩
  · rw [hc, length_map]
  · intro c hce
    obtain ⟨src, hsr, rfl⟩ := List.mem_map.1 hce
    exact (hcx src hsr).dropEmptyTail
  · rwa [length_map]
  · rw [textByteCount_fromRowCells]
    exact textByteCount_map_dropEmptyTail cells metadata.rowEnd

/-- What padding to `columnCount` cells adds to the text of a row: one byte a blank, on a soft-ended row. -/
def RowSnapshot.countPaddingBytes (columnCount : Nat) (rowSnapshot : RowSnapshot) : Nat :=
  if rowSnapshot.rowMetadata.rowEnd = .hard then 0
  else columnCount - (rowSnapshot.getEncodedRowShape.map (·.columnCount)).getD 0

theorem length_cropColumns (cells : List Cell) (columns : Nat) (style : Style) :
    (cropColumns cells columns style).length = columns := by
  have hlen := Grid.length_resizeCells cells columns (.buildBlankWithStyle style)
  simp only [cropColumns]
  split_ifs with hwide
  · have hne : Grid.resizeCells cells columns (.buildBlankWithStyle style) ≠ [] := by
      rintro hnil
      simp [hnil] at hwide
    have hpos := length_pos_iff.2 hne
    rw [length_append, length_dropLast, length_singleton]
    omega
  · exact hlen

theorem encodable_cropColumns (hcx : ∀ c ∈ cells, c.Encodable) (columns : Nat)
    (style : Style) : ∀ c ∈ cropColumns cells columns style, c.Encodable := by
  have hblk : (Cell.buildBlankWithStyle style).Encodable := ⟨Nat.le_succ 1, Nat.zero_le _⟩
  have hresized : ∀ c ∈ Grid.resizeCells cells columns (.buildBlankWithStyle style), c.Encodable := by
    intro c hce
    rcases mem_append.1 hce with hce | hce
    · exact hcx c (mem_of_mem_take hce)
    · rw [eq_of_mem_replicate hce]
      exact hblk
  intro c hce
  simp only [cropColumns] at hce
  split_ifs at hce
  · rcases mem_append.1 hce with hce | hce
    · exact hresized c (mem_of_mem_dropLast hce)
    · rw [mem_singleton.1 hce]
      exact hblk
  · exact hresized c hce

theorem textByteCount_blank_last {lastCell : Cell} (hwide : lastCell.displayWidth > 1)
    (rowEnd : RowEnd) : computeTextByteCount (cells ++ [.buildBlank]) rowEnd ≤
      computeTextByteCount (cells ++ [lastCell]) rowEnd := by
  have hblks := textByteCount_append_blanks cells 1 rowEnd
  rw [replicate_one] at hblks
  rw [hblks]
  split_ifs with hhard
  · exact textByteCount_le_append rowEnd
  · have hsize := lastCell.character.utf8Size_pos
    rw [textByteCount_eq, textByteCount_eq, if_neg hhard, if_neg hhard, take_length, take_length,
      countTextBytes_append, countTextBytes_cons, Cell.countTextBytes, if_pos (by omega)]
    omega

theorem textByteCount_cropColumns (cells : List Cell) (columns : Nat) (rowEnd : RowEnd) :
    computeTextByteCount (cropColumns cells columns .default) rowEnd ≤
      computeTextByteCount cells rowEnd + if rowEnd = .hard then 0 else columns - cells.length := by
  have hresized : computeTextByteCount (Grid.resizeCells cells columns .buildBlank) rowEnd ≤
      computeTextByteCount cells rowEnd + if rowEnd = .hard then 0 else columns - cells.length := by
    rw [Grid.resizeCells, textByteCount_append_blanks]
    refine Nat.add_le_add_right ?_ _
    have hst := @textByteCount_le_append (cells.take columns) (cells.drop columns) rowEnd
    rwa [take_append_drop] at hst
  refine le_trans ?_ hresized
  simp only [cropColumns]
  rw [show Cell.buildBlankWithStyle .default = .buildBlank from rfl]
  split_ifs with hwide
  · generalize Grid.resizeCells cells columns .buildBlank = resized at hwide ⊢
    rcases eq_nil_or_concat resized with rfl | ⟨firstCells, lastCell, rfl⟩
    · simp at hwide
    · rw [concat_eq_append, List.getLast?_concat] at hwide
      rw [concat_eq_append, dropLast_concat]
      exact textByteCount_blank_last (by simpa using hwide) rowEnd
  · exact le_refl _

variable {columns : Nat}

theorem fitLine_spec (hco : columns ≤ u16Max) {kept : RowSnapshot} (hln : kept.IsReadable) :
    ∃ fittedLine, Scrollback.fitLine columns kept = some fittedLine ∧ fittedLine.IsReadable ∧
      fittedLine.textByteCount ≤ kept.textByteCount + kept.countPaddingBytes columns := by
  obtain ⟨cells, hrds⟩ := hln
  obtain ⟨shape, hshape, hc⟩ := hrds.shape
  by_cases hwd : shape.columnCount = columns
  · refine ⟨kept, ?_, ⟨cells, hrds⟩, Nat.le_add_right ..⟩
    simp [Scrollback.fitLine, hshape, hwd]
  · have hencodable := encodable_cropColumns hrds.encodable columns .default
    have hlen := length_cropColumns cells columns .default
    refine ⟨.fromRowCells (cropColumns cells columns .default) kept.rowMetadata, ?_,
      ⟨_, RowSnapshot.readsAs_fromRowCells hencodable (by omega) _⟩, ?_⟩
    · simp [Scrollback.fitLine, hshape, hwd, hrds.decode]
    · rw [textByteCount_fromRowCells, RowSnapshot.countPaddingBytes, hshape, map_some, getD_some, hc]
      exact le_trans (textByteCount_cropColumns ..) (Nat.add_le_add_right hrds.text _)

namespace Scrollback

variable {scrollback : Scrollback}

/-! ### Eviction -/

@[simp] theorem retainedByteCount_nil : computeRetainedByteCount [] = 0 := rfl

@[simp] theorem retainedByteCount_cons (ln : RowSnapshot) (lines : List RowSnapshot) :
    computeRetainedByteCount (ln :: lines) = ln.textByteCount + computeRetainedByteCount lines := rfl

/-- The invariant: the byte count is the sum over the rows, and both caps hold; a sole row may be over the byte cap. -/
structure Bounded (scrollback : Scrollback) : Prop where
  byteCount : scrollback.retainedByteCount = computeRetainedByteCount scrollback.retainedLines
  lineCap : scrollback.retainedLines.length ≤ scrollback.maximumLineCount
  byteCap : scrollback.retainedByteCount ≤ scrollback.maximumByteCount ∨ scrollback.retainedLines.length ≤ 1

/-- What the eviction loop gives: the rows split in two, a byte count that is the kept rows' own, and both caps. -/
structure Evicted (maximumLineCount maximumByteCount : Nat) (lines : List RowSnapshot)
    (result : List RowSnapshot × List RowSnapshot × Nat) : Prop where
  split : lines = result.1 ++ result.2.1
  byteCount : result.2.2 = computeRetainedByteCount result.2.1
  lineCap : result.2.1.length ≤ maximumLineCount
  byteCap : result.2.2 ≤ maximumByteCount ∨ result.2.1.length ≤ 1

theorem evictLines_spec (maximumLines maximumBytes : Nat) (lines : List RowSnapshot) :
    Evicted maximumLines maximumBytes lines (evictLines maximumLines maximumBytes lines
      (computeRetainedByteCount lines)) := by
  induction lines with
  | nil => exact ⟨rfl, rfl, Nat.zero_le _, .inr (Nat.zero_le 1)⟩
  | cons oldestLine lines ih =>
    rw [evictLines]
    split_ifs with hover
    · rw [retainedByteCount_cons, Nat.add_sub_cancel_left]
      exact ⟨congrArg (oldestLine :: ·) ih.split, ih.byteCount, ih.lineCap, ih.byteCap⟩
    · obtain ⟨hlns, hby⟩ := not_or.1 hover
      refine ⟨rfl, rfl, by simpa using hlns, ?_⟩
      by_contra hcap
      obtain ⟨hover, hmany⟩ := not_or.1 hcap
      exact hby ⟨Nat.not_le.1 hover, Nat.not_le.1 hmany⟩

theorem bounded_evictOldestLinesToLimits
    (hby : scrollback.retainedByteCount = computeRetainedByteCount scrollback.retainedLines) :
    scrollback.evictOldestLinesToLimits.2.Bounded ∧
      ∀ ln ∈ scrollback.evictOldestLinesToLimits.2.retainedLines, ln ∈ scrollback.retainedLines := by
  have hspec := evictLines_spec scrollback.maximumLineCount scrollback.maximumByteCount scrollback.retainedLines
  rw [← hby] at hspec
  refine ⟨⟨hspec.byteCount, hspec.lineCap, hspec.byteCap⟩, fun ln hln => ?_⟩
  rw [hspec.split]
  exact mem_append_right _ hln

/-- Making room first changes nothing: the same rows are evicted, in the same order, and the same buffer is left. -/
theorem pushRowWithEvicted_evictOldestLine
    (hby : scrollback.retainedByteCount = computeRetainedByteCount scrollback.retainedLines) (row : RowSnapshot) :
    scrollback.pushRowWithEvicted row =
      (scrollback.evictOldestLineForNextPush.1.toList ++
          (scrollback.evictOldestLineForNextPush.2.pushRowWithEvicted row).1,
        (scrollback.evictOldestLineForNextPush.2.pushRowWithEvicted row).2) := by
  obtain ⟨lines, maximumLineCount, maximumByteCount, byteCount, pushedCount⟩ := scrollback
  simp only at hby
  subst hby
  rw [evictOldestLineForNextPush]
  dsimp only
  split_ifs with hroom
  · rfl
  · cases lines with
    | nil => rfl
    | cons oldestLine lines =>
      have hover : (lines ++ [row]).length + 1 > maximumLineCount := by
        rw [length_cons] at hroom
        rw [length_append, length_singleton]
        omega
      have hc : oldestLine.textByteCount + computeRetainedByteCount lines + row.textByteCount -
          oldestLine.textByteCount = oldestLine.textByteCount + computeRetainedByteCount lines -
            oldestLine.textByteCount + row.textByteCount := by omega
      simp only [pushRowWithEvicted, evictOldestLinesToLimits, cons_append, evictLines, hover, true_or, if_true,
        retainedByteCount_cons, hc, toList_some, nil_append]

/-! ### Runs -/

/-- One operation on a buffer. A load brings its own caps; nothing else changes them. -/
inductive Operation where
  | push (row : RowSnapshot)
  | evictThenPush (row : RowSnapshot)
  | clear
  | take
  | replace (lines : List RowSnapshot) (countBefore : Nat)
  | load (lines : List RowSnapshot) (limit : ScrollbackLimit) (totalPushedLineCount : Nat)
  | fit (columnCount : Nat)

/-- The buffer after one operation; `none` where the source panics. -/
def applyOperation (scrollback : Scrollback) : Operation → Option Scrollback
  | .push row => some (scrollback.pushRowWithEvicted row).2
  | .evictThenPush row => some (scrollback.evictOldestLineForNextPush.2.pushRowWithEvicted row).2
  | .clear => some scrollback.clearScrollback
  | .take => some scrollback.takeRetainedLines.2
  | .replace lines countBefore => some (scrollback.replaceRetainedLines lines countBefore)
  | .load lines limit totalPushedLineCount =>
    some (fromStoredLines lines limit.maximumLineCount limit.maximumByteCount totalPushedLineCount)
  | .fit columnCount => scrollback.fitLinesToColumnCount columnCount

/-- What the types of the source say of the arguments: rows are snapshots that read, a column count is a `u16`. -/
def Operation.IsTyped : Operation → Prop
  | .push row => row.IsReadable
  | .evictThenPush row => row.IsReadable
  | .replace lines _ => ∀ line ∈ lines, line.IsReadable
  | .load lines _ _ => ∀ line ∈ lines, line.IsReadable
  | .fit columnCount => columnCount ≤ u16Max
  | .clear => True
  | .take => True

/-- A fit pads into room: a sole row, or blanks on soft-ended rows that fit what is left under the byte cap. -/
def Operation.PadsIntoRoom (scrollback : Scrollback) : Operation → Prop
  | .fit columnCount => scrollback.retainedLines.length ≤ 1 ∨
      scrollback.retainedByteCount + (scrollback.retainedLines.map (·.countPaddingBytes columnCount)).sum ≤
        scrollback.maximumByteCount
  | _ => True

/-- The buffers that operations reach from a new one, every fit padding into room. -/
inductive Reaches : Scrollback → Prop where
  | new (limit : ScrollbackLimit) : Reaches (fromScrollbackLimit limit)
  | step {scrollback later : Scrollback} {op : Operation} (reached : Reaches scrollback)
      (isTyped : op.IsTyped) (padsIntoRoom : op.PadsIntoRoom scrollback)
      (applied : scrollback.applyOperation op = some later) : Reaches later

/-- The invariant of a run: the caps, and rows that read. -/
structure Invariant (scrollback : Scrollback) : Prop where
  bounded : scrollback.Bounded
  readable : ∀ line ∈ scrollback.retainedLines, line.IsReadable

theorem invariant_evictOldestLinesToLimits
    (hby : scrollback.retainedByteCount = computeRetainedByteCount scrollback.retainedLines)
    (hlns : ∀ ln ∈ scrollback.retainedLines, ln.IsReadable) :
    scrollback.evictOldestLinesToLimits.2.Invariant :=
  have ⟨hbo, hk⟩ := bounded_evictOldestLinesToLimits hby
  ⟨hbo, fun ln hln => hlns ln (hk ln hln)⟩

theorem Invariant.push (h : scrollback.Invariant) {row : RowSnapshot} (hro : row.IsReadable) :
    (scrollback.pushRowWithEvicted row).2.Invariant := by
  refine invariant_evictOldestLinesToLimits ?_ ?_
  · simp [h.bounded.byteCount, computeRetainedByteCount]
  · intro ln hln
    rcases mem_append.1 hln with hln | hln
    · exact h.readable ln hln
    · rwa [mem_singleton.1 hln]

theorem mapM_fitLine_spec (hco : columns ≤ u16Max) {lines : List RowSnapshot} (hlns : ∀ ln ∈ lines, ln.IsReadable) :
    ∃ fitted, lines.mapM (fitLine columns) = some fitted ∧ fitted.length = lines.length ∧
      (∀ ln ∈ fitted, ln.IsReadable) ∧ computeRetainedByteCount fitted ≤
        computeRetainedByteCount lines + (lines.map (·.countPaddingBytes columns)).sum := by
  induction lines with
  | nil => exact ⟨[], rfl, rfl, by simp, Nat.le_refl _⟩
  | cons ln lines ih =>
    obtain ⟨hln, hlns⟩ := forall_mem_cons.1 hlns
    obtain ⟨fittedLine, hfit, hreadable, hby⟩ := fitLine_spec hco hln
    obtain ⟨fitted, hft, hlen, hall, hsum⟩ := ih hlns
    refine ⟨fittedLine :: fitted, ?_, by simp [hlen], forall_mem_cons.2 ⟨hreadable, hall⟩, ?_⟩
    · simp [mapM_cons, hfit, hft]
    · rw [retainedByteCount_cons, retainedByteCount_cons, map_cons, sum_cons]
      omega

theorem Invariant.fit (h : scrollback.Invariant) (hco : columns ≤ u16Max)
    (hroom : (Operation.fit columns).PadsIntoRoom scrollback) :
    ∃ later, scrollback.fitLinesToColumnCount columns = some later ∧ later.Invariant := by
  obtain ⟨fitted, hft, hlen, hreadable, hby⟩ := mapM_fitLine_spec hco h.readable
  refine ⟨_, by rw [fitLinesToColumnCount, hft]; rfl, ⟨rfl, ?_, ?_⟩, hreadable⟩
  · have := h.bounded.lineCap
    simpa [hlen] using this
  · rw [← h.bounded.byteCount] at hby
    rcases hroom with hsole | hroom
    · exact .inr (by simpa [hlen] using hsole)
    · exact .inl (le_trans hby hroom)

theorem Invariant.step (h : scrollback.Invariant) {op : Operation} (htyped : op.IsTyped)
    (hroom : op.PadsIntoRoom scrollback) :
    ∃ later, scrollback.applyOperation op = some later ∧ later.Invariant := by
  have hem : ∀ maximumLineCount maximumByteCount pushedCount,
      (Scrollback.mk [] maximumLineCount maximumByteCount 0 pushedCount).Invariant := fun _ _ _ =>
    ⟨⟨rfl, Nat.zero_le _, .inr (Nat.zero_le 1)⟩, by simp⟩
  cases op with
  | push row => exact ⟨_, rfl, h.push htyped⟩
  | evictThenPush row =>
    have hpush := pushRowWithEvicted_evictOldestLine h.bounded.byteCount row
    refine ⟨_, rfl, ?_⟩
    rw [← congrArg Prod.snd hpush]
    exact h.push htyped
  | clear => exact ⟨_, rfl, hem ..⟩
  | take => exact ⟨_, rfl, hem ..⟩
  | replace lines countBefore =>
    have hevicted := @invariant_evictOldestLinesToLimits { scrollback with
      retainedLines := lines
      retainedByteCount := computeRetainedByteCount lines } rfl htyped
    exact ⟨_, rfl, ⟨hevicted.bounded.byteCount, hevicted.bounded.lineCap, hevicted.bounded.byteCap⟩, hevicted.readable⟩
  | load lines limit totalPushedLineCount =>
    exact ⟨_, rfl, invariant_evictOldestLinesToLimits rfl htyped⟩
  | fit columnCount => exact h.fit htyped hroom

theorem Reaches.invariant (h : Reaches scrollback) : scrollback.Invariant := by
  induction h with
  | new limit =>
    refine ⟨⟨rfl, Nat.zero_le _, .inr (Nat.zero_le 1)⟩, fun line hln => ?_⟩
    simp [fromScrollbackLimit] at hln
  | step _ isTyped padsIntoRoom applied ih =>
    obtain ⟨later, happlied, hinvariant⟩ := ih.step isTyped padsIntoRoom
    rwa [some_inj.1 (applied.symm.trans happlied)]

/-- **The caps hold in every buffer that operations reach**, as long as every fit pads into room. There the byte count
is the sum over the rows, no operation panics, and making room ahead of a push changes nothing. -/
theorem reaches_bounded {scrollback : Scrollback} (h : Reaches scrollback) :
    scrollback.Bounded ∧
      (∀ operation : Operation, operation.IsTyped → operation.PadsIntoRoom scrollback →
        (scrollback.applyOperation operation).isSome) ∧
      ∀ row, scrollback.pushRowWithEvicted row =
        (scrollback.evictOldestLineForNextPush.1.toList ++
            (scrollback.evictOldestLineForNextPush.2.pushRowWithEvicted row).1,
          (scrollback.evictOldestLineForNextPush.2.pushRowWithEvicted row).2) := by
  refine ⟨h.invariant.bounded, fun operation htyped hroom => ?_,
    pushRowWithEvicted_evictOldestLine h.invariant.bounded.byteCount⟩
  obtain ⟨later, happlied, -⟩ := h.invariant.step htyped hroom
  rw [happlied, isSome_some]

/-- A soft-ended row of narrow cells in the default style. -/
def buildSoftLine (chars : List Char) : RowSnapshot :=
  .fromRowCells (chars.map fun character => .fromCharacter character 1 .default) ⟨.soft, false⟩

theorem isReadable_buildSoftLine {chars : List Char} (hlen : chars.length ≤ u16Max) :
    (buildSoftLine chars).IsReadable := by
  refine ⟨_, RowSnapshot.readsAs_fromRowCells ?_ (by simpa using hlen) _⟩
  intro c hce
  obtain ⟨char, -, rfl⟩ := List.mem_map.1 hce
  exact ⟨Nat.le_succ 1, Nat.zero_le _⟩

/-- Two rows of two bytes each loaded under a byte cap. -/
def softLinesOperation (maximumByteCount : Nat) : Operation :=
  .load [buildSoftLine ['a', 'b'], buildSoftLine ['c', 'd']] ⟨10, maximumByteCount⟩ 0

theorem isTyped_softLinesOperation (maximumByteCount : Nat) : (softLinesOperation maximumByteCount).IsTyped := by
  intro line hln
  simp only [mem_cons, not_mem_nil, or_false] at hln
  rcases hln with rfl | rfl <;> exact isReadable_buildSoftLine (by decide)

/-- Under a cap of six bytes a fit to three columns has room for both blanks. -/
theorem reaches_bounded_softLines : ∃ loaded scrollback,
    (fromScrollbackLimit ⟨10, 4⟩).applyOperation (softLinesOperation 6) = some loaded ∧
      loaded.applyOperation (.fit 3) = some scrollback ∧ scrollback.retainedByteCount = 6 ∧ scrollback.Bounded := by
  have hload : Reaches (fromStoredLines [buildSoftLine ['a', 'b'], buildSoftLine ['c', 'd']] 10 6 0) :=
    @Reaches.step _ _ (softLinesOperation 6) (.new ⟨10, 4⟩) (isTyped_softLinesOperation 6) trivial rfl
  have htyped : (Operation.fit 3).IsTyped := show 3 ≤ u16Max by decide
  have hroom : Operation.PadsIntoRoom (fromStoredLines [buildSoftLine ['a', 'b'], buildSoftLine ['c', 'd']] 10 6 0)
      (.fit 3) := .inr (by decide +kernel)
  have hbytes : ((fromStoredLines [buildSoftLine ['a', 'b'], buildSoftLine ['c', 'd']] 10 6 0).applyOperation
      (.fit 3)).map (·.retainedByteCount) = some 6 := by decide +kernel
  obtain ⟨scrollback, hfit, hcount⟩ := map_eq_some_iff.1 hbytes
  exact ⟨_, scrollback, rfl, hfit, hcount, (reaches_bounded (hload.step htyped hroom hfit)).1⟩

/-- Padding two soft-ended rows by one blank each leaves both of them, two bytes over the byte cap. -/
theorem fit_exceeds_byteCap :
    (softLinesOperation 4).IsTyped ∧ (Operation.fit 3).IsTyped ∧
      ∃ scrollback, ((fromScrollbackLimit ⟨10, 4⟩).applyOperation (softLinesOperation 4)).bind
          (·.applyOperation (.fit 3)) = some scrollback ∧ scrollback.retainedLines.length = 2 ∧
        scrollback.retainedByteCount = 6 ∧ scrollback.maximumByteCount = 4 ∧ ¬scrollback.Bounded := by
  have hrun : (((fromScrollbackLimit ⟨10, 4⟩).applyOperation (softLinesOperation 4)).bind
      (·.applyOperation (.fit 3))).map (fun scrollback =>
        (scrollback.retainedLines.length, scrollback.retainedByteCount, scrollback.maximumByteCount)) =
      some (2, 6, 4) := by decide +kernel
  obtain ⟨scrollback, hscrollback, hcounts⟩ := map_eq_some_iff.1 hrun
  obtain ⟨hlines, hbytes, hcap⟩ : _ = 2 ∧ _ = 6 ∧ _ = 4 := by simpa using hcounts
  refine ⟨isTyped_softLinesOperation 4, show 3 ≤ u16Max by decide, scrollback, hscrollback, hlines, hbytes, hcap,
    fun hbound => ?_⟩
  rcases hbound.byteCap with hbyteCap | hsole
  · omega
  · omega

end Scrollback

end Koshi.Terminal
