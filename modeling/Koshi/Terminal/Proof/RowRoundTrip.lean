import Mathlib.Tactic
import Koshi.Terminal.Proof.EncodeRun

/-!
# The row encoding round trip

`decodeRowCells` reads the bytes `encodeRowCells` writes as the same row without its image data. The steps
are one run, the runs of a row, and the row with its header and its trailing blanks.
-/

namespace Koshi.Terminal

open Base Koshi.Core List ByteReader

/-! ### Sizes -/

theorem length_le_countRunCells {xs : List RunItem} (hv : ∀ item ∈ xs, item.Valid) : xs.length ≤ countRunCells xs := by
  induction xs with
  | nil => simp
  | cons item xs ih =>
    have ih := ih fun other h => hv other (by simp [h])
    have hpos : 0 < item.countCells := by
      refine Nat.mul_pos ?_ (hv item (by simp)).repeat_pos
      cases item.itemShape <;> simp [ItemShape.countItemCells]
    simp only [countRunCells, map_cons, sum_cons, length_cons] at ih ⊢
    omega

theorem writeItemText_length_le (xs : List RunItem) : (writeItemText xs).length ≤ 4 * xs.length := by
  induction xs with
  | nil => simp [writeItemText]
  | cons item xs ih =>
    have := item.character.utf8Size_le_four
    simp only [writeItemText, flatMap_cons, length_append, String.length_utf8EncodeChar, length_cons] at ih ⊢
    omega

theorem writePayload_length_le {payload : ExceptionPayload} (hv : payload.Valid) :
    payload.writePayload.length ≤ 138 := by
  cases payload with
  | widePair => simp [ExceptionPayload.writePayload]
  | width displayWidth =>
    have := writeVarint_length_le displayWidth
    simp only [ExceptionPayload.writePayload]
    omega
  | combining marks =>
    have := writeVarint_length_le (countUtf8Bytes marks)
    have hby := countUtf8Bytes_le marks
    have hc : marks.length ≤ 32 := hv
    rw [countUtf8Bytes_eq_length] at hby
    simp only [ExceptionPayload.writePayload, length_append]
    omega
  | repeated extraItemCount =>
    have := writeVarint_length_le extraItemCount
    simp only [ExceptionPayload.writePayload]
    omega

theorem writeExceptions_length {previous : Nat} {exceptions : List ItemException}
    (hfrom : ExceptionsFrom previous exceptions) :
    exceptions.length ≤ (writeExceptions previous exceptions).length ∧
      (writeExceptions previous exceptions).length ≤ 158 * exceptions.length := by
  induction exceptions generalizing previous with
  | nil => simp [writeExceptions]
  | cons exception exceptions ih =>
    obtain ⟨-, -, -, hv, hr⟩ := hfrom
    have ih := ih hr
    have hdelta := writeVarint_length_le (exception.itemIndex - previous)
    have hdeltaPosition := writeVarint_length_pos (exception.itemIndex - previous)
    have hki := writeVarint_length_le exception.exceptionKind
    have hpay := writePayload_length_le hv
    rw [writeExceptions]
    simp only [length_append, length_cons]
    omega

theorem listRunExceptions_length_le (xs : List RunItem) (itemIndex : Nat) :
    (listRunExceptions itemIndex xs).length ≤ 3 * xs.length := by
  induction xs generalizing itemIndex with
  | nil => simp [listRunExceptions]
  | cons item xs ih =>
    have hitem : item.listExceptionPayloads.length ≤ 3 := by
      unfold RunItem.listExceptionPayloads
      cases item.itemShape <;> simp only [length_append] <;> split_ifs <;> simp
    have := ih (itemIndex + 1)
    rw [listRunExceptions, length_append, length_map, length_cons]
    omega

/-! ### One run -/

theorem isAscii_of_all_isAsciiByte {xs : List RunItem} (hby : (writeItemText xs).all isAsciiByte) :
    ∀ item ∈ xs, isAscii item.character := by
  intro item hm
  by_contra hascii
  obtain ⟨firstByte, otherBytes, henc, hf⟩ := utf8EncodeChar_of_not_isAscii hascii
  apply hf
  refine List.all_eq_true.1 hby firstByte (mem_flatMap.2 ⟨item, hm, ?_⟩)
  rw [henc]
  exact mem_cons_self

theorem decodeRun_encodeRun {runStyle : Style} {rects : List Cell} (isPlain' : Bool)
    (hstyle : ∀ c ∈ rects, c.style = runStyle) (hcx : ∀ c ∈ rects, c.Encodable) (hln : rects.length ≤ u16Max)
    (hrun : isPlain' → ∀ c ∈ rects, IsPlainAsciiCell c) {styles : List Style} {si : Nat}
    (hidx : styles[si]? = some runStyle) (hindexLe : si ≤ u16Max) (columns content startCell : Nat) (cells : List Cell)
    (hft : cells.length - startCell + rects.length ≤ content) (tail : List UInt8) :
    decodeRun styles columns content startCell ((encodeRun rects si isPlain').1 ++ tail) cells =
      .ok (tail, cells ++ rects.map Cell.dropImageData) ∧
      0 < (encodeRun rects si isPlain').1.length ∧
      (encodeRun rects si isPlain').1.length ≤ 40 + 478 * rects.length := by
  obtain ⟨xs, hwr, hv, hbuild⟩ := encodeRunLoop_writes isPlain' rects.length rects
    (Nat.le_refl _) hstyle hcx hln hrun RunWriter.writes_empty
  rw [nil_append] at hwr
  have hc : countRunCells xs = rects.length := by
    rw [← length_buildRunCells runStyle, hbuild, length_map]
  have hitemsLe := length_le_countRunCells hv
  have htextLe := writeItemText_length_le xs
  have hexceptions := @exceptionsFrom_listRunExceptions 0 _ hv (by omega) 0 (Nat.le_refl 0)
  have hexceptionsLength := writeExceptions_length hexceptions
  have hexceptionsLe := listRunExceptions_length_le xs 0
  unfold u16Max at hln hindexLe
  have hby : (encodeRun rects si isPlain').1 = writeVarint si ++
      (writeVarint rects.length ++ (writeVarint (writeItemText xs).length ++ (writeItemText xs ++
        (writeVarint (listRunExceptions 0 xs).length ++ writeExceptions 0 (listRunExceptions 0 xs))))) := by
    simp only [encodeRun, hwr.text, hwr.exceptions, hwr.count, append_assoc]
  rw [hby]
  refine ⟨?_, ?_, ?_⟩
  · have hki : (if (writeItemText xs).all isAsciiByte then RunTextKind.ascii else .utf8) = .ascii →
        ∀ item ∈ xs, isAscii item.character := by
      intro hascii
      split at hascii
      · next hall => exact isAscii_of_all_isAsciiByte hall
      · simp at hascii
    have hutf8 : (fromUtf8? (writeItemText xs)).isNone = false := by
      have := fromUtf8?_flatMap (xs.map (·.character))
      rw [flatMap_map] at this
      rw [writeItemText, this]
      rfl
    have hloop := decodeRunLoop_items
      ⟨columns, runStyle, if (writeItemText xs).all isAsciiByte then RunTextKind.ascii else .utf8,
        cells.length - startCell + rects.length, startCell⟩ xs (writeItemText xs).length 0
      (cells.length - startCell) tail cells hv hki (Nat.le_refl _) (by unfold u16Max; omega)
      (by simp only; omega)
    have hn := readNextException_writeExceptions hexceptions tail
    simp only [append_assoc, decodeRun, bind, Except.bind, withCells, hidx,
      readVarint_writeVarint (show si < 2 ^ 64 by omega),
      readVarint_writeVarint (show rects.length < 2 ^ 64 by omega),
      readVarint_writeVarint (show (writeItemText xs).length < 2 ^ 64 by omega),
      readBytes_append, if_neg (Nat.not_lt.2 hft), hutf8, Bool.false_eq_true, and_false, if_false,
      readBoundedVarint_writeVarint "exception_count" (show (listRunExceptions 0 xs).length < 2 ^ 64 by omega)
        (show (listRunExceptions 0 xs).length ≤ (writeVarint (listRunExceptions 0 xs).length ++
          (writeExceptions 0 (listRunExceptions 0 xs) ++ tail)).length by
            rw [length_append, length_append]; omega),
      hn, hloop]
    rw [hc, hbuild]
    simp
  · rw [length_append]
    have := writeVarint_length_pos si
    omega
  · have := writeVarint_length_le si
    have := writeVarint_length_le rects.length
    have := writeVarint_length_le (writeItemText xs).length
    have := writeVarint_length_le (listRunExceptions 0 xs).length
    simp only [length_append]
    omega

/-! ### The runs of a row -/

/-- What the loop over the runs adds to `writer` for `cells`: bytes that read back as the cells under any table
that extends the one it ends with. -/
structure RunsWritten (cells : List Cell) (writer result : RunsWriter) (newBytes : List UInt8) (newRuns : Nat) :
    Prop where
  bytes : result.runBytes = writer.runBytes ++ newBytes
  count : result.runCount = writer.runCount + newRuns
  count_le : newRuns ≤ newBytes.length
  length_le : newBytes.length ≤ 518 * cells.length
  valid : result.rowStyleTable.Valid
  grows : writer.rowStyleTable.styles <+: result.rowStyleTable.styles
  styles_le : result.rowStyleTable.styles.length ≤ writer.rowStyleTable.styles.length + cells.length
  decodes : ∀ (columns content startCell : Nat) (rowCells : List Cell) (suffix : List UInt8),
    startCell ≤ rowCells.length →
    rowCells.length - startCell + cells.length ≤ content →
    decodeRuns result.rowStyleTable.styles columns content startCell newRuns
      (newBytes ++ suffix) rowCells = .ok (suffix, rowCells ++ cells.map Cell.dropImageData)

theorem take_countStyleRunCells {isPlain : Bool} {fc : Cell} {fs : List Cell}
    (hpl : isPlain → ∀ c ∈ fc :: fs, c.style = fc.style) :
    0 < countStyleRunCells isPlain fc fs ∧
      countStyleRunCells isPlain fc fs ≤ (fc :: fs).length ∧
      ∀ c ∈ (fc :: fs).take (countStyleRunCells isPlain fc fs), c.style = fc.style := by
  unfold countStyleRunCells
  simp only
  split_ifs with hplainRow
  · exact ⟨by simp, Nat.le_refl _, fun c hm => hpl hplainRow c (mem_of_mem_take hm)⟩
  cases hfi : (fc :: fs).findIdx? (fun c => c.style ≠ fc.style) with
  | none =>
    refine ⟨by simp, by simp, ?_⟩
    intro c hm
    have := List.findIdx?_eq_none_iff.1 hfi c (mem_of_mem_take hm)
    simpa using this
  | some runCellCount =>
    obtain ⟨hlt, hdiffers, hb⟩ := List.findIdx?_eq_some_iff_getElem.1 hfi
    refine ⟨?_, Nat.le_of_lt hlt, ?_⟩
    · rw [Option.getD_some]
      by_contra hz
      obtain rfl : runCellCount = 0 := by omega
      simp at hdiffers
    · intro c hm
      obtain ⟨index, hidx, rfl⟩ := mem_take_iff_getElem.1 hm
      have := hb index (by rw [Option.getD_some] at hidx; omega)
      simpa using this

theorem encodeRuns_written (isPlain : Bool) (ts : Nat) (cells : List Cell) (hturns : cells.length ≤ ts)
    (hcx : ∀ c ∈ cells, c.Encodable)
    (hpl : isPlain → ∀ c ∈ cells, IsPlainAsciiCell c ∧ ∀ other ∈ cells, c.style = other.style) {writer : RunsWriter}
    (hv : writer.rowStyleTable.Valid) (hln : writer.rowStyleTable.styles.length + cells.length ≤ u16Max) :
    ∃ bs newRuns, RunsWritten cells writer (encodeRuns isPlain ts cells writer) bs
      newRuns := by
  induction ts generalizing cells writer with
  | zero =>
    obtain rfl : cells = [] := eq_nil_of_length_eq_zero (by omega)
    exact ⟨[], 0, ⟨by simp [encodeRuns], rfl, by simp, by simp, hv, prefix_refl _, by simp [encodeRuns],
      by simp [decodeRuns]⟩⟩
  | succ ts ih =>
    obtain _ | ⟨fc, fs⟩ := cells
    · exact ⟨[], 0, ⟨by simp [encodeRuns], rfl, by simp, by simp, hv, prefix_refl _, by simp [encodeRuns],
        by simp [decodeRuns]⟩⟩
    · rw [encodeRuns]
      simp only
      obtain ⟨hpos, hle, hrunStyle⟩ := @take_countStyleRunCells isPlain fc fs fun h c hm => (hpl h c hm).2 fc (by simp)
      generalize countStyleRunCells isPlain fc fs = runCellCount at hpos hle hrunStyle ⊢
      obtain ⟨hnextOk, hfo, hgrows, hstylesLe⟩ := hv.findOrAddStyle fc.style
      generalize writer.rowStyleTable.findOrAddStyle fc.style = found at hnextOk hfo hgrows hstylesLe ⊢
      obtain ⟨si, rowStyleTable⟩ := found
      simp only at hnextOk hfo hgrows hstylesLe ⊢
      have hrunLen : ((fc :: fs).take runCellCount).length = runCellCount := by
        rw [length_take]
        omega
      have hrestLength : ((fc :: fs).drop runCellCount).length = (fc :: fs).length - runCellCount := length_drop
      obtain ⟨bs, newRuns, hr⟩ := @ih ((fc :: fs).drop runCellCount) (by omega) (fun c h => hcx c (mem_of_mem_drop h))
        (fun h c hm => ⟨(hpl h c (mem_of_mem_drop hm)).1,
          fun other ho => (hpl h c (mem_of_mem_drop hm)).2 other (mem_of_mem_drop ho)⟩)
        ⟨rowStyleTable, writer.runBytes ++ (encodeRun ((fc :: fs).take runCellCount) si isPlain).1, writer.runCount + 1,
          writer.textByteCount + (encodeRun ((fc :: fs).take runCellCount) si isPlain).2⟩ hnextOk (by simp only; omega)
      generalize encodeRuns isPlain ts _ _ = result at hr ⊢
      have hstylesResult := hr.styles_le
      have hgrowsRest : rowStyleTable.styles <+: result.rowStyleTable.styles := hr.grows
      have hidx : result.rowStyleTable.styles[si]? = some fc.style := by
        obtain ⟨newStyles, hnewStyles⟩ := hgrowsRest
        have hlt : si < rowStyleTable.styles.length := (List.getElem?_eq_some_iff.1 hfo).1
        rw [← hnewStyles, List.getElem?_append_left hlt, hfo]
      have hindexLt := (List.getElem?_eq_some_iff.1 hfo).1
      have hrun := fun columns content startCell rowCells hft tail =>
        decodeRun_encodeRun isPlain hrunStyle (fun c h => hcx c (mem_of_mem_take h)) (by omega)
          (fun h c hm => (hpl h c (mem_of_mem_take hm)).1) hidx (by omega) columns
          content startCell rowCells hft tail
      obtain ⟨-, hbytesPosition, hbytesLe⟩ := hrun 0 runCellCount 0 [] (by simp [hrunLen]) []
      have hcountLe := hr.count_le
      have hlengthLe := hr.length_le
      refine ⟨(encodeRun ((fc :: fs).take runCellCount) si isPlain).1 ++ bs,
        newRuns + 1, ⟨?_, ?_, ?_, ?_, hr.valid, List.IsPrefix.trans hgrows hgrowsRest, ?_, ?_⟩⟩
      · rw [hr.bytes, append_assoc]
      · rw [hr.count]
        simp only
        omega
      · rw [length_append]
        omega
      · rw [length_append]
        omega
      · simp only at hstylesResult
        omega
      · intro columns content startCell rowCells tail hst hft
        obtain ⟨hdecode, -⟩ := hrun columns content startCell rowCells (by omega) (bs ++ tail)
        rw [decodeRuns, append_assoc, hdecode]
        simp only [bind, Except.bind]
        rw [hr.decodes _ _ _ _ _ (by rw [length_append]; omega)
          (by rw [length_append, length_map]; omega), append_assoc, ← map_append,
          take_append_drop]

/-! ### The row -/

theorem splitEncodedRow_writeVarint {bodyBytes : List UInt8} (hbody : bodyBytes.length < 2 ^ 64) :
    splitEncodedRow (writeVarint bodyBytes.length ++ bodyBytes) =
      .ok (writeVarint bodyBytes.length ++ bodyBytes, []) := by
  have hst : (writeVarint bodyBytes.length ++ bodyBytes).length - bodyBytes.length + bodyBytes.length =
      (writeVarint bodyBytes.length ++ bodyBytes).length := by
    rw [length_append]
    omega
  simp only [splitEncodedRow, bind, Except.bind, readVarint_writeVarint hbody, Nat.le_refl, if_true,
    hst, take_length, drop_length]

theorem readRowHeader_writeVarint {bodyByteCount columns blanks : Nat} (rowEnd : RowEnd)
    (hbody : bodyByteCount < 2 ^ 64) (hco : columns ≤ u16Max) (hblks : blanks ≤ columns) (tail : List UInt8) :
    readRowHeader (writeVarint bodyByteCount ++ (writeVarint columns ++
        (writeVarint (computeRowEndCode rowEnd) ++ (writeVarint blanks ++ tail)))) =
      .ok (⟨columns, rowEnd, blanks⟩, tail) := by
  have hbo : columns ≤ 65535 := hco
  simp only [readRowHeader, bind, Except.bind, readVarint_writeVarint hbody,
    readBoundedVarint_writeVarint "column_count" (show columns < 2 ^ 64 by omega) hco,
    readRowEnd_writeVarint,
    readBoundedVarint_writeVarint "trailing_blank_count" (show blanks < 2 ^ 64 by omega) hblks]

structure RowWritten (rowCells : List Cell) (columns : Nat) (rowEnd : RowEnd) (encoded : List UInt8) :
    Prop where
  length_lt : encoded.length < 2 ^ 64
  header : ∃ styleAndRunBytes, readRowHeader encoded =
    .ok (⟨columns, rowEnd, columns - countRowContentCells rowCells⟩, styleAndRunBytes)
  decodes : ∀ lineCells, decodeRowRuns encoded lineCells.length lineCells =
    .ok (⟨columns, rowEnd, columns - countRowContentCells rowCells⟩,
      lineCells ++ (rowCells.take (countRowContentCells rowCells)).map Cell.dropImageData)

theorem encodeRowCellsWith_written {cells : List Cell} (hcx : ∀ c ∈ cells, c.Encodable) (isPlain : Bool)
    (hpl : isPlain → ∀ c ∈ cells, IsPlainAsciiCell c ∧ ∀ other ∈ cells, c.style = other.style) {columns : Nat}
    (hco : cells.length ≤ columns) (hbo : columns ≤ u16Max) (rowEnd : RowEnd) :
    RowWritten cells columns rowEnd (encodeRowCellsWithBuffers cells columns isPlain rowEnd).1 := by
  have hcontentLe := countContentCells_le cells
  obtain ⟨bs, newRuns, hruns⟩ := @encodeRuns_written isPlain (cells.take (countRowContentCells cells)).length
    (cells.take (countRowContentCells cells)) (Nat.le_refl _) (fun c h => hcx c (mem_of_mem_take h))
    (fun h c hm => ⟨(hpl h c (mem_of_mem_take hm)).1,
      fun other ho => (hpl h c (mem_of_mem_take hm)).2 other (mem_of_mem_take ho)⟩)
    ⟨.empty, [], 0, if rowEnd = .hard then 0 else columns - countRowContentCells cells⟩
    RowStyleTable.valid_empty (by rw [length_take]; simp [RowStyleTable.empty]; omega)
  unfold encodeRowCellsWithBuffers
  simp only
  generalize encodeRuns isPlain _ _ _ = writer at hruns ⊢
  have hcontentLen : (cells.take (countRowContentCells cells)).length = countRowContentCells cells := by
    rw [length_take]
    omega
  have hstylesLe := hruns.styles_le
  have hcountLe := hruns.count_le
  have hlenLe := hruns.length_le
  have hby : writer.runBytes = bs := hruns.bytes
  have hc : writer.runCount = newRuns := by rw [hruns.count]; simp
  rw [hcontentLen] at hstylesLe hlenLe
  simp only [RowStyleTable.empty, length_nil, Nat.zero_add] at hstylesLe
  have htable := flatMap_writeStyleEntry_length writer.rowStyleTable.styles
  have hbound' : columns ≤ 65535 := hbo
  rw [hby, hc]
  generalize hbody : writeVarint columns ++ writeVarint (computeRowEndCode rowEnd) ++
    writeVarint (columns - countRowContentCells cells) ++ writeVarint writer.rowStyleTable.styles.length ++
    writer.rowStyleTable.styles.flatMap writeStyleEntry ++ writeVarint newRuns = headBytes
  have hheadLe : headBytes.length ≤ 50 + 60 * 65535 := by
    have := writeVarint_length_le columns
    have := writeVarint_length_le (computeRowEndCode rowEnd)
    have := writeVarint_length_le (columns - countRowContentCells cells)
    have := writeVarint_length_le writer.rowStyleTable.styles.length
    have := writeVarint_length_le newRuns
    rw [← hbody]
    simp only [length_append]
    omega
  have hbodyLt : (headBytes ++ bs).length < 2 ^ 64 := by
    rw [length_append]
    omega
  have hheader : writeVarint (headBytes ++ bs).length ++ (headBytes ++ bs) =
      writeVarint (headBytes ++ bs).length ++ (writeVarint columns ++
        (writeVarint (computeRowEndCode rowEnd) ++ (writeVarint (columns - countRowContentCells cells) ++
          (writeVarint writer.rowStyleTable.styles.length ++
            (writer.rowStyleTable.styles.flatMap writeStyleEntry ++ (writeVarint newRuns ++ bs)))))) := by
    rw [← hbody]
    simp only [append_assoc]
  rw [← length_append, append_assoc]
  refine ⟨?_, ?_, ?_⟩
  · have hprefixLe := writeVarint_length_le (headBytes ++ bs).length
    simp only [length_append] at hprefixLe ⊢
    omega
  · exact ⟨_, by rw [hheader, readRowHeader_writeVarint rowEnd hbodyLt hbo (Nat.sub_le _ _)]⟩
  · intro lineCells
    have hsp := splitEncodedRow_writeVarint hbodyLt
    have hdecodes := hruns.decodes columns (countRowContentCells cells) lineCells.length lineCells []
      (Nat.le_refl _) (by rw [hcontentLen]; omega)
    have hcontentCount : columns - (columns - countRowContentCells cells) = countRowContentCells cells := by omega
    rw [append_nil] at hdecodes
    simp only [decodeRowRuns, bind, Except.bind, withCells, hsp, length_nil, gt_iff_lt, Nat.lt_irrefl, if_false]
    rw [hheader, readRowHeader_writeVarint rowEnd hbodyLt hbo (Nat.sub_le _ _)]
    simp only [readStyleEntries_flatMap, hcontentCount, hdecodes,
      readBoundedVarint_writeVarint "style_count" (show writer.rowStyleTable.styles.length < 2 ^ 64 by omega)
        (show writer.rowStyleTable.styles.length ≤ (writeVarint writer.rowStyleTable.styles.length ++
          (writer.rowStyleTable.styles.flatMap writeStyleEntry ++ (writeVarint newRuns ++ bs))).length by
            simp only [length_append]; omega),
      readBoundedVarint_writeVarint "run_count" (show newRuns < 2 ^ 64 by omega)
        (show newRuns ≤ (writeVarint newRuns ++ bs).length by rw [length_append]; omega)]
    rw [if_neg (by rw [length_append, length_map, hcontentLen]; omega)]
    simp

/-- The bytes of a row whose cells fit a column count read back as the row, padded with blanks, without its
image data. -/
theorem decodeRowCells_encodeRowCellsWith {cells : List Cell} (hcx : ∀ c ∈ cells, c.Encodable) (isPlain : Bool)
    (hpl : isPlain → ∀ c ∈ cells, IsPlainAsciiCell c ∧ ∀ other ∈ cells, c.style = other.style) {columns : Nat}
    (hco : cells.length ≤ columns) (hbo : columns ≤ u16Max) (rowEnd : RowEnd) :
    decodeRowCells (encodeRowCellsWithBuffers cells columns isPlain rowEnd).1 =
      .ok ⟨cells.map Cell.dropImageData ++ List.replicate (columns - cells.length) Cell.buildBlank, rowEnd⟩ := by
  have hcontentLe := countContentCells_le cells
  have hdec := (encodeRowCellsWith_written hcx isPlain hpl hco hbo rowEnd).decodes []
  have hcontentLen : (cells.take (countRowContentCells cells)).length = countRowContentCells cells := by
    rw [length_take]
    omega
  have hdropBlank : Cell.buildBlank.dropImageData = Cell.buildBlank := rfl
  have hmap := congrArg (List.map Cell.dropImageData) (take_countContentCells cells)
  rw [map_append, map_replicate, hdropBlank] at hmap
  unfold decodeRowCells decodeRowRunCellsInto
  rw [hdec, nil_append]
  simp only
  rw [take_of_length_le (by rw [length_map, hcontentLen]; omega), length_map, hcontentLen,
    ← hmap, append_assoc, replicate_append_replicate]
  congr 4
  omega

/-- **A row reads back from its own bytes.** A row of at most `65535` cells whose widths are `0`, `1` or `2` and
whose cells keep to the bound on continuation code points encodes, and the bytes decode to the same row end and
the same cells without their image data. -/
theorem decodeRowCells_encodeRowCells (rowCells : List Cell) (rowEnd : RowEnd) (hlength : rowCells.length ≤ 65535)
    (hwidth : ∀ cell ∈ rowCells, cell.displayWidth = 0 ∨ cell.displayWidth = 1 ∨ cell.displayWidth = 2)
    (hcomb : ∀ cell ∈ rowCells, cell.listCombiningCharacters.length ≤ maxGraphemeContinuationCount) :
    ∃ encodedRowBytes textByteCount, encodeRowCells rowCells rowEnd = some (encodedRowBytes, textByteCount) ∧
      decodeRowCells encodedRowBytes = .ok ⟨rowCells.map Cell.dropImageData, rowEnd⟩ := by
  have hcells : ∀ cell ∈ rowCells, cell.Encodable := by
    intro cell hmem
    refine ⟨?_, hcomb cell hmem⟩
    rcases hwidth cell hmem with h | h | h <;> omega
  have hdecode := decodeRowCells_encodeRowCellsWith hcells false (by simp) (Nat.le_refl _) hlength rowEnd
  rw [Nat.sub_self, replicate_zero, append_nil] at hdecode
  refine ⟨(encodeRowCellsWithBuffers rowCells rowCells.length false rowEnd).1,
    (encodeRowCellsWithBuffers rowCells rowCells.length false rowEnd).2, ?_, hdecode⟩
  exact if_pos hlength

/-- A wide pair, a Kitty placeholder with a diacritic, and an accented letter in a row with a soft end. -/
def mixedRow : List Cell :=
  [.fromCharacter '日' 2 .default, .fromCharacter ' ' 0 .default,
    ⟨' ', some ⟨['\u0305'], some ⟨7, none, some 0, none, none⟩, []⟩, 1, .default⟩,
    ⟨'e', some ⟨['\u0301'], none, [⟨1, 0, 0⟩]⟩, 1, .default⟩]

theorem decodeRowCells_encodeRowCells_mixedRow :
    ∃ encodedRowBytes textByteCount, encodeRowCells mixedRow .soft = some (encodedRowBytes, textByteCount) ∧
      decodeRowCells encodedRowBytes = .ok ⟨[.fromCharacter '日' 2 .default, .fromCharacter ' ' 0 .default,
        .buildBlank, ⟨'e', some ⟨['\u0301'], none, []⟩, 1, .default⟩], .soft⟩ :=
  decodeRowCells_encodeRowCells mixedRow .soft (by decide) (by decide) (by decide)

end Koshi.Terminal
