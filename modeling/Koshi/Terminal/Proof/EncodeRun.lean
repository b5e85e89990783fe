import Mathlib.Tactic
import Koshi.Terminal.Proof.RunItems

/-!
# Encoding a run writes items

What `encodeRunLoop` has written at every turn is the bytes of a list of items whose cells are the cells it
has taken, less their image data. The invariant is `RunWriter.Writes`; the scan over ASCII cells carries
`AsciiScan.Scans` on top of it.
-/

namespace Koshi.Terminal

open Base Koshi.Core List Option Cell RunItem RunWriter ExceptionPayload

/-- The cell without its image data: a Kitty placeholder goes with its continuation code points, native image
fragments go, and a tail that then holds nothing is no tail. -/
def Cell.dropImageData (cell : Cell) : Cell :=
  let combiningCharacters := if cell.hasImagePlaceholder then [] else cell.listCombiningCharacters
  { cell with
    combining := if combiningCharacters = [] then none else some ⟨combiningCharacters, none, []⟩ }

/-- What a row must satisfy to be read back: a width the grid uses, and no more continuation code points than
a cell keeps. -/
structure Cell.Encodable (cell : Cell) : Prop where
  width : cell.displayWidth ≤ 2
  combining : cell.listCombiningCharacters.length ≤ maxGraphemeContinuationCount

variable (character : Char)

theorem foldl_pushCombining (wd : Nat) (style : Style) (combining : List Char) :
    combining.foldl pushCombining (.fromCharacter character wd style) =
      ⟨character, if combining = [] then none else some ⟨combining, none, []⟩, wd, style⟩ := by
  have htail : ∀ (marks wr : List Char), marks.foldl pushCombining
      ⟨character, some ⟨wr, none, []⟩, wd, style⟩ = ⟨character, some ⟨wr ++ marks, none, []⟩, wd, style⟩ := by
    intro marks
    induction marks with
    | nil => intro wr; simp
    | cons mark marks ih =>
      intro wr
      rw [foldl_cons, pushCombining]
      simp only [getD_some]
      rw [ih, append_assoc, singleton_append]
  cases combining with
  | nil => rfl
  | cons mark marks =>
    have hf : pushCombining (.fromCharacter character wd style) mark =
        ⟨character, some ⟨[mark], none, []⟩, wd, style⟩ := rfl
    rw [foldl_cons, hf, htail]
    simp

theorem buildCells_single (cell : Cell) :
    buildCells cell.style ⟨cell.character, .single cell.displayWidth, listEncodedCombiningCharacters cell, 1⟩ =
      [cell.dropImageData] := by
  simp [buildCells, buildItemCells, itemState, foldl_pushCombining, dropImageData, listEncodedCombiningCharacters]

theorem Cell.Encodable.encoded {cell : Cell} (hce : cell.Encodable) :
    (listEncodedCombiningCharacters cell).length ≤ maxGraphemeContinuationCount := by
  unfold listEncodedCombiningCharacters
  split_ifs
  · simp
  · exact hce.combining

/-! ### What a writer holds -/

variable (lastItem : Nat)

def lastExceptionItemIndex (extras : List ItemException) : Nat :=
  extras.foldl (fun _ exception => exception.itemIndex) lastItem

theorem writeExceptions_append (first second : List ItemException) :
    writeExceptions lastItem (first ++ second) = writeExceptions lastItem first ++
      writeExceptions (lastExceptionItemIndex lastItem first) second := by
  induction first generalizing lastItem with
  | nil => rfl
  | cons exception first ih =>
    have hl : lastExceptionItemIndex lastItem (exception :: first) =
        lastExceptionItemIndex exception.itemIndex first := rfl
    rw [cons_append, writeExceptions, writeExceptions, ih, hl]
    simp only [append_assoc]

theorem lastExceptionIndex_concat (extras : List ItemException) (exception : ItemException) :
    lastExceptionItemIndex lastItem (extras ++ [exception]) = exception.itemIndex := by
  simp [lastExceptionItemIndex]

structure RunWriter.WritesWith (writer : RunWriter) (itemText : List UInt8) (extras : List ItemException)
    (itemIndex : Nat) : Prop where
  text : writer.runText = itemText
  exceptions : writer.runExceptions = writeExceptions 0 extras
  count : writer.exceptionCount = extras.length
  previous : writer.previousExceptionItemIndex = lastExceptionItemIndex 0 extras
  index : writer.itemIndex = itemIndex

/-- `writer` holds the bytes of `items`. -/
def RunWriter.Writes (writer : RunWriter) (items : List RunItem) : Prop :=
  writer.WritesWith (writeItemText items) (listRunExceptions 0 items) items.length

theorem RunWriter.writes_empty : empty.Writes [] := ⟨rfl, rfl, rfl, rfl, rfl⟩

theorem RunWriter.WritesWith.writeException {writer : RunWriter} {itemText : List UInt8} {extras : List ItemException}
    {item : Nat} (hwr : writer.WritesWith itemText extras item) (exceptionIndex : Nat) (payload : ExceptionPayload) :
    ((writer.writeExceptionHeader exceptionIndex payload.exceptionKind).finishException
      payload.writePayload).WritesWith itemText (extras ++ [.ofPayload exceptionIndex payload]) item where
  __ := hwr
  exceptions := by
    rw [writeExceptions_append]
    simp [writeExceptionHeader, finishException, hwr.exceptions, hwr.previous, writeExceptions, ItemException.ofPayload]
  count := by
    rw [length_append, ← hwr.count]
    rfl
  previous := by
    rw [lastExceptionIndex_concat]
    rfl

theorem listRunExceptions_plain (chars : List Char) (item : Nat) : listRunExceptions item (chars.map plain) = [] := by
  induction chars generalizing item with
  | nil => rfl
  | cons character chars ih =>
    rw [map_cons, listRunExceptions, ih]
    rfl

theorem writeItemText_append (fst second : List RunItem) :
    writeItemText (fst ++ second) = writeItemText fst ++ writeItemText second := by
  simp [writeItemText]

theorem buildRunCells_append (runStyle : Style) (fst second : List RunItem) :
    buildRunCells runStyle (fst ++ second) = buildRunCells runStyle fst ++ buildRunCells runStyle second := by
  simp [buildRunCells]

/-! ### Plain narrow ASCII cells -/

/-- The cells a run may take in its ASCII scan. -/
def IsPlainAsciiCell (cell : Cell) : Prop := isAscii cell.character ∧ isPlainNarrowCell cell

def plainItems (cells : List Cell) : List RunItem := cells.map fun cell => .plain cell.character

theorem IsPlainAsciiCell.dropImageData {cell : Cell} (hce : IsPlainAsciiCell cell) :
    cell.dropImageData = .fromCharacter cell.character 1 cell.style := by
  have hpl := hce.2
  simp only [isPlainNarrowCell, Bool.and_eq_true, beq_iff_eq, List.isEmpty_iff] at hpl
  obtain ⟨hwd, hcomb⟩ := hpl
  have := buildCells_single cell
  rw [hcomb, hwd] at this
  exact (singleton_injective this).symm

theorem buildRunCells_plainItems {runStyle : Style} {cells : List Cell} (hpl : ∀ cell ∈ cells, IsPlainAsciiCell cell)
    (hstyle : ∀ cell ∈ cells, cell.style = runStyle) :
    buildRunCells runStyle (plainItems cells) = cells.map dropImageData := by
  induction cells with
  | nil => rfl
  | cons cell cells ih =>
    have ih := ih (fun other h => hpl other (by simp [h])) fun other h => hstyle other (by simp [h])
    simp only [buildRunCells, plainItems, map_cons, flatMap_cons] at ih ⊢
    rw [ih, buildCells_plain, (hpl cell (by simp)).dropImageData, hstyle cell (by simp)]
    rfl

theorem writeItemText_plainItems {cells : List Cell} (hpl : ∀ cell ∈ cells, IsPlainAsciiCell cell) :
    writeItemText (plainItems cells) = cells.map fun cell => cell.character.toNat.toUInt8 := by
  rw [writeItemText_of_isAscii]
  · simp [asciiItemBytes, plainItems, plain]
  · intro item hm
    obtain ⟨cell, hce, rfl⟩ := List.mem_map.1 hm
    exact (hpl cell hce).1

theorem RunWriter.Writes.pushAsciiCellText {writer : RunWriter} {items : List RunItem} (hwr : writer.Writes items)
    {ascii : List Cell} (hpl : ∀ cell ∈ ascii, IsPlainAsciiCell cell) :
    { writer.pushAsciiCellText ascii with
      itemIndex := (writer.pushAsciiCellText ascii).itemIndex + ascii.length }.Writes
      (items ++ plainItems ascii) := by
  have hexcept : listRunExceptions 0 (items ++ plainItems ascii) = listRunExceptions 0 items := by
    have : plainItems ascii = (ascii.map (·.character)).map plain := by
      simp [plainItems]
    rw [listRunExceptions_append, this, listRunExceptions_plain, append_nil]
  refine ⟨?_, ?_, ?_, ?_, ?_⟩
  · rw [writeItemText_append, writeItemText_plainItems hpl, ← hwr.text]
    rfl
  · rw [hexcept]
    exact hwr.exceptions
  · rw [hexcept]
    exact hwr.count
  · rw [hexcept]
    exact hwr.previous
  · simp [RunWriter.pushAsciiCellText, hwr.index, plainItems]

/-- The group item of `repeatItemCount` equal plain cells. -/
def repeatedItem (repeatItemCount : Nat) : RunItem := ⟨character, .single 1, [], repeatItemCount⟩

theorem listExceptionPayloads_repeatedItem {repeats : Nat} (hmany : 1 < repeats) :
    (repeatedItem character repeats).listExceptionPayloads = [.repeated (repeats - 1)] := by
  simp [repeatedItem, listExceptionPayloads, hmany]

variable {items : List RunItem}

theorem RunWriter.WritesWith.addItem {writer : RunWriter} {item : RunItem} {itemIndex : Nat}
    (hwr : writer.WritesWith (writeItemText items ++ String.utf8EncodeChar item.character)
      (listRunExceptions 0 items ++ item.listExceptionPayloads.map (.ofPayload items.length)) itemIndex) :
    { writer with itemIndex := items.length + 1 }.Writes (items ++ [item]) := by
  have hexcept : listRunExceptions 0 (items ++ [item]) =
      listRunExceptions 0 items ++ item.listExceptionPayloads.map (.ofPayload items.length) := by
    rw [listRunExceptions_append, Nat.zero_add]
    simp [listRunExceptions]
  have htext : writeItemText (items ++ [item]) = writeItemText items ++ String.utf8EncodeChar item.character := by
    simp [writeItemText]
  refine ⟨?_, ?_, ?_, ?_, ?_⟩
  · rw [htext]
    exact hwr.text
  · rw [hexcept]
    exact hwr.exceptions
  · rw [hexcept]
    exact hwr.count
  · rw [hexcept]
    exact hwr.previous
  · simp

/-- A group of equal cells after single ones is one item with a repeat exception. -/
theorem RunWriter.Writes.writeRepeatedAsciiGroup {writer : RunWriter} {items : List RunItem} (hwr : writer.Writes items)
    {singles group : List Cell} {groupCharacter : Char} (hpl : ∀ cell ∈ singles ++ group, IsPlainAsciiCell cell)
    (hgrp : ∀ cell ∈ group, cell.character = groupCharacter) (hc : minRepeatedItemCount ≤ group.length) :
    (writer.writeRepeatedAsciiGroup (singles ++ group) singles.length).Writes
      (items ++ plainItems singles ++ [repeatedItem groupCharacter group.length]) := by
  unfold minRepeatedItemCount at hc
  obtain ⟨fc, otherCells, rfl⟩ : ∃ fc otherCells, group = fc :: otherCells :=
    exists_cons_of_length_pos (by omega)
  have hf : fc.character = groupCharacter := hgrp fc (by simp)
  have hascii : isAscii groupCharacter := hf ▸ (hpl fc (by simp)).1
  have hsgl := @hwr.pushAsciiCellText _ _ singles fun cell h => hpl cell (by simp [h])
  have hpays : (repeatedItem groupCharacter (fc :: otherCells).length).listExceptionPayloads =
      [.repeated otherCells.length] := listExceptionPayloads_repeatedItem groupCharacter (by omega)
  have hlen : (items ++ plainItems singles).length = writer.itemIndex + singles.length := by
    rw [length_append, hwr.index, plainItems, length_map]
  have htake : (singles ++ fc :: otherCells).take (singles.length + 1) = singles ++ [fc] := by
    rw [take_length_add_append]
    rfl
  have hr : (singles ++ fc :: otherCells).length - singles.length - 1 = otherCells.length := by
    simp only [length_append, length_cons]
    omega
  -- the single cells and the first of the group as text, then the repeat exception
  have htext : (writer.pushAsciiCellText (singles ++ [fc])).WritesWith
      (writeItemText (items ++ plainItems singles) ++ String.utf8EncodeChar groupCharacter)
      (listRunExceptions 0 (items ++ plainItems singles)) writer.itemIndex := by
    refine ⟨?_, hsgl.exceptions, hsgl.count, hsgl.previous, rfl⟩
    rw [← hsgl.text, utf8EncodeChar_of_isAscii hascii, ← hf]
    simp [RunWriter.pushAsciiCellText]
  have hexc := htext.writeException (items ++ plainItems singles).length (.repeated otherCells.length)
  have hitem := @RunWriter.WritesWith.addItem _ _
    (repeatedItem groupCharacter (fc :: otherCells).length) writer.itemIndex (by rw [hpays]; exact hexc)
  unfold RunWriter.writeRepeatedAsciiGroup
  simp only
  rw [htake, hr]
  rw [hlen] at hitem
  exact hitem

/-! ### The scan over ASCII cells -/

theorem sliceCells_append (cells : List Cell) {start midIndex endIndex : Nat} (hst : start ≤ midIndex)
    (hmid : midIndex ≤ endIndex) :
    sliceCells cells start endIndex = sliceCells cells start midIndex ++ sliceCells cells midIndex endIndex := by
  unfold sliceCells
  rw [show endIndex - start = (midIndex - start) + (endIndex - midIndex) by omega, take_add,
    drop_drop, Nat.add_sub_cancel' hst]

theorem sliceCells_zero (cells : List Cell) (endIndex : Nat) : sliceCells cells 0 endIndex = cells.take endIndex := by
  simp [sliceCells]

theorem length_sliceCells (cells : List Cell) {start endIndex : Nat} (hen : endIndex ≤ cells.length) :
    (sliceCells cells start endIndex).length = endIndex - start := by
  simp only [sliceCells, length_take, length_drop]
  omega

theorem mem_of_mem_sliceCells {cells : List Cell} {start endIndex : Nat} {cell : Cell}
    (hm : cell ∈ sliceCells cells start endIndex) : cell ∈ cells.take endIndex := by
  by_cases hle : start ≤ endIndex
  · rw [← sliceCells_zero, sliceCells_append cells (Nat.zero_le start) hle]
    exact mem_append_right _ hm
  · simp [sliceCells, show endIndex - start = 0 by omega] at hm

theorem plainItem_valid : (plain character).Valid where
  width := by
    intro displayWidth hshape
    obtain rfl : 1 = displayWidth := ItemShape.single.inj hshape
    omega
  combining := by simp [plain]
  repeat_pos := Nat.one_pos
  repeat_le := by simp [plain, u16Max]

theorem repeatedItem_valid {repeats : Nat} (hpos : 0 < repeats) (hle : repeats ≤ u16Max) :
    (repeatedItem character repeats).Valid where
  width := (plainItem_valid character).width
  combining := (plainItem_valid character).combining
  repeat_pos := hpos
  repeat_le := hle

/-- The items written so far are valid and stand for the first `cellCount` cells. -/
def WritesCells (writer : RunWriter) (runStyle : Style) (baseItems : List RunItem) (writtenCells : List Cell) : Prop :=
  ∃ items, writer.Writes (baseItems ++ items) ∧ (∀ item ∈ items, item.Valid) ∧
    buildRunCells runStyle items = writtenCells.map dropImageData

section Run

variable {runStyle : Style} {cells : List Cell}

variable {baseItems : List RunItem} {writer : RunWriter} {itemText : List UInt8} {extras : List ItemException}

structure AsciiScan.Scans (runStyle : Style) (cells : List Cell) (baseItems : List RunItem) (scan : AsciiScan) :
    Prop where
  written : WritesCells scan.writer runStyle baseItems (cells.take scan.unwrittenCellIndex)
  unwritten_le : scan.unwrittenCellIndex ≤ scan.groupStartIndex
  group_le : scan.groupStartIndex ≤ scan.cellIndex
  cell_le : scan.cellIndex ≤ cells.length
  plain : ∀ cell ∈ cells.take scan.cellIndex, IsPlainAsciiCell cell
  group : ∀ cell ∈ sliceCells cells scan.groupStartIndex scan.cellIndex, cell.character = scan.groupCharacter

theorem map_dropImageData_group {group : List Cell} {groupChar : Char} (hpl : ∀ cell ∈ group, IsPlainAsciiCell cell)
    (hstyle : ∀ cell ∈ group, cell.style = runStyle) (hgrp : ∀ cell ∈ group, cell.character = groupChar) :
    (repeatedItem groupChar group.length).buildCells runStyle = group.map dropImageData := by
  have hcx : group.map dropImageData = List.replicate group.length (.fromCharacter groupChar 1 runStyle) := by
    rw [eq_replicate_iff]
    refine ⟨length_map _, ?_⟩
    intro cell hm
    obtain ⟨src, hsr, rfl⟩ := List.mem_map.1 hm
    rw [(hpl src hsr).dropImageData, hgrp src hsr, hstyle src hsr]
  rw [hcx, buildCells]
  exact flatten_replicate_singleton

theorem AsciiScan.Scans.writeGroup {scan : AsciiScan} (hscan : scan.Scans runStyle cells baseItems)
    (hstyle : ∀ cell ∈ cells, cell.style = runStyle) (hlen : cells.length ≤ u16Max)
    (hc : scan.cellIndex - scan.groupStartIndex ≥ minRepeatedItemCount) :
    WritesCells (scan.writer.writeRepeatedAsciiGroup (sliceCells cells scan.unwrittenCellIndex scan.cellIndex)
      (scan.groupStartIndex - scan.unwrittenCellIndex)) runStyle baseItems (cells.take scan.cellIndex) := by
  obtain ⟨items, hwr, hv, hbuild⟩ := hscan.written
  have hunwritten := hscan.unwritten_le
  have hgroupLe := hscan.group_le
  have hcellLe := hscan.cell_le
  unfold minRepeatedItemCount at hc
  have hsp := sliceCells_append cells hunwritten hgroupLe
  have htake : cells.take scan.cellIndex = cells.take scan.unwrittenCellIndex ++
      sliceCells cells scan.unwrittenCellIndex scan.cellIndex := by
    rw [← sliceCells_zero, ← sliceCells_zero, ← sliceCells_append cells (Nat.zero_le _) (by omega)]
  have hsingleLen := @length_sliceCells cells scan.unwrittenCellIndex scan.groupStartIndex (by omega)
  have hgroupLength := @length_sliceCells cells scan.groupStartIndex scan.cellIndex hcellLe
  have hpl : ∀ cell ∈ sliceCells cells scan.unwrittenCellIndex scan.groupStartIndex ++
      sliceCells cells scan.groupStartIndex scan.cellIndex, IsPlainAsciiCell cell := by
    intro cell hm
    rw [← hsp] at hm
    exact hscan.plain cell (mem_of_mem_sliceCells hm)
  have hstyles : ∀ cell ∈ sliceCells cells scan.unwrittenCellIndex scan.groupStartIndex ++
      sliceCells cells scan.groupStartIndex scan.cellIndex, cell.style = runStyle := by
    intro cell hm
    rw [← hsp] at hm
    exact hstyle cell (mem_of_mem_take (mem_of_mem_sliceCells hm))
  have hgrp := hwr.writeRepeatedAsciiGroup hpl hscan.group (by unfold minRepeatedItemCount; omega)
  rw [← hsp, hsingleLen] at hgrp
  refine ⟨items ++ plainItems (sliceCells cells scan.unwrittenCellIndex scan.groupStartIndex) ++
    [repeatedItem scan.groupCharacter (sliceCells cells scan.groupStartIndex scan.cellIndex).length], ?_, ?_, ?_⟩
  · simpa using hgrp
  · intro item hm
    simp only [mem_append, mem_singleton, plainItems, List.mem_map] at hm
    rcases hm with (hm | ⟨cell, -, rfl⟩) | rfl
    · exact hv item hm
    · exact plainItem_valid cell.character
    · exact repeatedItem_valid _ (by omega) (by omega)
  · rw [buildRunCells_append, buildRunCells_append, hbuild, htake, hsp, map_append, map_append,
      buildRunCells_plainItems (fun cell h => hpl cell (by simp [h])) fun cell h => hstyles cell (by simp [h]),
      ← map_dropImageData_group (fun cell h => hpl cell (by simp [h])) (fun cell h => hstyles cell (by simp [h]))
        hscan.group, append_assoc]
    simp [buildRunCells]

/-- The scan keeps its invariant and stops before the first cell that is not plain. -/
theorem AsciiScan.Scans.scanAsciiCells {baseItems : List RunItem} (isPlain : Bool)
    (hstyle : ∀ cell ∈ cells, cell.style = runStyle) (hlen : cells.length ≤ u16Max)
    (hrun : isPlain → ∀ cell ∈ cells, IsPlainAsciiCell cell) (after : List Cell) {scan : AsciiScan}
    (hscan : scan.Scans runStyle cells baseItems) (hnext : after = cells.drop scan.cellIndex) :
    (Terminal.scanAsciiCells isPlain cells after scan).Scans runStyle cells baseItems := by
  induction after generalizing scan with
  | nil => exact hscan
  | cons asciiCell after ih =>
    have hlt : scan.cellIndex < cells.length := by
      have := congrArg List.length hnext
      simp only [length_cons, length_drop] at this
      omega
    have hg : cells[scan.cellIndex]? = some asciiCell := by
      rw [← List.head?_drop, ← hnext]
      rfl
    have htakeSucc : cells.take (scan.cellIndex + 1) = cells.take scan.cellIndex ++ [asciiCell] := by
      rw [take_add_one, hg]
      rfl
    have hnextFollowing : after = cells.drop (scan.cellIndex + 1) := by
      rw [← tail_drop, ← hnext]
      rfl
    rw [Terminal.scanAsciiCells]
    simp only
    have hslice : sliceCells cells scan.cellIndex (scan.cellIndex + 1) = [asciiCell] := by
      rw [sliceCells, ← hnext, Nat.add_sub_cancel_left]
      rfl
    split_ifs with hstop hnew hwr
    · exact hscan
    all_goals
      have hce : IsPlainAsciiCell asciiCell := by
        cases hplainRun : isPlain with
        | true => exact hrun hplainRun asciiCell (mem_of_getElem? hg)
        | false => simpa [hplainRun, IsPlainAsciiCell] using hstop
      have hpl : ∀ cell ∈ cells.take (scan.cellIndex + 1), IsPlainAsciiCell cell := by
        intro cell hm
        rw [htakeSucc, mem_append, mem_singleton] at hm
        rcases hm with hm | rfl
        · exact hscan.plain cell hm
        · exact hce
    · -- the group before is long enough, and is written
      refine ih ⟨hscan.writeGroup hstyle hlen hwr, Nat.le_refl _, Nat.le_succ _, hlt, hpl, ?_⟩ hnextFollowing
      simp [hslice]
    · -- a short group stays unwritten
      refine ih ⟨hscan.written, ?_, Nat.le_succ _, hlt, hpl, ?_⟩ hnextFollowing
      · exact Nat.le_trans hscan.unwritten_le hscan.group_le
      · simp [hslice]
    · -- the group goes on
      have hs : asciiCell.character = scan.groupCharacter := not_not.1 hnew
      refine ih ⟨hscan.written, hscan.unwritten_le, Nat.le_succ_of_le hscan.group_le, hlt, hpl, ?_⟩ hnextFollowing
      intro cell hm
      rw [sliceCells_append cells hscan.group_le (Nat.le_succ scan.cellIndex), hslice, mem_append, mem_singleton] at hm
      rcases hm with hm | rfl
      · exact hscan.group cell hm
      · exact hs

theorem AsciiScan.Scans.finishAsciiScan {scan : AsciiScan} (hscan : scan.Scans runStyle cells baseItems)
    (hstyle : ∀ cell ∈ cells, cell.style = runStyle) (hlen : cells.length ≤ u16Max) :
    WritesCells (Terminal.finishAsciiScan cells scan) runStyle baseItems (cells.take scan.cellIndex) := by
  unfold Terminal.finishAsciiScan
  simp only
  split_ifs with hwrite
  · obtain ⟨items, hwr, hv, hbuild⟩ := hscan.writeGroup hstyle hlen hwrite
    exact ⟨items, ⟨hwr.text, hwr.exceptions, hwr.count, hwr.previous, hwr.index⟩, hv, hbuild⟩
  · obtain ⟨items, hwr, hv, hbuild⟩ := hscan.written
    have hle : scan.unwrittenCellIndex ≤ scan.cellIndex := Nat.le_trans hscan.unwritten_le hscan.group_le
    have hpl : ∀ cell ∈ sliceCells cells scan.unwrittenCellIndex scan.cellIndex, IsPlainAsciiCell cell :=
      fun cell hm => hscan.plain cell (mem_of_mem_sliceCells hm)
    have hsgl := hwr.pushAsciiCellText hpl
    rw [length_sliceCells cells hscan.cell_le] at hsgl
    refine ⟨items ++ plainItems (sliceCells cells scan.unwrittenCellIndex scan.cellIndex), ?_, ?_, ?_⟩
    · rw [← append_assoc]
      exact ⟨hsgl.text, hsgl.exceptions, hsgl.count, hsgl.previous, hsgl.index⟩
    · intro item hm
      simp only [mem_append, plainItems, List.mem_map] at hm
      rcases hm with hm | ⟨cell, -, rfl⟩
      · exact hv item hm
      · exact plainItem_valid cell.character
    · rw [buildRunCells_append, hbuild, buildRunCells_plainItems hpl fun cell h =>
        hstyle cell (mem_of_mem_take (mem_of_mem_sliceCells h)), ← map_append, ← sliceCells_zero,
        ← sliceCells_append cells (Nat.zero_le _) hle, sliceCells_zero]

/-! ### Items that are not plain ASCII -/

theorem dropImageData_of_isCellEncodingEqual {fc secondCell : Cell} (hequal : isCellEncodingEqual fc secondCell)
    (hstyle : fc.style = secondCell.style) :
    fc.dropImageData = secondCell.dropImageData := by
  simp only [isCellEncodingEqual, Bool.and_eq_true, beq_iff_eq] at hequal
  obtain ⟨⟨hchar, hwd⟩, hcomb⟩ := hequal
  have hs : [fc.dropImageData] = [secondCell.dropImageData] := by
    rw [← buildCells_single, ← buildCells_single, hchar, hwd, hcomb, hstyle]
  exact singleton_injective hs

variable {firstCells laterCells : List Cell}

theorem map_dropImageData_of_isItemEncodingEqual (hequal : isItemEncodingEqual firstCells laterCells)
    (hlen : firstCells.length = laterCells.length) (hf : ∀ cell ∈ firstCells, cell.style = runStyle)
    (hse : ∀ cell ∈ laterCells, cell.style = runStyle) :
    firstCells.map dropImageData = laterCells.map dropImageData := by
  induction firstCells generalizing laterCells with
  | nil => rw [eq_nil_of_length_eq_zero hlen.symm]
  | cons fc firstCells ih =>
    obtain _ | ⟨secondCell, laterCells⟩ := laterCells
    · simp at hlen
    · simp only [isItemEncodingEqual, zip_cons_cons, all_cons, Bool.and_eq_true] at hequal
      rw [map_cons, map_cons, dropImageData_of_isCellEncodingEqual hequal.1
          ((hf fc (by simp)).trans (hse secondCell (by simp)).symm),
        ih hequal.2 (by simpa using hlen) (fun cell h => hf cell (by simp [h])) fun cell h => hse cell (by simp [h])]

theorem countRepeatedItems_spec {row : List Cell} (ts : Nat) (after : List Cell)
    (hitem : ∀ cell ∈ row, cell.style = runStyle) (hnext : ∀ cell ∈ after, cell.style = runStyle) :
    row.length * countRepeatedItems row ts after ≤ after.length ∧
      (after.take (row.length * countRepeatedItems row ts after)).map dropImageData =
        (List.replicate (countRepeatedItems row ts after) (row.map dropImageData)).flatten := by
  induction ts generalizing after with
  | zero => simp [countRepeatedItems]
  | succ ts ih =>
    rw [countRepeatedItems]
    split_ifs with hn
    · obtain ⟨hle, hequal⟩ := hn
      obtain ⟨hc, hcx⟩ := ih (after.drop row.length) fun cell h =>
        hnext cell (mem_of_mem_drop h)
      rw [length_drop] at hc
      refine ⟨by rw [Nat.mul_add, Nat.mul_one]; omega, ?_⟩
      rw [Nat.mul_add, Nat.mul_one, take_add, map_append, hcx,
        ← map_dropImageData_of_isItemEncodingEqual hequal (by rw [length_take]; omega) hitem
          fun cell h => hnext cell (mem_of_mem_take h),
        Nat.add_comm 1, replicate_succ, flatten_cons]
    · simp

theorem countItemRepeats_spec {row after : List Cell} (hitem : ∀ cell ∈ row, cell.style = runStyle)
    (hnext : ∀ cell ∈ after, cell.style = runStyle) :
    0 < countItemRepeats row after ∧
      row.length * countItemRepeats row after ≤ (row ++ after).length ∧
      ((row ++ after).take (row.length * countItemRepeats row after)).map dropImageData =
        (List.replicate (countItemRepeats row after) (row.map dropImageData)).flatten := by
  obtain ⟨hc, hcx⟩ := countRepeatedItems_spec after.length after hitem hnext
  unfold countItemRepeats
  simp only
  rw [length_append]
  split_ifs
  · simp
  · refine ⟨by omega, by rw [Nat.mul_add, Nat.mul_one]; omega, ?_⟩
    rw [Nat.mul_add, Nat.mul_one, take_length_add_append, map_append, hcx, Nat.add_comm 1, replicate_succ, flatten_cons]

theorem RunWriter.WritesWith.writeShapeException {item : Nat} (hwr : writer.WritesWith itemText extras item)
    (isPair : Bool) (wd : Nat) :
    (writer.writeShapeException isPair wd).WritesWith itemText
      (extras ++ (if isPair then [.widePair] else if wd = 1 then [] else
        [.width wd]).map (.ofPayload item)) item := by
  unfold RunWriter.writeShapeException
  rw [hwr.index]
  by_cases hpr : isPair
  · simpa [hpr, exceptionKind, writePayload] using hwr.writeException item .widePair
  · by_cases hwd : wd = 1
    · simpa [hpr, hwd] using hwr
    · simpa [hpr, hwd, exceptionKind, writePayload] using hwr.writeException item (.width wd)

theorem RunWriter.WritesWith.writeCombiningException {item : Nat} (hwr : writer.WritesWith itemText extras item)
    (combining : List Char) :
    (writer.writeCombiningException combining).WritesWith itemText
      (extras ++ (if combining = [] then [] else [.combining combining]).map (.ofPayload item)) item := by
  unfold RunWriter.writeCombiningException
  rw [hwr.index]
  by_cases hnone : combining = []
  · simpa [hnone] using hwr
  · simpa [hnone, exceptionKind, writePayload] using hwr.writeException item (.combining combining)

theorem RunWriter.WritesWith.writeRepeatException {item : Nat} (hwr : writer.WritesWith itemText extras item)
    (repeats : Nat) :
    (writer.writeRepeatException repeats).WritesWith itemText
      (extras ++ (if repeats > 1 then [.repeated (repeats - 1)] else []).map (.ofPayload item)) item := by
  unfold RunWriter.writeRepeatException
  rw [hwr.index]
  by_cases hmany : repeats > 1
  · simpa [hmany, exceptionKind, writePayload] using hwr.writeException item (.repeated (repeats - 1))
  · simpa [hmany] using hwr

def encodedItem (base : Cell) (after : List Cell) : RunItem :=
  let isPair := isWidePairItem base after
  let itemCellCount := if isPair then 2 else 1
  ⟨base.character, if isPair then .widePair else .single base.displayWidth,
    listEncodedCombiningCharacters base,
    countItemRepeats ((base :: after).take itemCellCount) ((base :: after).drop itemCellCount)⟩

theorem encodeItem_writes (hwr : writer.Writes items) (base : Cell) (after : List Cell) :
    (encodeItem base after writer).2.Writes (items ++ [encodedItem base after]) := by
  unfold encodeItem
  simp only
  generalize (if base.displayWidth ≠ 0 then _ else _ : Nat) = textByteCount
  have htext : ({ writer with
      runText := writer.runText ++ String.utf8EncodeChar base.character
      textByteCount } : RunWriter).WritesWith
      (writeItemText items ++ String.utf8EncodeChar base.character) (listRunExceptions 0 items) items.length :=
    ⟨by rw [← hwr.text], hwr.exceptions, hwr.count, hwr.previous, hwr.index⟩
  have hexcept := ((htext.writeShapeException (isWidePairItem base after)
    base.displayWidth).writeCombiningException (listEncodedCombiningCharacters base)).writeRepeatException
      (encodedItem base after).repeatItemCount
  have hpays : (encodedItem base after).listExceptionPayloads =
      (if isWidePairItem base after then [.widePair] else if base.displayWidth = 1 then [] else
        [.width base.displayWidth]) ++
      (if listEncodedCombiningCharacters base = [] then [] else
        [.combining (listEncodedCombiningCharacters base)]) ++
      (if (encodedItem base after).repeatItemCount > 1 then
        [.repeated ((encodedItem base after).repeatItemCount - 1)] else []) := by
    unfold listExceptionPayloads
    congr 2
    unfold encodedItem
    cases isWidePairItem base after <;> rfl
  rw [append_assoc, append_assoc, ← map_append, ← map_append, ← append_assoc, ← hpays]
    at hexcept
  have hitem := @RunWriter.WritesWith.addItem _ _ (encodedItem base after) _ hexcept
  rw [← hexcept.index] at hitem
  exact hitem

theorem encodeItem_fst (base : Cell) (after : List Cell) (writer : RunWriter) :
    (encodeItem base after writer).1 = (encodedItem base after).countCells := by
  unfold encodeItem encodedItem countCells
  cases isWidePairItem base after <;> rfl

variable {after : List Cell}

variable {base : Cell}

section

variable (hstyle : ∀ cell ∈ base :: after, cell.style = runStyle)

include hstyle

theorem buildItemCells_encodedItem :
    buildItemCells base.character ((encodedItem base after).itemState none) runStyle =
      ((base :: after).take (if isWidePairItem base after then 2 else 1)).map dropImageData := by
  obtain rfl : base.style = runStyle := hstyle base (by simp)
  have hbase := buildCells_single base
  simp only [buildCells, itemState, replicate_one, flatten_singleton] at hbase
  cases hpr : isWidePairItem base after with
  | false =>
    simp only [encodedItem, itemState, hpr]
    exact hbase
  | true =>
    simp only [isWidePairItem, Bool.and_eq_true, beq_iff_eq, any_eq_true_iff_get] at hpr
    obtain ⟨hwd, hso, hcontinuation⟩ := hpr
    obtain _ | ⟨rightCell, after⟩ := after
    · simp at hso
    · have hright : rightCell.dropImageData = .fromCharacter ' ' 0 base.style := by
        simp only [List.head?_cons, get_some, isStandardContinuationCell, Bool.and_eq_true, beq_iff_eq,
          List.isEmpty_iff] at hcontinuation
        obtain ⟨⟨hz, hspace⟩, hnone⟩ := hcontinuation
        have := buildCells_single rightCell
        rw [hz, hspace, hnone, hstyle rightCell (by simp)] at this
        exact (singleton_injective this).symm
      have hpr : isWidePairItem base (rightCell :: after) = true := by
        simpa [isWidePairItem, hwd] using hcontinuation
      simp only [buildItemCells, hwd, reduceCtorEq, if_false] at hbase
      simp only [encodedItem, itemState, hpr, if_true, buildItemCells, take_succ_cons,
        take_zero, map_cons, map_nil, hright, singleton_injective hbase]

theorem encodedItem_cells :
    0 < (encodedItem base after).repeatItemCount ∧
      (encodedItem base after).repeatItemCount ≤ (encodedItem base after).countCells ∧
      (encodedItem base after).countCells ≤ (base :: after).length ∧
      (encodedItem base after).buildCells runStyle =
        ((base :: after).take (encodedItem base after).countCells).map dropImageData := by
  have hbuild := buildItemCells_encodedItem hstyle
  have hc : (encodedItem base after).itemShape.countItemCells =
      ((base :: after).take (if isWidePairItem base after then 2 else 1)).length := by
    have := congrArg List.length hbuild
    rw [length_map] at this
    rw [← this]
    unfold buildItemCells itemState
    cases (encodedItem base after).itemShape <;> rfl
  have hitemCells : ∀ cell ∈ (base :: after).take (if isWidePairItem base after then 2 else 1),
      cell.style = runStyle := fun cell h => hstyle cell (mem_of_mem_take h)
  obtain ⟨hpos, hle, hcx⟩ := @countItemRepeats_spec _ _
    ((base :: after).drop (if isWidePairItem base after then 2 else 1)) hitemCells
    fun cell h => hstyle cell (mem_of_mem_drop h)
  rw [take_append_drop, ← hc] at hle hcx
  have hshape : 0 < (encodedItem base after).itemShape.countItemCells := by
    cases (encodedItem base after).itemShape <;> simp [ItemShape.countItemCells]
  refine ⟨hpos, Nat.le_mul_of_pos_left _ hshape, hle, ?_⟩
  rw [buildCells, countCells]
  refine Eq.trans ?_ hcx.symm
  rw [← hbuild]
  rfl

theorem encodedItem_spec (hce : base.Encodable) (hlen : (base :: after).length ≤ u16Max) :
    (encodedItem base after).Valid ∧
      0 < (encodedItem base after).countCells ∧
      (encodedItem base after).countCells ≤ (base :: after).length ∧
      (encodedItem base after).buildCells runStyle =
        ((base :: after).take (encodedItem base after).countCells).map dropImageData := by
  obtain ⟨hpos, hrepeats, hle, hcx⟩ := encodedItem_cells hstyle
  refine ⟨⟨?_, hce.encoded, hpos, hrepeats.trans (hle.trans hlen)⟩, hpos.trans_le hrepeats, hle, hcx⟩
  intro width hsgl
  simp only [encodedItem] at hsgl
  split at hsgl
  · simp at hsgl
  · rw [← ItemShape.single.inj hsgl]
    exact hce.width

end

/-! ### The loop over a run -/

theorem WritesCells.append (hv : ∀ item ∈ items, item.Valid)
    (hbuild : buildRunCells runStyle items = firstCells.map dropImageData)
    (hwr : WritesCells writer runStyle (baseItems ++ items) laterCells) :
    WritesCells writer runStyle baseItems (firstCells ++ laterCells) := by
  obtain ⟨moreItems, hmore, hmoreOk, hmoreBuild⟩ := hwr
  refine ⟨items ++ moreItems, by rwa [← append_assoc], ?_, ?_⟩
  · intro item hm
    rcases mem_append.1 hm with hm | hm
    · exact hv item hm
    · exact hmoreOk item hm
  · rw [buildRunCells_append, hbuild, hmoreBuild, map_append]

/-- **The loop over a run writes items that stand for the run's cells**, less their image data. -/
theorem encodeRunLoop_writes (isPlain : Bool) (ts : Nat) (cells : List Cell) (hturns : cells.length ≤ ts)
    (hstyle : ∀ cell ∈ cells, cell.style = runStyle) (hcx : ∀ cell ∈ cells, cell.Encodable)
    (hlen : cells.length ≤ u16Max) (hrun : isPlain → ∀ cell ∈ cells, IsPlainAsciiCell cell)
    (hwr : writer.Writes baseItems) :
    WritesCells (encodeRunLoop isPlain ts cells writer) runStyle baseItems cells := by
  induction ts generalizing cells writer baseItems with
  | zero =>
    obtain rfl : cells = [] := eq_nil_of_length_eq_zero (by omega)
    exact ⟨[], by rwa [append_nil], by simp, rfl⟩
  | succ ts ih =>
    obtain _ | ⟨base, after⟩ := cells
    · exact ⟨[], by rwa [append_nil], by simp, rfl⟩
    · rw [encodeRunLoop]
      simp only
      have hscan := @AsciiScan.Scans.scanAsciiCells _ _ baseItems isPlain hstyle hlen hrun
        (base :: after) ⟨0, 0, 0, '\x00', writer⟩
        ⟨⟨[], by rwa [append_nil], by simp, rfl⟩, Nat.le_refl 0, Nat.le_refl 0, Nat.zero_le _, by simp,
          by simp [sliceCells]⟩ rfl
      generalize Terminal.scanAsciiCells isPlain (base :: after) (base :: after)
        ⟨0, 0, 0, '\x00', writer⟩ = scan at hscan ⊢
      -- what is left after the cells this turn takes
      have hr : ∀ {taken : Nat} {items : List RunItem} {nextWriter : RunWriter}, 0 < taken →
          nextWriter.Writes (baseItems ++ items) → (∀ item ∈ items, item.Valid) →
          buildRunCells runStyle items = ((base :: after).take taken).map dropImageData →
          WritesCells (encodeRunLoop isPlain ts ((base :: after).drop taken)
            nextWriter) runStyle baseItems (base :: after) := by
        intro taken items nextWriter hpos hn hv hbuild
        rw [← take_append_drop taken (base :: after)]
        refine WritesCells.append hv hbuild ?_
        rw [take_append_drop]
        refine ih _ ?_ (fun cell h => hstyle cell (mem_of_mem_drop h)) (fun cell h => hcx cell (mem_of_mem_drop h)) ?_
          (fun h cell hm => hrun h cell (mem_of_mem_drop hm)) hn
        · rw [length_drop]
          omega
        · rw [length_drop]
          omega
      split_ifs with hpos
      · obtain ⟨items, hitems, hv, hbuild⟩ := hscan.finishAsciiScan hstyle hlen
        exact hr hpos hitems hv hbuild
      · obtain ⟨hv, htk, -, hbuild⟩ := encodedItem_spec hstyle (hcx base (by simp)) hlen
        have hitem := encodeItem_writes hwr base after
        rw [← encodeItem_fst _ _ writer] at htk hbuild
        exact hr htk hitem (by simpa using hv) (by simpa [buildRunCells] using hbuild)

end Run

end Koshi.Terminal
