import Mathlib.Tactic
import Koshi.Terminal.Proof.KeptLine

/-!
# Keeping rows is a re-wrap

The shortcut for a resize that keeps the width reads each row once, and the re-wrap unwinds and wraps every line. Run
side by side, the shortcut is ahead of the re-wrap by the rows of the line that has not ended yet; at a hard end the
two outputs meet.
-/

namespace Koshi.Terminal

open Base Koshi.Core List Option CellRow KeptRowReflow ReflowOutput RewrapState

/-! ### One kept row -/

namespace KeptRowReflow

def pushCellRow (kept : KeptRowReflow) (row : CellRow) : Option KeptRowReflow :=
  (kept.pushKeptRow row.rowMetadata (countRowContentCells row.rowCells) (isWideGlyphFirst row.rowCells)
    (row.rowCells.getLast? == some (.buildBlankWithStyle kept.reflowOutput.backgroundStyle))).map
      fun (rowCellCount, kept) =>
      kept.pushRewrappedRow ⟨row.toSnapshot, rowCellCount⟩

def placeCursor (kept : KeptRowReflow) (physicalRow column : Nat) : KeptRowReflow :=
  { kept with reflowOutput := { kept.reflowOutput with
    newCursorPhysicalRowIndex := physicalRow
    newCursorColumnIndex := column } }

def addRow (kept : KeptRowReflow) (row : CellRow) : KeptRowReflow :=
  let reflowOutput := { kept.reflowOutput with
    sourceRows := kept.reflowOutput.sourceRows ++ [⟨kept.reflowOutput.rewrappedLineShapes.length,
      kept.currentLineCellCount, row.content.length, row.rowMetadata.rowEnd⟩]
    rewrappedRowContentCellCounts := kept.reflowOutput.rewrappedRowContentCellCounts ++ [row.content.length]
    rewrappedRows := kept.reflowOutput.rewrappedRows ++ [row.toRewrappedRow] }
  if row.rowMetadata.rowEnd = .hard then
    let indexAfter := kept.reflowOutput.sourceRows.length + 1
    ⟨{ reflowOutput with rewrappedLineShapes := kept.reflowOutput.rewrappedLineShapes ++
        [⟨kept.currentLineFirstRowIndex, indexAfter - kept.currentLineFirstRowIndex⟩] },
      indexAfter, 0, .hard⟩
  else
    ⟨reflowOutput, kept.currentLineFirstRowIndex, kept.currentLineCellCount + row.content.length,
      row.rowMetadata.rowEnd⟩

end KeptRowReflow

section

variable {columns : Nat} {bg : Style} {row : CellRow}

theorem isWideGlyphFirst_content (hco : 2 ≤ columns) (hwd : row.rowCells.length = columns) :
    isWideGlyphFirst row.rowCells = true → isWideGlyphFirst row.content = true := by
  intro hwide
  obtain ⟨fc, restCells, hcx⟩ := exists_cons_of_length_pos (show 0 < row.rowCells.length by omega)
  have hwidth2 : fc.displayWidth = 2 := by simpa [hcx, isWideGlyphFirst] using hwide
  have htake : ∀ count, 0 < count → isWideGlyphFirst (row.rowCells.take count) = true := by
    intro count hc
    obtain ⟨count, rfl⟩ := Nat.exists_eq_succ_of_ne_zero hc.ne'
    simp [hcx, isWideGlyphFirst, hwidth2]
  cases hen : row.rowMetadata.rowEnd with
  | soft => rwa [content_soft hen]
  | softWide =>
    rw [content_softWide hen]
    exact htake _ (by omega)
  | hard =>
    rw [content_hard hen]
    refine htake _ (Nat.pos_of_ne_zero fun hz => ?_)
    have hblk := countContentCells_le_iff.1 hz.le fc (by simp [hcx])
    rw [hblk] at hwidth2
    exact absurd hwidth2 (by decide)

theorem KeptRowReflow.pushCellRow_eq_some {kept next : KeptRowReflow} (hco : 2 ≤ kept.reflowOutput.columnCount)
    (hwd : row.rowCells.length = kept.reflowOutput.columnCount) (h : kept.pushCellRow row = some next) :
    (row.rowMetadata.rowEnd = .softWide →
        row.rowCells.getLast? = some (.buildBlankWithStyle kept.reflowOutput.backgroundStyle)) ∧
      row.Follows kept.previousRowEnd ∧ next = kept.addRow row := by
  obtain ⟨⟨rowCellCount, pushed⟩, hpush, rfl⟩ := map_eq_some_iff.1 h
  simp only [pushKeptRow] at hpush
  split_ifs at hpush with hrefused hhard
  · -- a hard end
    obtain ⟨rfl, rfl⟩ := Prod.mk.inj (some_inj.1 hpush)
    have hct := row.length_content_hard hhard
    obtain ⟨hfw, -⟩ := not_or.1 (fun hor => hrefused (Bool.or_eq_true_iff.2 hor))
    refine ⟨fun hsoft => absurd (hsoft.symm.trans hhard) (by decide), ?_, ?_⟩
    · simp only [hhard] at hfw
      cases hprev : kept.previousRowEnd with
      | hard => trivial
      | soft =>
        simp only [hprev, Bool.not_eq_true', decide_eq_false_iff_not, not_not] at hfw
        exact length_pos_iff.1 (by omega)
      | softWide =>
        simp only [hprev, Bool.not_eq_true', Bool.not_eq_false] at hfw
        exact isWideGlyphFirst_content hco hwd hfw
    · simp [addRow, pushRewrappedRow, hhard, pushSourceRow, toRewrappedRow, countKeptCells, hct]
  · -- a soft end
    obtain ⟨rfl, rfl⟩ := Prod.mk.inj (some_inj.1 hpush)
    obtain ⟨hfw, hspacer⟩ := not_or.1 (fun hor => hrefused (Bool.or_eq_true_iff.2 hor))
    have hpos := length_content_pos hwd hco hhard
    refine ⟨fun hsoft => by simpa [hsoft] using hspacer, ?_, ?_⟩
    · cases hprev : kept.previousRowEnd with
      | hard => trivial
      | soft => exact length_pos_iff.1 hpos
      | softWide =>
        simp only [hprev, Bool.not_eq_true', Bool.not_eq_false] at hfw
        exact isWideGlyphFirst_content hco hwd hfw
    · cases hen : row.rowMetadata.rowEnd with
      | hard => exact absurd hen hhard
      | soft =>
        have hct := length_content_soft hwd hen
        simp [addRow, pushRewrappedRow, hen, pushSourceRow, toRewrappedRow, countKeptCells, hct, hwd]
      | softWide =>
        have hct := length_content_softWide hwd hen
        simp [addRow, pushRewrappedRow, hen, pushSourceRow, toRewrappedRow, countKeptCells, hct, hwd]

end

/-! ### Side by side -/

/-- Where the cursor is: placed in both outputs, or on a row of the line that has not ended. -/
def CursorSim (kept : KeptRowReflow) (state : RewrapState) (pending : List CellRow) : Prop :=
  match state.cursorContentCellOffset with
  | none =>
    kept.reflowOutput.newCursorPhysicalRowIndex = state.reflowOutput.newCursorPhysicalRowIndex ∧
      kept.reflowOutput.newCursorColumnIndex = state.reflowOutput.newCursorColumnIndex
  | some cellOffset =>
    ∃ index row, pending[index]? = some row ∧
      kept.reflowOutput.newCursorPhysicalRowIndex = state.reflowOutput.rewrappedRows.length + index ∧
      kept.reflowOutput.newCursorColumnIndex < row.content.length ∧
      cellOffset = ((pending.map (·.content.length)).take index).sum + kept.reflowOutput.newCursorColumnIndex

/-- The shortcut is ahead of the re-wrap by `pending`. -/
structure KeepSim (kept : KeptRowReflow) (state : RewrapState) (pending : List CellRow) : Prop where
  output : kept.reflowOutput = { state.reflowOutput with
    rewrappedRows := state.reflowOutput.rewrappedRows ++ pending.map toRewrappedRow
    rewrappedRowContentCellCounts :=
      state.reflowOutput.rewrappedRowContentCellCounts ++ pending.map (·.content.length)
    newCursorPhysicalRowIndex := kept.reflowOutput.newCursorPhysicalRowIndex
    newCursorColumnIndex := kept.reflowOutput.newCursorColumnIndex }
  columns : 2 ≤ state.reflowOutput.columnCount
  line : state.currentLogicalLine = ⟨joinContent pending, listPromptOffsets 0 pending⟩
  firstRow : kept.currentLineFirstRowIndex = state.reflowOutput.rewrappedRows.length
  sourceRows : state.reflowOutput.sourceRows.length = state.reflowOutput.rewrappedRows.length + pending.length
  cellCount : kept.currentLineCellCount = (joinContent pending).length
  previous : kept.previousRowEnd = (pending.getLast?.map (·.rowMetadata.rowEnd)).getD .hard
  isKept : ∀ row ∈ pending, row.IsKept state.reflowOutput.columnCount state.reflowOutput.backgroundStyle
  soft : ∀ row ∈ pending, row.rowMetadata.rowEnd ≠ .hard
  chain : KeptChain .hard pending
  cursor : CursorSim kept state pending

theorem KeepSim.columnCount_eq {kept : KeptRowReflow} {state : RewrapState} {pending : List CellRow}
    (h : KeepSim kept state pending) : kept.reflowOutput.columnCount = state.reflowOutput.columnCount := by
  rw [h.output]

theorem KeepSim.finishLines_eq {kept : KeptRowReflow} {state : RewrapState} {pending : List CellRow}
    (h : KeepSim kept state pending) (hhard : kept.previousRowEnd = .hard) :
    state.finishLines = kept.reflowOutput := by
  obtain rfl : pending = [] := by
    rcases eq_nil_or_concat pending with hnil | ⟨rows, lastRow, rfl⟩
    · exact hnil
    · refine absurd ?_ (h.soft lastRow (by simp))
      rw [← hhard, h.previous]
      simp
  have hcur := h.cursor
  obtain ⟨output, ln, offset⟩ := state
  obtain rfl : ln = ⟨[], []⟩ := h.line
  cases offset with
  | some cellOffset =>
    obtain ⟨index, row, hro, -⟩ := hcur
    simp at hro
  | none =>
    obtain ⟨hrowIndex, hcol⟩ := hcur
    rw [h.output, hrowIndex, hcol]
    simp [finishLines]

variable {rows : List CellRow}

theorem keptChain_append {previousRowEnd : RowEnd} {row : CellRow} (hchain : KeptChain previousRowEnd rows)
    (hfw : row.Follows ((rows.getLast?.map (·.rowMetadata.rowEnd)).getD previousRowEnd)) :
    KeptChain previousRowEnd (rows ++ [row]) := by
  induction rows generalizing previousRowEnd with
  | nil => exact ⟨hfw, trivial⟩
  | cons first rows ih =>
    refine ⟨hchain.1, ih hchain.2 ?_⟩
    cases rows with
    | nil => simpa using hfw
    | cons second rows => rwa [List.getLast?_cons_cons] at hfw

theorem take_map_append {index : Nat} (hidx : index ≤ rows.length) (row : CellRow) :
    (((rows ++ [row]).map (·.content.length)).take index) = (rows.map (·.content.length)).take index := by
  rw [map_append, take_append_of_le_length (by rwa [length_map])]

/-- Where the shortcut places the cursor when the next row holds it. -/
def KeptRowReflow.placeCursorAt (kept : KeptRowReflow) (onCursor : Bool) (cursorColumn : Nat) : KeptRowReflow :=
  if onCursor then kept.placeCursor kept.reflowOutput.rewrappedRows.length cursorColumn else kept

section

variable {kept : KeptRowReflow} {state : RewrapState} {pending : List CellRow} {row : CellRow} {onCursor : Bool}
  {cursorColumn : Nat}

section

variable (h : KeepSim kept state pending)

include h

theorem KeepSim.push_soft (hk : row.IsKept state.reflowOutput.columnCount state.reflowOutput.backgroundStyle)
    (hfw : row.Follows kept.previousRowEnd) (hsoft : row.rowMetadata.rowEnd ≠ .hard)
    (hcur : onCursor = true → cursorColumn < row.content.length) :
    KeepSim ((kept.placeCursorAt onCursor cursorColumn).addRow row)
      (state.pushCellRow row onCursor cursorColumn) (pending ++ [row]) := by
  have hchain := keptChain_append h.chain (h.previous ▸ hfw)
  obtain ⟨output, line, offset⟩ := state
  obtain ⟨keptOut, firstRow, cells, previousRowEnd⟩ := kept
  obtain ⟨hout, hco, hln, hf, hsources, hcx, -, hall, hallSoft, -, hpld⟩ := h
  simp only at hout hco hln hf hsources hcx hall hk
  subst hln hf hcx
  obtain ⟨currentRowIndex, column, rfl⟩ : ∃ currentRowIndex column, keptOut = { output with
      rewrappedRows := output.rewrappedRows ++ pending.map toRewrappedRow
      rewrappedRowContentCellCounts := output.rewrappedRowContentCellCounts ++ pending.map (·.content.length)
      newCursorPhysicalRowIndex := currentRowIndex
      newCursorColumnIndex := column } := ⟨_, _, hout⟩
  clear hout
  simp only [RewrapState.pushCellRow, hsoft, if_false, KeptRowReflow.addRow]
  refine ⟨?_, hco, ?_, ?_, ?_, ?_, ?_, ?_, ?_, hchain, ?_⟩
  · cases onCursor <;> simp [KeptRowReflow.placeCursorAt, KeptRowReflow.placeCursor, ReflowOutput.pushSourceRow]
  · simp [listPromptOffsets_append]
  · cases onCursor <;> rfl
  · simp only [pushSourceRow, length_append, length_singleton, hsources]
    omega
  · cases onCursor <;> simp [placeCursorAt, placeCursor]
  · simp
  · intro other ho
    rcases mem_append.1 ho with ho | ho
    · exact hall other ho
    · rwa [mem_singleton.1 ho]
  · intro other ho
    rcases mem_append.1 ho with ho | ho
    · exact hallSoft other ho
    · rwa [mem_singleton.1 ho]
  · cases onCursor with
    | true =>
      refine ⟨pending.length, row, by simp, ?_, ?_, ?_⟩
      · simp [KeptRowReflow.placeCursorAt, KeptRowReflow.placeCursor, ReflowOutput.pushSourceRow]
      · exact hcur rfl
      · rw [take_map_append (le_refl _), take_of_length_le (by simp), ← length_joinContent]
        simp only [placeCursorAt, placeCursor, if_true, Nat.min_eq_left (hcur rfl).le]
    | false =>
      simp only [CursorSim, Bool.false_eq_true, if_false] at hpld ⊢
      cases offset with
      | none => exact hpld
      | some cellOffset =>
        obtain ⟨index, currentRow, hg, hrowIndex, hcol, hoff⟩ := hpld
        have hidx := (List.getElem?_eq_some_iff.1 hg).1
        exact ⟨index, currentRow, by rw [List.getElem?_append_left hidx, hg], hrowIndex, hcol,
          by rw [take_map_append hidx.le]; exact hoff⟩

theorem KeepSim.push_hard (hk : row.IsKept state.reflowOutput.columnCount state.reflowOutput.backgroundStyle)
    (hfw : row.Follows kept.previousRowEnd) (hhard : row.rowMetadata.rowEnd = .hard) :
    KeepSim ((kept.placeCursorAt onCursor cursorColumn).addRow row)
      (state.pushCellRow row onCursor cursorColumn) [] := by
  have hchain := keptChain_append h.chain (h.previous ▸ hfw)
  have hall : ∀ other ∈ pending ++ [row],
      other.IsKept state.reflowOutput.columnCount state.reflowOutput.backgroundStyle := by
    intro other ho
    rcases mem_append.1 ho with ho | ho
    · exact h.isKept other ho
    · rwa [mem_singleton.1 ho]
  obtain ⟨output, line, offset⟩ := state
  obtain ⟨keptOut, firstRow, cells, previousRowEnd⟩ := kept
  obtain ⟨hout, hco, hln, hf, hsources, hcx, -, -, hallSoft, -, hpld⟩ := h
  simp only at hout hco hln hf hsources hcx hall
  subst hln hf hcx
  obtain ⟨currentRowIndex, column, rfl⟩ : ∃ currentRowIndex column, keptOut = { output with
      rewrappedRows := output.rewrappedRows ++ pending.map toRewrappedRow
      rewrappedRowContentCellCounts := output.rewrappedRowContentCellCounts ++ pending.map (·.content.length)
      newCursorPhysicalRowIndex := currentRowIndex
      newCursorColumnIndex := column } := ⟨_, _, hout⟩
  clear hout
  have hpu := fun sourceRow offset => @pushLogicalLine_kept row (output.pushSourceRow sourceRow)
    hco pending hall hallSoft hhard hchain offset
  have hoffsets := listPromptOffsets_append 0 pending row
  rw [Nat.zero_add] at hoffsets
  have hct : joinContent (pending ++ [row]) = joinContent pending ++ row.content := by simp
  simp only [RewrapState.pushCellRow, hhard, if_true, ← hoffsets, ← hct, hpu, KeptRowReflow.addRow]
  have hc : output.sourceRows.length + 1 - output.rewrappedRows.length = pending.length + 1 := by omega
  refine ⟨?_, hco, rfl, ?_, ?_, rfl, rfl, by simp, by simp, trivial, ?_⟩
  · cases onCursor <;> simp [placeCursorAt, placeCursor, pushSourceRow, hc]
  · cases onCursor <;> simp [placeCursorAt, placeCursor, hsources, pushSourceRow, Nat.add_assoc]
  · simp [pushSourceRow, hsources, Nat.add_assoc]
  · cases onCursor with
    | true =>
      have hlocate := @locateOffset_row (pending ++ [row]) pending.length cursorColumn row (by simp) (.inr (by simp))
      rw [take_map_append (le_refl _), take_of_length_le (by simp), ← length_joinContent] at hlocate
      rw [CursorSim]
      simp only [if_true, map_some, getD_some, hlocate]
      simp [placeCursorAt, placeCursor, pushSourceRow]
    | false =>
      simp only [CursorSim, Bool.false_eq_true, if_false] at hpld ⊢
      cases offset with
      | none => exact hpld
      | some cellOffset =>
        obtain ⟨index, currentRow, hg, hrowIndex, hcol, rfl⟩ := hpld
        have hidx := (List.getElem?_eq_some_iff.1 hg).1
        have hlocate := @locateOffset_row (pending ++ [row]) index column
          currentRow (by rw [List.getElem?_append_left hidx, hg]) (.inl hcol)
        rw [take_map_append hidx.le] at hlocate
        simp only [map_some, getD_some, hlocate]
        exact ⟨hrowIndex, rfl⟩

theorem KeepSim.push {next : KeptRowReflow} (hwd : row.rowCells.length = state.reflowOutput.columnCount)
    (hnarrow : ∀ c, row.rowCells.getLast? = some c → c.displayWidth ≠ 2)
    (hcur : onCursor = true → row.rowMetadata.rowEnd ≠ .hard → cursorColumn < row.content.length)
    (hpush : (kept.placeCursorAt onCursor cursorColumn).pushCellRow row = some next) :
    next.reflowOutput.rewrappedRows.length = kept.reflowOutput.rewrappedRows.length + 1 ∧
      (state.pushCellRow row onCursor cursorColumn).reflowOutput.columnCount = state.reflowOutput.columnCount ∧
      ∃ nextRows, KeepSim next (state.pushCellRow row onCursor cursorColumn) nextRows := by
  have hpld : (kept.placeCursorAt onCursor cursorColumn).reflowOutput.columnCount =
      state.reflowOutput.columnCount ∧
        (kept.placeCursorAt onCursor cursorColumn).reflowOutput.backgroundStyle = state.reflowOutput.backgroundStyle ∧
        (kept.placeCursorAt onCursor cursorColumn).previousRowEnd = kept.previousRowEnd ∧
        (kept.placeCursorAt onCursor cursorColumn).reflowOutput.rewrappedRows = kept.reflowOutput.rewrappedRows := by
    cases onCursor <;>
      simp [placeCursorAt, placeCursor, congrArg columnCount h.output, congrArg backgroundStyle h.output]
  obtain ⟨hcolumnCount, hstyle, hprev, hrows⟩ := hpld
  obtain ⟨hspacer, hfw, rfl⟩ := pushCellRow_eq_some (by rw [hcolumnCount]; exact h.columns)
      (by rw [hcolumnCount, hwd]) hpush
  rw [hstyle] at hspacer
  rw [hprev] at hfw
  have hk : row.IsKept state.reflowOutput.columnCount state.reflowOutput.backgroundStyle := ⟨hwd, hnarrow, hspacer⟩
  refine ⟨?_, ?_, ?_⟩
  · simp only [addRow]
    split_ifs <;> simp [hrows]
  · simp only [RewrapState.pushCellRow]
    by_cases hhard : row.rowMetadata.rowEnd = .hard
    · rw [if_pos hhard]
      rfl
    · rw [if_neg hhard]
      rfl
  · by_cases hhard : row.rowMetadata.rowEnd = .hard
    · exact ⟨[], h.push_hard hk hfw hhard⟩
    · exact ⟨pending ++ [row], h.push_soft hk hfw hhard fun hcurrentRow => hcur hcurrentRow hhard⟩

end

end

/-! ### The loops of the shortcut -/

namespace KeptRowReflow

variable {kept : KeptRowReflow}

theorem pushKeptRow_irrelevant {metadata : RowMetadata} (hprev : kept.previousRowEnd ≠ .softWide)
    (hen : metadata.rowEnd ≠ .softWide) (content : Nat)
    (hasLeadingWide hasTrailingSpacer otherLeading otherTrailing : Bool) :
    kept.pushKeptRow metadata content hasLeadingWide hasTrailingSpacer =
      kept.pushKeptRow metadata content otherLeading otherTrailing := by
  have hend' : (metadata.rowEnd == RowEnd.softWide) = false := beq_eq_false_iff_ne.2 hen
  simp only [pushKeptRow, hend', Bool.false_and, Bool.or_false]
  cases hcase : kept.previousRowEnd with
  | hard => rfl
  | soft => rfl
  | softWide => exact absurd hcase hprev

theorem pushHistoryLine_eq {row : CellRow} (hproper : row.IsProper)
    (hwd : row.rowCells.length = kept.reflowOutput.columnCount) :
    kept.pushHistoryLine row.toSnapshot = some (kept.pushCellRow row) := by
  have hcontentLe := countContentCells_le row.rowCells
  have hshape := getEncodedRowShape_of_proper hproper.cells hproper.length row.rowMetadata
  have hdecode := decodeRowCells_of_proper hproper.cells hproper.length row.rowMetadata
  have hc : kept.reflowOutput.columnCount - (row.rowCells.length - countRowContentCells row.rowCells) =
      countRowContentCells row.rowCells := by omega
  have hblks : row.rowCells.length - countRowContentCells row.rowCells ≤ kept.reflowOutput.columnCount := by omega
  have hmeta : (RowSnapshot.fromRowCells row.rowCells row.rowMetadata).rowMetadata = row.rowMetadata := rfl
  rw [pushHistoryLine, toSnapshot]
  simp only [hshape, hmeta, bind, Option.bind, hblks, if_true, hc]
  by_cases hrd : kept.previousRowEnd = .softWide ∨ row.rowMetadata.rowEnd = .softWide
  · simp only [if_pos hrd, hdecode]
    rfl
  · simp only [if_neg hrd]
    obtain ⟨hprev, hen⟩ := not_or.1 hrd
    rw [pushKeptRow_irrelevant hprev hen]
    rfl

theorem pushScreenRow_eq_some {next : KeptRowReflow} {row : CellRow} {cursorRow col : Nat}
    (hwd : row.rowCells.length = kept.reflowOutput.columnCount)
    (h : kept.pushScreenRow cursorRow col row.rowCells row.rowMetadata = some next) :
    ((kept.reflowOutput.rewrappedRows.length == cursorRow) = true → row.rowMetadata.rowEnd = .softWide →
        col + 1 < kept.reflowOutput.columnCount) ∧
      (kept.placeCursorAt (kept.reflowOutput.rewrappedRows.length == cursorRow) col).pushCellRow row = some next := by
  have hpush : ∀ placed : KeptRowReflow, placed.reflowOutput.columnCount = kept.reflowOutput.columnCount →
      placed.reflowOutput.backgroundStyle = kept.reflowOutput.backgroundStyle →
      ((placed.pushKeptRow row.rowMetadata (countRowContentCells row.rowCells) (isWideGlyphFirst row.rowCells)
        (row.rowCells.getLast? == some (.buildBlankWithStyle kept.reflowOutput.backgroundStyle))).bind
          fun pushed => some (pushed.2.pushRewrappedRow
            (.fromLeadingCells row.rowCells pushed.1 row.rowMetadata kept.reflowOutput.columnCount))) = some next →
      placed.pushCellRow row = some next := by
    intro placed hco hstyle hpu
    obtain ⟨⟨rowCellCount, pushed⟩, hk, hn⟩ := bind_eq_some_iff.1 hpu
    have hc : rowCellCount ≤ kept.reflowOutput.columnCount := by
      have hcontentLe := countContentCells_le row.rowCells
      have hres := hk
      simp only [pushKeptRow, hco] at hres
      split_ifs at hres <;> obtain ⟨rfl, -⟩ := Prod.mk.inj (some_inj.1 hres) <;>
        cases row.rowMetadata.rowEnd <;> simp only <;> omega
    rw [← hwd] at hc
    rw [pushCellRow, hstyle, hk, map_some, ← hn]
    simp only [RewrappedRow.fromLeadingCells, ← hwd, Nat.max_eq_left hc]
    rfl
  unfold pushScreenRow at h
  by_cases hro : kept.reflowOutput.rewrappedRows.length = cursorRow
  · have hbeq : (kept.reflowOutput.rewrappedRows.length == cursorRow) = true := beq_iff_eq.2 hro
    simp only [if_pos hro, bind] at h
    split_ifs at h with hrefused
    · simp at h
    · refine ⟨fun _ hen => Nat.not_le.1 fun hle => hrefused ⟨hen, hle⟩, ?_⟩
      rw [hbeq]
      exact hpush _ rfl rfl h
  · have hbeq : (kept.reflowOutput.rewrappedRows.length == cursorRow) = false := beq_eq_false_iff_ne.2 hro
    simp only [if_neg hro, bind] at h
    refine ⟨fun htrue => absurd (hbeq.symm.trans htrue) (by decide), ?_⟩
    rw [hbeq]
    exact hpush _ rfl rfl h

end KeptRowReflow

section

variable {kept next : KeptRowReflow} {state : RewrapState} {pending : List CellRow} {columns : Nat} {cursorRow : Nat}

theorem KeepSim.pushHistoryLines {rows : List CellRow} (h : KeepSim kept state pending)
    (hco : state.reflowOutput.columnCount = columns) (hproper : ∀ row ∈ rows, row.IsProper)
    (hwd : ∀ row ∈ rows, row.rowCells.length = columns)
    (hnarrow : ∀ row ∈ rows, ∀ c, row.rowCells.getLast? = some c → c.displayWidth ≠ 2)
    (hcurrentRow : kept.reflowOutput.rewrappedRows.length + rows.length ≤ cursorRow) (col : Nat)
    (hpush : pushHistoryLines (rows.map toSnapshot) kept = some (some next)) :
    ∃ nextRows nextState, KeepSim next nextState nextRows ∧
      nextState.reflowOutput.columnCount = columns ∧
      next.reflowOutput.rewrappedRows.length = kept.reflowOutput.rewrappedRows.length + rows.length ∧
      ∀ screenRows, pushCellRows cursorRow col kept.reflowOutput.rewrappedRows.length (rows ++ screenRows) state =
        pushCellRows cursorRow col next.reflowOutput.rewrappedRows.length screenRows nextState := by
  induction rows generalizing kept state pending with
  | nil =>
    obtain rfl := some_inj.1 (some_inj.1 hpush)
    exact ⟨pending, state, h, hco, rfl, fun _ => rfl⟩
  | cons row rows ih =>
    obtain ⟨hrowProper, hproper⟩ := forall_mem_cons.1 hproper
    obtain ⟨hrowWidth, hwd⟩ := forall_mem_cons.1 hwd
    obtain ⟨hrowNarrow, hnarrow⟩ := forall_mem_cons.1 hnarrow
    rw [length_cons] at hcurrentRow
    have hkeptColumns := h.columnCount_eq
    rw [map_cons, pushHistoryLines, pushHistoryLine_eq hrowProper (by rw [hrowWidth, hkeptColumns, hco])] at hpush
    cases hstep : kept.pushCellRow row with
    | none => simp [hstep, bind] at hpush
    | some stepped =>
      simp only [hstep, bind, Option.bind] at hpush
      obtain ⟨hlen, hsameColumns, steppedPending, hsim⟩ := @KeepSim.push kept state pending row false
        col h stepped (by rw [hrowWidth, hco]) hrowNarrow (by simp) hstep
      obtain ⟨nextPending, nextState, hn, hnextColumns, hnextLen, hrun⟩ := ih hsim (by rw [hsameColumns, hco])
        hproper hwd hnarrow (by omega) hpush
      refine ⟨nextPending, nextState, hn, hnextColumns, by rw [hnextLen, length_cons]; omega, fun screenRows => ?_⟩
      have ho : (kept.reflowOutput.rewrappedRows.length == cursorRow) = false := by
        rw [beq_eq_false_iff_ne]
        omega
      rw [cons_append, pushCellRows, ho, ← hlen, hrun]

theorem KeepSim.pushScreenRows {col : Nat} (h : KeepSim kept state pending)
    (hco : state.reflowOutput.columnCount = columns) (hwd : ∀ row ∈ rows, row.rowCells.length = columns)
    (hnarrow : ∀ row ∈ rows, ∀ c, row.rowCells.getLast? = some c → c.displayWidth ≠ 2)
    (hcur : col < columns) (hpush : pushScreenRows cursorRow col
      (rows.map fun row => (row.rowCells, row.rowMetadata)) kept = some next) :
    ∃ nextRows, KeepSim next (pushCellRows cursorRow col
      kept.reflowOutput.rewrappedRows.length rows state) nextRows := by
  induction rows generalizing kept state pending with
  | nil =>
    obtain rfl := some_inj.1 hpush
    exact ⟨pending, h⟩
  | cons row rows ih =>
    obtain ⟨hrowWidth, hwd⟩ := forall_mem_cons.1 hwd
    obtain ⟨hrowNarrow, hnarrow⟩ := forall_mem_cons.1 hnarrow
    have hkeptColumns := h.columnCount_eq
    obtain ⟨stepped, hstep, hpush⟩ := bind_eq_some_iff.1 hpush
    obtain ⟨hwide, hstep⟩ := pushScreenRow_eq_some (by rw [hrowWidth, hkeptColumns, hco]) hstep
    have hcurrentColumn : (kept.reflowOutput.rewrappedRows.length == cursorRow) = true →
        row.rowMetadata.rowEnd ≠ .hard → col < row.content.length := by
      intro hcurrentRow hsoft
      cases hen : row.rowMetadata.rowEnd with
      | hard => exact absurd hen hsoft
      | soft =>
        rw [content_soft hen, hrowWidth]
        exact hcur
      | softWide =>
        have hroom := hwide hcurrentRow hen
        rw [hkeptColumns, hco] at hroom
        rw [content_softWide hen, length_take, hrowWidth]
        omega
    obtain ⟨hlen, hsameColumns, steppedPending, hsim⟩ := h.push (by rw [hrowWidth, hco]) hrowNarrow hcurrentColumn hstep
    rw [pushCellRows, ← hlen]
    exact ih hsim (by rw [hsameColumns, hco]) hwd hnarrow hpush

end

/-! ### The screen -/

namespace PrimaryScreen

/-- **A kept screen is a re-wrapped screen.** Where the shortcut gives an output, the re-wrap gives the same output: the
same rows with the same cells, ends and prompt marks, the same place for the cursor, and the same map of source rows.
The history has the width of the screen, and no row has the base of a wide glyph in its last column. -/
theorem rewrapPrimaryRows_of_kept {screen : PrimaryScreen} {history : List CellRow}
    (hhistory : screen.HoldsHistory history) {columnCount : Nat} {backgroundStyle : Style}
    (hhistoryWidth : ∀ row ∈ history, row.rowCells.length = screen.primary.getGridDimensions.2)
    (hscreenWidth : ∀ row ∈ screen.listCellRows, row.rowCells.length = screen.primary.getGridDimensions.2)
    (hnarrow : ∀ row ∈ history ++ screen.listCellRows, ∀ cell, row.rowCells.getLast? = some cell →
      cell.displayWidth ≠ 2)
    (hcursor : screen.cursorColumn < screen.primary.getGridDimensions.2) {reflowOutput : ReflowOutput}
    (h : screen.keepPrimaryRows columnCount backgroundStyle = some (some reflowOutput)) :
    screen.rewrapPrimaryRows columnCount backgroundStyle = some reflowOutput := by
  rw [keepPrimaryRows, hhistory.lines] at h
  simp only at h
  split_ifs at h with hrefused
  · simp at h
  · simp only [not_or, Nat.not_lt, not_not] at hrefused
    obtain ⟨hcols, hsame, -⟩ := hrefused
    rw [length_map] at h
    obtain ⟨keptHistory, hpushHistory, hrest⟩ := bind_eq_some_iff.1 h
    obtain ⟨kept, hkeptHistory, hscreen⟩ := bind_eq_some_iff.1 (some_inj.1 hrest)
    obtain ⟨next, hpushScreen, hresult⟩ := bind_eq_some_iff.1 hscreen
    subst hkeptHistory
    split_ifs at hresult with hend
    obtain rfl := some_inj.1 hresult
    have hstart : KeepSim ⟨.fromColumnCount columnCount backgroundStyle, 0, 0, .hard⟩
        ⟨.fromColumnCount columnCount backgroundStyle, .default, none⟩ [] :=
      ⟨rfl, hcols, rfl, rfl, rfl, rfl, rfl, by simp, by simp, trivial, ⟨rfl, rfl⟩⟩
    obtain ⟨pendingHistory, state, hsim, hstateColumns, hlen, hrun⟩ := @KeepSim.pushHistoryLines _ _ _ _ columnCount
      (history.length + screen.cursorRow) history hstart rfl hhistory.proper
      (fun row hrow => by rw [hhistoryWidth row hrow, hsame])
      (fun row hrow => hnarrow row (mem_append_left _ hrow))
      (by simp [fromColumnCount]) screen.cursorColumn hpushHistory
    have hscreenRows : screen.listScreenRows = screen.listCellRows.map fun row => (row.rowCells, row.rowMetadata) := by
      simp [listScreenRows, listCellRows, Function.comp_def]
    rw [hscreenRows] at hpushScreen
    obtain ⟨pending, hfinal⟩ := hsim.pushScreenRows hstateColumns (fun row hrow => by rw [hscreenWidth row hrow, hsame])
      (fun row hrow => hnarrow row (mem_append_right _ hrow)) (by rw [hsame]; exact hcursor) hpushScreen
    rw [rewrapPrimaryRows_eq hhistory]
    have hrun := hrun screen.listCellRows
    rw [show (KeptRowReflow.mk (.fromColumnCount columnCount backgroundStyle) 0 0
      .hard).reflowOutput.rewrappedRows.length =
      0 from rfl] at hrun
    rw [hrun, hfinal.finishLines_eq (not_not.1 hend)]

def buildNarrowRow (chars : List Char) (rowEnd : RowEnd) : CellRow :=
  ⟨chars.map fun char => .fromCharacter char 1 .default, ⟨rowEnd, false⟩⟩

theorem isProper_buildNarrowRow {chars : List Char} (hlen : chars.length ≤ u16Max) (rowEnd : RowEnd) :
    (buildNarrowRow chars rowEnd).IsProper := by
  refine ⟨fun c hce => ?_, by simpa [buildNarrowRow] using hlen⟩
  obtain ⟨char, -, rfl⟩ := List.mem_map.1 hce
  exact ⟨⟨Nat.le_succ 1, Nat.zero_le _⟩, by simp [Cell.fromCharacter]⟩

/-- A soft-ended row in history, and its line's end on the screen. -/
def wrappedScreen : PrimaryScreen :=
  ⟨⟨[.fromCells (buildNarrowRow ['c', ' '] .hard).rowCells ⟨.hard, false⟩]⟩,
    .fromStoredLines [(buildNarrowRow ['a', 'b'] .soft).toSnapshot] 10 10 1, 0, 1⟩

theorem rewrapPrimaryRows_wrappedScreen :
    ∃ reflowOutput, wrappedScreen.keepPrimaryRows 2 .default = some (some reflowOutput) ∧
      wrappedScreen.rewrapPrimaryRows 2 .default = some reflowOutput := by
  have hkept : (wrappedScreen.keepPrimaryRows 2 .default).join.isSome = true := by decide +kernel
  obtain ⟨reflowOutput, hoption⟩ := isSome_iff_exists.1 hkept
  obtain ⟨inner, hkeep, rfl⟩ := bind_eq_some_iff.1 hoption
  have hhistory : wrappedScreen.HoldsHistory [buildNarrowRow ['a', 'b'] .soft] :=
    ⟨by decide +kernel, by simpa using isProper_buildNarrowRow (by decide) .soft⟩
  exact ⟨reflowOutput, hkeep, rewrapPrimaryRows_of_kept hhistory (by decide) (by decide) (by decide) (by decide) hkeep⟩

end PrimaryScreen

end Koshi.Terminal
