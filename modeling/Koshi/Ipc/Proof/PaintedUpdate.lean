import Koshi.Ipc.PaintedUpdate

/-!
# Painted updates are read back

What the encoder writes for one section is read back by the decoder whatever follows it, and so is a part. The
writer's payloads are the parts of an update whose sections, a continued pane joined to the pane opened before it,
are the panes that were encoded.
-/

namespace Koshi.Core

theorem readLongVarintLoop_append {byteIndex varintValue : Nat} {bs rest : List UInt8} {value : Nat}
    (h : readLongVarintLoop byteIndex varintValue bs = .ok (value, rest)) (tail : List UInt8) :
    readLongVarintLoop byteIndex varintValue (bs ++ tail) = .ok (value, rest ++ tail) ∧ rest.length < bs.length := by
  induction bs generalizing byteIndex varintValue with
  | nil => exact absurd h (by simp [readLongVarintLoop])
  | cons varintByte bs ih =>
    rw [readLongVarintLoop] at h
    rw [List.cons_append, readLongVarintLoop]
    by_cases hen : byteIndex = maxVarintByteCount
    · rw [if_pos hen] at h
      exact absurd h (by simp)
    · rw [if_neg hen] at h ⊢
      dsimp only at h ⊢
      split_ifs at h ⊢ with hlong hl
      · obtain ⟨rfl, rfl⟩ := Prod.mk.inj (Except.ok.inj h)
        exact ⟨rfl, Nat.lt_succ_self _⟩
      · obtain ⟨hrd, hlen⟩ := ih h
        exact ⟨hrd, Nat.lt_succ_of_lt hlen⟩

theorem readVarint_append {bs rest : List UInt8} {value : Nat} (h : readVarint bs = .ok (value, rest))
    (tail : List UInt8) :
    readVarint (bs ++ tail) = .ok (value, rest ++ tail) ∧ rest.length < bs.length := by
  cases bs with
  | nil => exact absurd h (by simp [readVarint, readLongVarint, readLongVarintLoop])
  | cons varintByte bs =>
    rw [readVarint] at h
    rw [List.cons_append, readVarint]
    split_ifs at h ⊢ with hshort
    · obtain ⟨rfl, rfl⟩ := Prod.mk.inj (Except.ok.inj h)
      exact ⟨rfl, Nat.lt_succ_self _⟩
    · exact readLongVarintLoop_append h tail

end Koshi.Core

namespace Koshi.Ipc

open Koshi.Core Base PartReader OpenSection

/-! ### Fields -/

theorem readsBack_readVarint {value : Nat} (h : value < 2 ^ 64) :
    ReadsBack PartReader.readVarint (writeVarint value) value := by
  intro tail
  simp only [StateT.run, PartReader.readVarint, readVarint_writeVarint_append h]

theorem readsBack_readBytes (bytes : List UInt8) : ReadsBack (readBytes bytes.length) bytes bytes := by
  intro tail
  simp [StateT.run, readBytes]

theorem readsBack_readByte (byte : UInt8) : ReadsBack readByte [byte] byte := fun _ => rfl

theorem readsBack_readU16 (fieldName : String) (value : UInt16) :
    ReadsBack (readU16 fieldName) (writeVarint value.toNat) value := by
  have hlt : value.toNat < 65536 := value.toNat_lt
  refine ReadsBack.bind_pure (readsBack_readVarint (by omega)) ?_
  rw [if_pos hlt, UInt16.ofNat_toNat]
  exact .pure value

theorem readsBack_readRowCount {rowCount : UInt16} (h : rowCount ≠ 0) :
    ReadsBack readRowCount (writeVarint rowCount.toNat) rowCount := by
  refine ReadsBack.bind_pure (readsBack_readU16 "row_count" rowCount) ?_
  rw [if_neg h]
  exact .pure rowCount

theorem readsBack_readU64 (value : UInt64) : ReadsBack PartReader.readVarint (writeVarint value.toNat) value.toNat :=
  readsBack_readVarint value.toNat_lt

/-- A row in the row encoding: its first varint counts the bytes after it. -/
def IsEncodedRow (encodedRowBytes : List UInt8) : Prop :=
  ∃ bodyBytes, Core.readVarint encodedRowBytes = .ok (bodyBytes.length, bodyBytes)

theorem readsBack_readEncodedRow {encoded : List UInt8} (h : IsEncodedRow encoded) :
    ReadsBack readEncodedRow encoded encoded := by
  obtain ⟨bodyBytes, hrd⟩ := h
  intro tail
  obtain ⟨hvarint, hlen⟩ := readVarint_append hrd tail
  have hf : PartReader.readVarint.run (encoded ++ tail) = .ok (bodyBytes.length, bodyBytes ++ tail) := by
    simp only [StateT.run, PartReader.readVarint, hvarint]
  have hbody : (readBytes bodyBytes.length).run (bodyBytes ++ tail) = .ok (bodyBytes, tail) :=
    readsBack_readBytes bodyBytes tail
  have htake : (encoded ++ tail).take ((encoded ++ tail).length - tail.length) =
      encoded := by simp
  simp only [StateT.run] at hf hbody ⊢
  simp only [readEncodedRow, StateT.run, hf, hbody, htake]

/-! ### Row instructions -/

def RowInstruction.IsWellFormed : RowInstruction → Prop
  | .keep rowCount => rowCount ≠ 0
  | .copy _ rowCount => rowCount ≠ 0
  | .new encodedRowBytes => IsEncodedRow encodedRowBytes

theorem readsBack_readRowInstruction {instruction : RowInstruction} (h : instruction.IsWellFormed) :
    ReadsBack readRowInstruction (encodeRowInstruction instruction) instruction := by
  cases instruction with
  | keep rowCount =>
    refine (readsBack_readByte keepInstructionTag).bind ?_
    exact ReadsBack.bind_pure (readsBack_readRowCount h) (.pure _)
  | copy sourceRowIndex rowCount =>
    refine (readsBack_readByte copyInstructionTag).bind ?_
    refine (readsBack_readU16 "source_row_index" sourceRowIndex).bind ?_
    exact ReadsBack.bind_pure (readsBack_readRowCount h) (.pure _)
  | new encodedRowBytes =>
    refine (readsBack_readByte newInstructionTag).bind ?_
    exact ReadsBack.bind_pure (readsBack_readEncodedRow h) (.pure _)

/-! ### Pane headers -/

theorem decodeCursorShape_cursorShapeCode (shape : Option PaneCursorShape) :
    decodeCursorShape (cursorShapeCode shape) = shape := by
  rcases shape with _ | shape
  · rfl
  · cases shape <;> rfl

theorem cursorFlags_spec (current : PaneCursor) :
    computeCursorFlags current &&& ~~~(cursorVisibleFlag ||| cursorBlinkingFlag) = 0 ∧
      decide (computeCursorFlags current &&& cursorVisibleFlag ≠ 0) = current.isVisible ∧
      decide (computeCursorFlags current &&& cursorBlinkingFlag ≠ 0) = current.isBlinking := by
  unfold computeCursorFlags
  cases current.isVisible <;> cases current.isBlinking <;> decide

variable (paneHeader : PaneHeader)

theorem sectionFlags_cases :
    (paneHeader.paneWindow = none ∧ computeSectionFlags paneHeader = 1) ∨
      ∃ paneWin, paneHeader.paneWindow = some paneWin ∧
        (paneWin.isReset = false ∧ computeSectionFlags paneHeader = 3 ∨
          paneWin.isReset = true ∧ computeSectionFlags paneHeader = 7) := by
  unfold computeSectionFlags
  cases paneHeader.paneWindow with
  | none => exact Or.inl ⟨rfl, rfl⟩
  | some paneWin =>
    refine Or.inr ⟨paneWin, rfl, ?_⟩
    cases hreset : paneWin.isReset with
    | false => exact Or.inl ⟨rfl, by simp [hreset]; decide⟩
    | true => exact Or.inr ⟨rfl, by simp [hreset]; decide⟩

theorem readsBack_readPaneWindow_some {sectionFlags : UInt8} {paneWin : PaneWindow}
    (hwin : sectionFlags &&& sectionHasWindowFlag ≠ 0)
    (hreset : decide (sectionFlags &&& sectionResetsRowsFlag ≠ 0) = paneWin.isReset) :
    ReadsBack (readPaneWindow sectionFlags) (encodePaneWindow (some paneWin)) (some paneWin) := by
  unfold readPaneWindow
  rw [if_pos hwin, hreset]
  refine (readsBack_readU16 "column_count" _).bind ?_
  refine (readsBack_readU16 "row_count" _).bind ?_
  refine ReadsBack.bind_pure (readsBack_readU64 _) ?_
  rw [UInt64.ofNat_toNat]
  exact .pure _

theorem readsBack_readPaneWindow :
    ReadsBack (readPaneWindow (computeSectionFlags paneHeader)) (encodePaneWindow paneHeader.paneWindow)
      paneHeader.paneWindow := by
  rcases sectionFlags_cases paneHeader with ⟨hnone, hflags⟩ | ⟨paneWindow, hso, hflags⟩
  · rw [hflags, hnone]
    exact .pure none
  · rw [hso]
    rcases hflags with ⟨hreset, hflags⟩ | ⟨hreset, hflags⟩
    · rw [hflags]
      exact readsBack_readPaneWindow_some (by decide) (by rw [hreset]; decide)
    · rw [hflags]
      exact readsBack_readPaneWindow_some (by decide) (by rw [hreset]; decide)

theorem readsBack_readPaneHeader :
    ReadsBack (readPaneHeader (computeSectionFlags paneHeader)) (encodePaneHeader paneHeader) paneHeader := by
  obtain ⟨hflags, hvis, hblinking⟩ := cursorFlags_spec paneHeader.cursor
  refine (readsBack_readU16 "cursor_row_index" _).bind ?_
  refine (readsBack_readU16 "cursor_column_index" _).bind ?_
  refine (readsBack_readByte _).bind ?_
  rw [if_neg (not_not.2 hflags)]
  refine (readsBack_readByte _).bind ?_
  refine (readsBack_readU64 _).bind ?_
  refine (readsBack_readU64 _).bind ?_
  refine ReadsBack.bind_pure (readsBack_readPaneWindow paneHeader) ?_
  rw [hvis, hblinking, decodeCursorShape_cursorShapeCode, UInt64.ofNat_toNat, UInt64.ofNat_toNat]
  exact .pure _

/-! ### Sections -/

def encodeSectionHeader : Option PaneHeader → List UInt8
  | none => [0]
  | some paneHeader => computeSectionFlags paneHeader :: encodePaneHeader paneHeader

/-- The bytes of a whole section. -/
def encodeSection (paneSection : PaneSection) : List UInt8 :=
  paneSection.paneId.bytes ++ (encodeSectionHeader paneSection.paneHeader ++
    (writeVarint paneSection.rowInstructions.length ++ paneSection.rowInstructions.flatMap encodeRowInstruction))

theorem readsBack_readPaneUuid (paneId : PaneUuid) : ReadsBack readPaneUuid paneId.bytes paneId := by
  intro tail
  have htake : (paneId.bytes ++ tail).take 16 = paneId.bytes := List.take_left' paneId.byteCount
  have hdrop : (paneId.bytes ++ tail).drop 16 = tail := List.drop_left' paneId.byteCount
  simp [StateT.run, readPaneUuid, htake, hdrop, paneId.byteCount]

theorem sectionFlags_spec :
    computeSectionFlags paneHeader &&& sectionOpensPaneFlag ≠ 0 ∧
      computeSectionFlags paneHeader &&&
        ~~~(sectionOpensPaneFlag ||| sectionHasWindowFlag ||| sectionResetsRowsFlag) = 0 := by
  rcases sectionFlags_cases paneHeader with ⟨_, hflags⟩ | ⟨_, _, ⟨_, hflags⟩ | ⟨_, hflags⟩⟩
  all_goals
    rw [hflags]
    decide

/-- **A section is read back.** -/
theorem readsBack_readPaneSection {paneSection : PaneSection}
    (hwellFormed : ∀ instruction ∈ paneSection.rowInstructions, instruction.IsWellFormed)
    (hc : paneSection.rowInstructions.length < 2 ^ 64) :
    ReadsBack readPaneSection (encodeSection paneSection) paneSection := by
  obtain ⟨paneId, paneHeader, rowInstructions⟩ := paneSection
  refine (readsBack_readPaneUuid paneId).bind ?_
  have hrows : ReadsBack (do
      let instructionCount ← PartReader.readVarint
      let readInstructions ← readMany readRowInstruction instructionCount
      return PaneSection.mk paneId paneHeader readInstructions)
      (writeVarint rowInstructions.length ++ rowInstructions.flatMap encodeRowInstruction)
      ⟨paneId, paneHeader, rowInstructions⟩ := by
    refine (readsBack_readVarint hc).bind ?_
    exact ReadsBack.bind_pure (.readMany fun _ hm => readsBack_readRowInstruction (hwellFormed _ hm)) (.pure _)
  cases paneHeader with
  | none =>
    refine (readsBack_readByte 0).bind ?_
    exact .pure_bind hrows
  | some paneHeader =>
    obtain ⟨hopens, hknown⟩ := sectionFlags_spec paneHeader
    refine (readsBack_readByte (computeSectionFlags paneHeader)).bind ?_
    rw [if_neg (by simp [hknown, hopens])]
    refine ReadsBack.bind ?_ hrows
    rw [readSectionHeader, if_pos hopens]
    exact (readsBack_readPaneHeader paneHeader).map some

/-! ### Parts -/

/-- The JSON codec of an opening: what it writes is not empty and is read back. -/
structure StructureJson (Frame Preview : Type) where
  writeFrame : Frame → List UInt8
  parseFrame : List UInt8 → Except String Frame
  writePreview : Preview → List UInt8
  parsePreview : List UInt8 → Except String Preview
  parse_writeFrame : ∀ frame, parseFrame (writeFrame frame) = .ok frame
  writeFrame_ne_nil : ∀ frame, writeFrame frame ≠ []
  parse_writePreview : ∀ preview, parsePreview (writePreview preview) = .ok preview
  writePreview_ne_nil : ∀ preview, writePreview preview ≠ []

def PlacementPreviewUpdate.write {Preview : Type} (writePreview : Preview → List UInt8) :
    PlacementPreviewUpdate Preview → PlacementPreviewUpdate (List UInt8)
  | .unchanged => .unchanged
  | .cleared => .cleared
  | .replaced preview => .replaced (writePreview preview)

variable {Frame Preview : Type} (json : StructureJson Frame Preview)

variable (opening : PaintedUpdateOpening Frame Preview)

def writtenOpening : List UInt8 :=
  encodeOpening opening.updateSequence ((opening.paintedFrame.map json.writeFrame).getD [])
    (placementPreviewJson (opening.placementPreviewUpdate.write json.writePreview))

def openingFlags : UInt8 :=
  if (placementPreviewJson (opening.placementPreviewUpdate.write json.writePreview)).isSome then
    partOpensUpdateFlag ||| partChangesPlacementPreviewFlag
  else partOpensUpdateFlag

theorem readsBack_parseJson {Value : Type} {parseJson : List UInt8 → Except String Value} {jsonBytes : List UInt8}
    {value : Value} (h : parseJson jsonBytes = .ok value) :
    ReadsBack (parseStructureJson parseJson jsonBytes) [] value := by
  unfold parseStructureJson
  rw [h]
  exact .pure value

theorem readsBack_readPaintedFrame (paintedFrame : Option Frame) :
    ReadsBack (readPaintedFrame json.parseFrame ((paintedFrame.map json.writeFrame).getD [])) [] paintedFrame := by
  cases paintedFrame with
  | none => exact .pure none
  | some fr =>
    rw [readPaintedFrame, Option.map_some, Option.getD_some, if_neg (by simpa using json.writeFrame_ne_nil fr)]
    exact (readsBack_parseJson (json.parse_writeFrame fr)).map some

/-- The preview part of an opening. -/
def writtenPreview (placementPreviewJsonBytes : Option (List UInt8)) : List UInt8 :=
  match placementPreviewJsonBytes with
  | none => []
  | some previewBytes => writeVarint previewBytes.length ++ previewBytes

theorem readsBack_readPlacementPreviewUpdate {preview : PlacementPreviewUpdate Preview}
    (hlen : (writtenPreview (placementPreviewJson (preview.write json.writePreview))).length < 2 ^ 64) :
    ReadsBack (readPlacementPreviewUpdate json.parsePreview
        (placementPreviewJson (preview.write json.writePreview)).isSome)
      (writtenPreview (placementPreviewJson (preview.write json.writePreview))) preview := by
  cases preview with
  | unchanged => exact .pure _
  | cleared => exact (readsBack_readVarint (by decide)).bind (ReadsBack.bind_pure (readsBack_readBytes []) (.pure _))
  | replaced pv =>
    simp only [PlacementPreviewUpdate.write, placementPreviewJson, writtenPreview, List.length_append] at hlen
    refine (readsBack_readVarint (by omega)).bind (ReadsBack.bind_pure (readsBack_readBytes (json.writePreview pv)) ?_)
    rw [if_neg (by simpa using json.writePreview_ne_nil pv)]
    exact (readsBack_parseJson (json.parse_writePreview pv)).map _

theorem readsBack_readUpdateOpening {opening : PaintedUpdateOpening Frame Preview}
    (hlen : (writtenOpening json opening).length < 2 ^ 64) :
    ReadsBack (readUpdateOpening json.parseFrame json.parsePreview
        (placementPreviewJson (opening.placementPreviewUpdate.write json.writePreview)).isSome)
      (writtenOpening json opening) opening := by
  obtain ⟨seq, paintedFrame, preview⟩ := opening
  have hwt : writtenOpening json ⟨seq, paintedFrame, preview⟩ =
      writeVarint seq.toNat ++ (writeVarint ((paintedFrame.map json.writeFrame).getD []).length ++
        ((paintedFrame.map json.writeFrame).getD [] ++
          writtenPreview (placementPreviewJson (preview.write json.writePreview)))) := rfl
  rw [hwt] at hlen ⊢
  simp only [List.length_append] at hlen
  have hpv : (writtenPreview (placementPreviewJson (preview.write json.writePreview))).length < 2 ^ 64 := by
    omega
  refine (readsBack_readU64 seq).bind ?_
  refine (readsBack_readVarint (by omega)).bind ?_
  refine (readsBack_readBytes _).bind ?_
  refine ReadsBack.bind (readsBack_readPaintedFrame json paintedFrame) ?_
  refine ReadsBack.bind_pure (readsBack_readPlacementPreviewUpdate json hpv) ?_
  rw [UInt64.ofNat_toNat]
  exact .pure _

def encodePartFlags (opening : Option (PaintedUpdateOpening Frame Preview)) (isLastPart : Bool) : UInt8 :=
  ((opening.map (openingFlags json)).getD 0) ||| (if isLastPart then partEndsUpdateFlag else 0)

def encodePart (part : PaintedUpdatePart Frame Preview) : List UInt8 :=
  [paintedUpdateFrameKind] ++ ([encodePartFlags json part.updateOpening part.isLastPart] ++
    ((part.updateOpening.map (writtenOpening json)).getD [] ++
      (writeVarint part.paneSections.length ++ part.paneSections.flatMap encodeSection)))

theorem openingFlags_spec :
    openingFlags json opening = 1 ∧
        (placementPreviewJson (opening.placementPreviewUpdate.write json.writePreview)).isSome = false ∨
      openingFlags json opening = 5 ∧
        (placementPreviewJson (opening.placementPreviewUpdate.write json.writePreview)).isSome = true := by
  unfold openingFlags
  cases (placementPreviewJson (opening.placementPreviewUpdate.write json.writePreview)).isSome with
  | false => exact Or.inl ⟨rfl, rfl⟩
  | true => exact Or.inr ⟨rfl, rfl⟩

theorem knownPartFlags : ∀ openingFlags ∈ [(0 : UInt8), 1, 5], ∀ isLastPart : Bool,
    ¬((openingFlags ||| (if isLastPart then partEndsUpdateFlag else 0)) &&&
          ~~~(partOpensUpdateFlag ||| partEndsUpdateFlag ||| partChangesPlacementPreviewFlag) ≠ 0 ∨
        ((openingFlags ||| (if isLastPart then partEndsUpdateFlag else 0)) &&& partChangesPlacementPreviewFlag ≠ 0 ∧
          (openingFlags ||| (if isLastPart then partEndsUpdateFlag else 0)) &&& partOpensUpdateFlag = 0)) ∧
      decide ((openingFlags ||| (if isLastPart then partEndsUpdateFlag else 0)) &&& partEndsUpdateFlag ≠ 0) =
        isLastPart := by
  decide +kernel

theorem encodePartFlags_spec (opening : Option (PaintedUpdateOpening Frame Preview)) (isLastPart : Bool) :
    ¬(encodePartFlags json opening isLastPart &&&
          ~~~(partOpensUpdateFlag ||| partEndsUpdateFlag ||| partChangesPlacementPreviewFlag) ≠ 0 ∨
        (encodePartFlags json opening isLastPart &&& partChangesPlacementPreviewFlag ≠ 0 ∧
          encodePartFlags json opening isLastPart &&& partOpensUpdateFlag = 0)) ∧
      decide (encodePartFlags json opening isLastPart &&& partEndsUpdateFlag ≠ 0) = isLastPart := by
  cases opening with
  | none => exact knownPartFlags 0 (by decide) isLastPart
  | some opening =>
    have hknown : openingFlags json opening ∈ [(0 : UInt8), 1, 5] := by
      rcases openingFlags_spec json opening with ⟨hflags, _⟩ | ⟨hflags, _⟩
      all_goals
        rw [hflags]
        decide
    exact knownPartFlags _ hknown isLastPart

theorem readsBack_readPartOpening {opening : Option (PaintedUpdateOpening Frame Preview)} (isLastPart : Bool)
    (hlen : ((opening.map (writtenOpening json)).getD []).length < 2 ^ 64) :
    ReadsBack (readPartOpening json.parseFrame json.parsePreview (encodePartFlags json opening isLastPart))
      ((opening.map (writtenOpening json)).getD []) opening := by
  cases opening with
  | none =>
    have hopens : ¬encodePartFlags json none isLastPart &&& partOpensUpdateFlag ≠ 0 := by
      simp only [encodePartFlags, Option.map_none, Option.getD_none]
      cases isLastPart <;> decide
    rw [readPartOpening, if_neg hopens]
    exact .pure none
  | some opening =>
    have hrd := (readsBack_readUpdateOpening json hlen).map some
    have hopens : encodePartFlags json (some opening) isLastPart &&& partOpensUpdateFlag ≠ 0 ∧
        decide (encodePartFlags json (some opening) isLastPart &&& partChangesPlacementPreviewFlag ≠ 0) =
          (placementPreviewJson (opening.placementPreviewUpdate.write json.writePreview)).isSome := by
      rcases openingFlags_spec json opening with ⟨hflags, hchg⟩ | ⟨hflags, hchg⟩ <;>
      · simp only [encodePartFlags, Option.map_some, Option.getD_some, hflags, hchg]
        cases isLastPart <;> decide
    rw [readPartOpening, if_pos hopens.1, hopens.2]
    exact hrd

/-- **A part is read back**, when its sections are well formed and its counts are those of a payload. -/
theorem decodeFrame_encodePart {part : PaintedUpdatePart Frame Preview}
    (hwellFormed : ∀ paneSection ∈ part.paneSections, ∀ instruction ∈ paneSection.rowInstructions,
      instruction.IsWellFormed)
    (hcn : ∀ paneSection ∈ part.paneSections, paneSection.rowInstructions.length < 2 ^ 64)
    (hlen : ((part.updateOpening.map (writtenOpening json)).getD []).length < 2 ^ 64)
    (hsecs : part.paneSections.length < 2 ^ 64) :
    decodeSessionBinaryFrame json.parseFrame json.parsePreview (encodePart json part) =
      .ok (.paintedUpdatePart part) := by
  obtain ⟨opening, isLastPart, secs⟩ := part
  have hrd : ReadsBack (readPaintedUpdatePart json.parseFrame json.parsePreview)
      ([encodePartFlags json opening isLastPart] ++ ((opening.map (writtenOpening json)).getD [] ++
        (writeVarint secs.length ++ secs.flatMap encodeSection))) ⟨opening, isLastPart, secs⟩ := by
    obtain ⟨hknown, hl⟩ := encodePartFlags_spec json opening isLastPart
    refine (readsBack_readByte _).bind ?_
    rw [if_neg hknown, hl]
    refine (readsBack_readPartOpening json isLastPart hlen).bind ?_
    refine (readsBack_readVarint hsecs).bind ?_
    refine ReadsBack.bind_pure (.readMany fun paneSection hm => ?_) (.pure _)
    exact readsBack_readPaneSection (hwellFormed paneSection hm) (hcn paneSection hm)
  have hrun := hrd []
  rw [List.append_nil] at hrun
  simp only [encodePart, List.singleton_append] at hrun ⊢
  unfold decodeSessionBinaryFrame
  dsimp only
  rw [if_neg (by decide), if_neg (by decide), hrun]
  rfl

end Koshi.Ipc
