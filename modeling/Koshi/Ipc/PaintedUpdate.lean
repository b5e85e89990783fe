import Koshi.Core.Varint
import Koshi.Base.Reader

/-!
# Painted updates in binary frames

The encoder and the decoder of `koshi-ipc/src/painted_update.rs`. An update is cut into parts of bounded size, in the
middle of a pane's rows where it must; the part that opens the update carries its sequence and its JSON. The decoder
of the JSON is a parameter.
-/

namespace Koshi.Ipc

open Koshi.Core Base

/-- The largest payload of one frame. -/
def maxFrameByteCount : Nat := 16 * 1024 * 1024

def paintedUpdateFrameKind : UInt8 := 1

def imageChunkFrameKind : UInt8 := 2

def partOpensUpdateFlag : UInt8 := 1

def partEndsUpdateFlag : UInt8 := 2

def partChangesPlacementPreviewFlag : UInt8 := 4

def sectionOpensPaneFlag : UInt8 := 1

def sectionHasWindowFlag : UInt8 := 2

def sectionResetsRowsFlag : UInt8 := 4

def cursorVisibleFlag : UInt8 := 1

def cursorBlinkingFlag : UInt8 := 2

def keepInstructionTag : UInt8 := 0

def copyInstructionTag : UInt8 := 1

def newInstructionTag : UInt8 := 2

/-- The bytes a section takes besides its flags, its pane header and its instructions, at most. -/
def sectionFrameByteCount : Nat := 16 + maxVarintByteCount

/-- The bytes a part takes before its sections, at most, besides its opening. -/
def partFrameByteCount : Nat := 1 + 1 + maxVarintByteCount

/-! ### The parts of an update -/

/-- The sixteen bytes of a pane id. -/
structure PaneUuid where
  bytes : List UInt8
  byteCount : bytes.length = 16
  deriving DecidableEq

inductive PaneCursorShape where
  | block
  | underline
  | bar
  deriving DecidableEq

structure PaneCursor where
  rowIndex : UInt16
  columnIndex : UInt16
  isVisible : Bool
  isBlinking : Bool
  shape : Option PaneCursorShape
  deriving DecidableEq

structure PaneWindow where
  columnCount : UInt16
  rowCount : UInt16
  viewRowOffset : UInt64
  /-- The client drops the rows it holds before the row instructions run. -/
  isReset : Bool
  deriving DecidableEq

/-- Everything about one pane that changes with its output. -/
structure PaneHeader where
  cursor : PaneCursor
  viewTopRowIndex : UInt64
  retainedLineCount : UInt64
  paneWindow : Option PaneWindow
  deriving DecidableEq

/-- One step that builds a pane's rows, top row first. -/
inductive RowInstruction where
  | keep (rowCount : UInt16)
  | copy (sourceRowIndex rowCount : UInt16)
  | new (encodedRowBytes : List UInt8)
  deriving DecidableEq

structure PaneUpdate where
  paneId : PaneUuid
  paneHeader : PaneHeader
  rowInstructions : List RowInstruction
  deriving DecidableEq

/-- How a painted update changes the placement preview its client holds. -/
inductive PlacementPreviewUpdate (PreviewValue : Type) where
  | unchanged
  | cleared
  | replaced (previewValue : PreviewValue)
  deriving DecidableEq

/-- One pane's section of one part; without a header it goes on with the pane opened before it. -/
structure PaneSection where
  paneId : PaneUuid
  paneHeader : Option PaneHeader
  rowInstructions : List RowInstruction
  deriving DecidableEq

/-- What the part that opens an update carries before its sections. -/
structure PaintedUpdateOpening (Frame Preview : Type) where
  updateSequence : UInt64
  paintedFrame : Option Frame
  placementPreviewUpdate : PlacementPreviewUpdate Preview
  deriving DecidableEq

structure PaintedUpdatePart (Frame Preview : Type) where
  updateOpening : Option (PaintedUpdateOpening Frame Preview)
  isLastPart : Bool
  paneSections : List PaneSection
  deriving DecidableEq

/-- One chunk of an image record; it keeps the payload it was read from. -/
structure ImageChunkFrame where
  imageTransferId : UInt64
  byteOffset : UInt64
  isLastChunk : Bool
  framePayload : List UInt8
  deriving DecidableEq

inductive SessionBinaryFrame (Frame Preview : Type) where
  | paintedUpdatePart (part : PaintedUpdatePart Frame Preview)
  | imageChunk (chunk : ImageChunkFrame)
  | unknown (frameKind : UInt8)
  deriving DecidableEq

/-! ### The encoder -/

/-- Why an update was not encoded. -/
inductive PaintedUpdateEncodeError where
  | structureTooLarge (structureByteCount placementPreviewByteCount : Nat)
  | rowTooLarge (rowByteCount : Nat)
  deriving DecidableEq

def encodeRowInstruction : RowInstruction → List UInt8
  | .keep rowCount => keepInstructionTag :: writeVarint rowCount.toNat
  | .copy sourceRowIndex rowCount =>
    copyInstructionTag :: (writeVarint sourceRowIndex.toNat ++ writeVarint rowCount.toNat)
  | .new encodedRowBytes => newInstructionTag :: encodedRowBytes

/-- One section being filled. -/
structure OpenSection where
  paneId : PaneUuid
  /-- The section flags, then the pane header when the section opens the pane. -/
  headerBytes : List UInt8
  instructionBytes : List UInt8
  instructionCount : Nat

namespace OpenSection

def cursorShapeCode : Option PaneCursorShape → UInt8
  | none => 0
  | some .block => 1
  | some .underline => 2
  | some .bar => 3

def computeSectionFlags (paneHeader : PaneHeader) : UInt8 :=
  match paneHeader.paneWindow with
  | none => sectionOpensPaneFlag
  | some paneWindow =>
    let sectionFlags := sectionOpensPaneFlag ||| sectionHasWindowFlag
    if paneWindow.isReset then sectionFlags ||| sectionResetsRowsFlag else sectionFlags

def computeCursorFlags (cursor : PaneCursor) : UInt8 :=
  (if cursor.isVisible then cursorVisibleFlag else 0) ||| (if cursor.isBlinking then cursorBlinkingFlag else 0)

/-- The window fields of a header. -/
def encodePaneWindow : Option PaneWindow → List UInt8
  | none => []
  | some paneWindow =>
    writeVarint paneWindow.columnCount.toNat ++
      (writeVarint paneWindow.rowCount.toNat ++ writeVarint paneWindow.viewRowOffset.toNat)

/-- The header after the section flags. -/
def encodePaneHeader (paneHeader : PaneHeader) : List UInt8 :=
  writeVarint paneHeader.cursor.rowIndex.toNat ++ (writeVarint paneHeader.cursor.columnIndex.toNat ++
    ([computeCursorFlags paneHeader.cursor] ++ ([cursorShapeCode paneHeader.cursor.shape] ++
      (writeVarint paneHeader.viewTopRowIndex.toNat ++ (writeVarint paneHeader.retainedLineCount.toNat ++
        encodePaneWindow paneHeader.paneWindow)))))

def fromPaneUpdate (paneUpdate : PaneUpdate) : OpenSection where
  paneId := paneUpdate.paneId
  headerBytes := computeSectionFlags paneUpdate.paneHeader :: encodePaneHeader paneUpdate.paneHeader
  instructionBytes := []
  instructionCount := 0

/-- The section that goes on with a pane's row instructions, with no instruction yet. -/
def fromContinuedPaneId (paneId : PaneUuid) : OpenSection := ⟨paneId, [0], [], 0⟩

/-- The bytes the section takes once added to a part, at most. -/
def computeByteCountBound (openSection : OpenSection) : Nat :=
  sectionFrameByteCount + openSection.headerBytes.length + openSection.instructionBytes.length

def addInstruction (openSection : OpenSection) (instructionBytes : List UInt8) : OpenSection :=
  { openSection with
    instructionBytes := openSection.instructionBytes ++ instructionBytes
    instructionCount := openSection.instructionCount + 1 }

end OpenSection

structure PartWriter where
  maximumPartByteCount : Nat
  partPayloads : List (List UInt8)
  /-- The update's sequence and JSON while the first part is being filled, empty after. -/
  openingBytes : List UInt8
  openingFlags : UInt8
  sectionBytes : List UInt8
  sectionCount : Nat

variable (partWriter : PartWriter)

namespace PartWriter

def canTakeSectionBytes (sectionByteCount : Nat) : Bool :=
  partFrameByteCount + partWriter.openingBytes.length + partWriter.sectionBytes.length + sectionByteCount ≤
    partWriter.maximumPartByteCount

/-- Appends a section whole to the part being filled. -/
def addSection (openSection : OpenSection) : PartWriter :=
  { partWriter with
    sectionBytes := partWriter.sectionBytes ++ (openSection.paneId.bytes ++ (openSection.headerBytes ++
      (writeVarint openSection.instructionCount ++ openSection.instructionBytes)))
    sectionCount := partWriter.sectionCount + 1 }

/-- Finishes the part being filled as a payload, and starts an empty part that does not open the update. -/
def closePart (isLastPart : Bool) : PartWriter :=
  let partFlags := (if partWriter.partPayloads.isEmpty then partWriter.openingFlags else 0) |||
    (if isLastPart then partEndsUpdateFlag else 0)
  let partPayload := [paintedUpdateFrameKind] ++ ([partFlags] ++ (partWriter.openingBytes ++
    (writeVarint partWriter.sectionCount ++ partWriter.sectionBytes)))
  { partWriter with
    partPayloads := partWriter.partPayloads ++ [partPayload]
    openingBytes := []
    sectionBytes := []
    sectionCount := 0 }

end PartWriter

def encodeInstructionStep (paneId : PaneUuid) (state : PartWriter × OpenSection) (rowInstruction : RowInstruction) :
    Except PaintedUpdateEncodeError (PartWriter × OpenSection) :=
  let instructionBytes := encodeRowInstruction rowInstruction
  if !state.1.canTakeSectionBytes (state.2.computeByteCountBound + instructionBytes.length) then
    let partWriter := (state.1.addSection state.2).closePart false
    let openSection := OpenSection.fromContinuedPaneId paneId
    if !partWriter.canTakeSectionBytes (openSection.computeByteCountBound + instructionBytes.length) then
      .error (.rowTooLarge (instructionBytes.length - 1))
    else .ok (partWriter, openSection.addInstruction instructionBytes)
  else .ok (state.1, state.2.addInstruction instructionBytes)

def encodePaneStep (paneUpdate : PaneUpdate) : Except PaintedUpdateEncodeError PartWriter := do
  let openSection := OpenSection.fromPaneUpdate paneUpdate
  let partWriter := if !partWriter.canTakeSectionBytes openSection.computeByteCountBound then partWriter.closePart false
    else partWriter
  let state ← paneUpdate.rowInstructions.foldlM (encodeInstructionStep paneUpdate.paneId) (partWriter, openSection)
  return state.1.addSection state.2

/-- The preview JSON an opening carries, empty when the client drops its preview. -/
def placementPreviewJson : PlacementPreviewUpdate (List UInt8) → Option (List UInt8)
  | .unchanged => none
  | .cleared => some []
  | .replaced placementPreviewJsonBytes => some placementPreviewJsonBytes

def encodeOpening (updateSequence : UInt64) (structureJsonBytes : List UInt8)
    (placementPreviewJsonBytes : Option (List UInt8)) : List UInt8 :=
  writeVarint updateSequence.toNat ++ (writeVarint structureJsonBytes.length ++ (structureJsonBytes ++
    match placementPreviewJsonBytes with
    | none => []
    | some previewBytes => writeVarint previewBytes.length ++ previewBytes))

def encodePaintedUpdateInParts (updateSequence : UInt64) (structureJsonBytes : Option (List UInt8))
    (placementPreviewUpdate : PlacementPreviewUpdate (List UInt8)) (paneUpdates : List PaneUpdate)
    (maximumPartByteCount : UInt64) : Except PaintedUpdateEncodeError (List (List UInt8)) :=
  let structureJsonBytes := structureJsonBytes.getD []
  let placementPreviewJsonBytes := placementPreviewJson placementPreviewUpdate
  let openingBytes := encodeOpening updateSequence structureJsonBytes placementPreviewJsonBytes
  if partFrameByteCount + openingBytes.length > maximumPartByteCount.toNat then
    .error (.structureTooLarge structureJsonBytes.length ((placementPreviewJsonBytes.map List.length).getD 0))
  else do
    let partWriter : PartWriter := {
      maximumPartByteCount := maximumPartByteCount.toNat
      partPayloads := []
      openingBytes
      openingFlags := if placementPreviewJsonBytes.isSome then partOpensUpdateFlag ||| partChangesPlacementPreviewFlag
        else partOpensUpdateFlag
      sectionBytes := []
      sectionCount := 0 }
    let partWriter ← paneUpdates.foldlM encodePaneStep partWriter
    return (partWriter.closePart true).partPayloads

def encodePaintedUpdate (updateSequence : UInt64) (structureJsonBytes : Option (List UInt8))
    (placementPreviewUpdate : PlacementPreviewUpdate (List UInt8)) (paneUpdates : List PaneUpdate) :
    Except PaintedUpdateEncodeError (List (List UInt8)) :=
  encodePaintedUpdateInParts updateSequence structureJsonBytes placementPreviewUpdate paneUpdates
    (UInt64.ofNat maxFrameByteCount)

/-! ### The decoder -/

/-- Why no frame was read. -/
inductive SessionBinaryFrameDecodeError where
  | missingFrameKind
  | truncated
  | varintTooLong
  | valueOutOfRange (fieldName : String) (decodedValue : Nat)
  | unknownFlags (fieldName : String) (flagBits : UInt8)
  | unknownRowInstruction (instructionTag : UInt8)
  | trailingBytes (trailingByteCount : Nat)
  | malformedStructure (errorDetail : String)
  deriving DecidableEq

/-- The cursor over the bytes of one part. -/
abbrev PartReader := Reader SessionBinaryFrameDecodeError UInt8

namespace PartReader

def readVarint : PartReader Nat := fun remainingBytes =>
  match Core.readVarint remainingBytes with
  | .ok (value, unreadBytes) => .ok (value, unreadBytes)
  | .error .truncated => .error .truncated
  | .error .tooLong => .error .varintTooLong

def readBytes (byteCount : Nat) : PartReader (List UInt8) := fun remainingBytes =>
  if byteCount ≤ remainingBytes.length then .ok (remainingBytes.take byteCount, remainingBytes.drop byteCount)
  else .error .truncated

def readByte : PartReader UInt8
  | [] => .error .truncated
  | byte :: unreadBytes => .ok (byte, unreadBytes)

def readU16 (fieldName : String) : PartReader UInt16 := do
  let decodedValue ← readVarint
  if decodedValue < 65536 then return UInt16.ofNat decodedValue
  else throw (.valueOutOfRange fieldName decodedValue)

def readRowCount : PartReader UInt16 := do
  let rowCount ← readU16 "row_count"
  if rowCount = 0 then throw (.valueOutOfRange "row_count" 0) else return rowCount

/-- The bytes of a new row: its varint, and as many bytes as it counts. -/
def readEncodedRow : PartReader (List UInt8) := fun rowStartBytes =>
  match readVarint.run rowStartBytes with
  | .error decodeError => .error decodeError
  | .ok (bodyByteCount, bodyBytes) =>
    match (readBytes bodyByteCount).run bodyBytes with
    | .error decodeError => .error decodeError
    | .ok (_, unreadBytes) => .ok (rowStartBytes.take (rowStartBytes.length - unreadBytes.length), unreadBytes)

def readRowInstruction : PartReader RowInstruction := do
  let instructionTag ← readByte
  if instructionTag = keepInstructionTag then
    let rowCount ← readRowCount
    return .keep rowCount
  else if instructionTag = copyInstructionTag then
    let sourceRowIndex ← readU16 "source_row_index"
    let rowCount ← readRowCount
    return .copy sourceRowIndex rowCount
  else if instructionTag = newInstructionTag then
    let encodedRowBytes ← readEncodedRow
    return .new encodedRowBytes
  else throw (.unknownRowInstruction instructionTag)

/-- A shape code this build does not know reads as none. -/
def decodeCursorShape (code : UInt8) : Option PaneCursorShape :=
  if code = 1 then some .block else if code = 2 then some .underline else if code = 3 then some .bar else none

def readPaneWindow (sectionFlags : UInt8) : PartReader (Option PaneWindow) := do
  if sectionFlags &&& sectionHasWindowFlag ≠ 0 then
    let columnCount ← readU16 "column_count"
    let rowCount ← readU16 "row_count"
    let viewRowOffset ← readVarint
    return some ⟨columnCount, rowCount, UInt64.ofNat viewRowOffset, sectionFlags &&& sectionResetsRowsFlag ≠ 0⟩
  else if sectionFlags &&& sectionResetsRowsFlag ≠ 0 then throw (.unknownFlags "section_flags" sectionFlags)
  else return none

def readPaneHeader (sectionFlags : UInt8) : PartReader PaneHeader := do
  let rowIndex ← readU16 "cursor_row_index"
  let columnIndex ← readU16 "cursor_column_index"
  let cursorFlags ← readByte
  if cursorFlags &&& ~~~(cursorVisibleFlag ||| cursorBlinkingFlag) ≠ 0 then
    throw (.unknownFlags "cursor_flags" cursorFlags)
  else
    let shapeCode ← readByte
    let viewTopRowIndex ← readVarint
    let retainedLineCount ← readVarint
    let paneWindow ← readPaneWindow sectionFlags
    return {
      cursor := ⟨rowIndex, columnIndex, cursorFlags &&& cursorVisibleFlag ≠ 0, cursorFlags &&& cursorBlinkingFlag ≠ 0,
        decodeCursorShape shapeCode⟩
      viewTopRowIndex := UInt64.ofNat viewTopRowIndex
      retainedLineCount := UInt64.ofNat retainedLineCount
      paneWindow }

/-- The sixteen bytes of a pane id. -/
def readPaneUuid : PartReader PaneUuid := fun remainingBytes =>
  if h : (remainingBytes.take 16).length = 16 then .ok (⟨remainingBytes.take 16, h⟩, remainingBytes.drop 16)
  else .error .truncated

def readSectionHeader (sectionFlags : UInt8) : PartReader (Option PaneHeader) :=
  if sectionFlags &&& sectionOpensPaneFlag ≠ 0 then some <$> readPaneHeader sectionFlags else pure none

def readPaneSection : PartReader PaneSection := do
  let paneId ← readPaneUuid
  let sectionFlags ← readByte
  if sectionFlags &&& ~~~(sectionOpensPaneFlag ||| sectionHasWindowFlag ||| sectionResetsRowsFlag) ≠ 0 ∨
      (sectionFlags &&& sectionOpensPaneFlag = 0 ∧ sectionFlags ≠ 0) then
    throw (.unknownFlags "section_flags" sectionFlags)
  else
    let paneHeader ← readSectionHeader sectionFlags
    let instructionCount ← readVarint
    let rowInstructions ← readMany readRowInstruction instructionCount
    return ⟨paneId, paneHeader, rowInstructions⟩

variable {Frame Preview : Type}

/-- A value of the opening's JSON; no bytes stand for no value. -/
def parseStructureJson {Value : Type} (parseJson : List UInt8 → Except String Value) (jsonBytes : List UInt8) :
    PartReader Value :=
  match parseJson jsonBytes with
  | .ok value => pure value
  | .error errorDetail => throw (.malformedStructure errorDetail)

variable (parseFrame : List UInt8 → Except String Frame)

/-- The painted frame of an opening; no bytes stand for none. -/
def readPaintedFrame (structureJsonBytes : List UInt8) : PartReader (Option Frame) :=
  if structureJsonBytes.isEmpty then pure none else some <$> parseStructureJson parseFrame structureJsonBytes

variable (parsePreview : List UInt8 → Except String Preview)

/-- The preview of an opening that changes it; no bytes clear it. -/
def readChangedPreview : PartReader (PlacementPreviewUpdate Preview) := do
  let placementPreviewByteCount ← readVarint
  let placementPreviewJsonBytes ← readBytes placementPreviewByteCount
  if placementPreviewJsonBytes.isEmpty then return .cleared
  else .replaced <$> parseStructureJson parsePreview placementPreviewJsonBytes

def readPlacementPreviewUpdate (isPlacementPreviewChanged : Bool) : PartReader (PlacementPreviewUpdate Preview) :=
  if isPlacementPreviewChanged then readChangedPreview parsePreview else pure .unchanged

def readUpdateOpening (isPlacementPreviewChanged : Bool) : PartReader (PaintedUpdateOpening Frame Preview) := do
  let updateSequence ← readVarint
  let structureByteCount ← readVarint
  let structureJsonBytes ← readBytes structureByteCount
  let paintedFrame ← readPaintedFrame parseFrame structureJsonBytes
  let placementPreviewUpdate ← readPlacementPreviewUpdate parsePreview isPlacementPreviewChanged
  return ⟨UInt64.ofNat updateSequence, paintedFrame, placementPreviewUpdate⟩

def readPartOpening (partFlags : UInt8) : PartReader (Option (PaintedUpdateOpening Frame Preview)) :=
  if partFlags &&& partOpensUpdateFlag ≠ 0 then
    some <$> readUpdateOpening parseFrame parsePreview (partFlags &&& partChangesPlacementPreviewFlag ≠ 0)
  else pure none

def readPaintedUpdatePart : PartReader (PaintedUpdatePart Frame Preview) := do
  let partFlags ← readByte
  if partFlags &&& ~~~(partOpensUpdateFlag ||| partEndsUpdateFlag ||| partChangesPlacementPreviewFlag) ≠ 0 ∨
      (partFlags &&& partChangesPlacementPreviewFlag ≠ 0 ∧ partFlags &&& partOpensUpdateFlag = 0) then
    throw (.unknownFlags "part_flags" partFlags)
  else
    let updateOpening ← readPartOpening parseFrame parsePreview partFlags
    let sectionCount ← readVarint
    let paneSections ← readMany readPaneSection sectionCount
    return ⟨updateOpening, partFlags &&& partEndsUpdateFlag ≠ 0, paneSections⟩

end PartReader

def fromBigEndianBytes (bytes : List UInt8) : UInt64 :=
  UInt64.ofNat (bytes.foldl (fun value byte => 256 * value + byte.toNat) 0)

def decodeImageChunkFrame (framePayload : List UInt8) : Except SessionBinaryFrameDecodeError ImageChunkFrame :=
  match framePayload[17]? with
  | none => .error .truncated
  | some lastChunkFlag =>
    if lastChunkFlag = 0 ∨ lastChunkFlag = 1 then
      .ok ⟨fromBigEndianBytes ((framePayload.drop 1).take 8), fromBigEndianBytes ((framePayload.drop 9).take 8),
        lastChunkFlag = 1, framePayload⟩
    else .error (.valueOutOfRange "last_chunk_flag" lastChunkFlag.toNat)

def decodeSessionBinaryFrame {Frame Preview : Type} (parseFrame : List UInt8 → Except String Frame)
    (parsePreview : List UInt8 → Except String Preview) (framePayload : List UInt8) :
    Except SessionBinaryFrameDecodeError (SessionBinaryFrame Frame Preview) :=
  match framePayload with
  | [] => .error .missingFrameKind
  | frameKind :: partBytes =>
    if frameKind = imageChunkFrameKind then (decodeImageChunkFrame framePayload).map .imageChunk
    else if frameKind ≠ paintedUpdateFrameKind then .ok (.unknown frameKind)
    else
      match (PartReader.readPaintedUpdatePart parseFrame parsePreview).run partBytes with
      | .error decodeError => .error decodeError
      | .ok (paintedUpdatePart, remainingBytes) =>
        if remainingBytes ≠ [] then .error (.trailingBytes remainingBytes.length)
        else .ok (.paintedUpdatePart paintedUpdatePart)

end Koshi.Ipc
