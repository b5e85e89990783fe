import Koshi.Terminal.RowEncoding

/-!
# The row decoder with its panics

The decoder of `RowEncoding` again, with every slice, every subtraction and every index of the source that could panic
checked: no value stands for a panic, or for a loop that would turn on. A text slice of a `str` has to start at a
character boundary inside the text.
-/

namespace Koshi.Terminal

open Koshi.Core

/-- A decode that may panic, with no value there. -/
abbrev CheckedDecode (α : Type) := ExceptT DecodeFailure Option α

/-- A step that cannot panic. -/
def CheckedDecode.returns {α : Type} (result : Except DecodeFailure α) : CheckedDecode α := (some result : Option _)

def CheckedDecode.panics {α : Type} : CheckedDecode α := (none : Option _)

/-- A subtraction of unsigned integers. -/
def checkedSub (minuend subtrahend : Nat) : CheckedDecode Nat :=
  if subtrahend ≤ minuend then .returns (.ok (minuend - subtrahend)) else .panics

/-- `slice[start..]`. -/
def checkedDrop (startIndex : Nat) (bytes : List UInt8) : CheckedDecode (List UInt8) :=
  if startIndex ≤ bytes.length then .returns (.ok (bytes.drop startIndex)) else .panics

/-- `str::is_char_boundary`, of the text still ahead: its end, or no continuation byte. -/
def isCharacterBoundary (textBytes : List UInt8) : Bool := textBytes.head?.all fun textByte => textByte &&& 0xc0 ≠ 0x80

def readCharacterChecked (runTextKind : RunTextKind) (textBytes : List UInt8) : CheckedDecode (Option Char) :=
  if runTextKind = .utf8 ∧ isCharacterBoundary textBytes = false then .panics
  else .returns (.ok (readCharacter runTextKind textBytes))

def splitEncodedRowChecked (streamBytes : List UInt8) (rowCells : List Cell) :
    CheckedDecode (List UInt8 × List UInt8) := do
  let (bodyByteCount, remainingBytes) ← CheckedDecode.returns (withCells rowCells (ByteReader.readVarint streamBytes))
  let prefixByteCount ← checkedSub streamBytes.length remainingBytes.length
  let availableByteCount := remainingBytes.length
  if bodyByteCount ≤ availableByteCount then
    let trailingBytes ← checkedDrop (prefixByteCount + bodyByteCount) streamBytes
    .returns (.ok (streamBytes.take (prefixByteCount + bodyByteCount), trailingBytes))
  else .returns (.error (.bodyPastEnd bodyByteCount availableByteCount, rowCells))

def decodeRunLoopChecked (context : RunContext) : Nat → (textBytes : List UInt8) → (itemIndex decodedCellCount : Nat) →
    ExceptionReader → (bytes : List UInt8) → (rowCells : List Cell) →
    CheckedDecode (ExceptionReader × Nat × List UInt8 × List Cell)
  | 0, textBytes, _, decodedCellCount, exceptionReader, bytes, rowCells =>
    if textBytes = [] then .returns (.ok (exceptionReader, decodedCellCount, bytes, rowCells)) else .panics
  | turnCount + 1, textBytes, itemIndex, decodedCellCount, exceptionReader, bytes, rowCells => do
    match ← readCharacterChecked context.runTextKind textBytes with
    | none => .returns (.ok (exceptionReader, decodedCellCount, bytes, rowCells))
    | some baseCharacter =>
      let nextExceptionItemIndex := exceptionReader.nextExceptionItemIndex
      let asciiTextBytes := takePlainAsciiBytes itemIndex nextExceptionItemIndex textBytes
      if asciiTextBytes.length > 0 then
        if decodedCellCount + asciiTextBytes.length > context.runEndCellCount then
          .returns (.error (.cellCountMismatch context.columnCount (context.runEndCellCount + 1), rowCells))
        else
          let textBytes ← checkedDrop asciiTextBytes.length textBytes
          decodeRunLoopChecked context turnCount textBytes (itemIndex + asciiTextBytes.length)
            (decodedCellCount + asciiTextBytes.length) exceptionReader bytes
            (rowCells ++ asciiTextBytes.map fun textByte =>
              Cell.fromCharacter (Char.ofNat textByte.toNat) 1 context.runStyle)
      else if itemIndex < nextExceptionItemIndex then
        if decodedCellCount ≥ context.runEndCellCount then
          .returns (.error (.cellCountMismatch context.columnCount (decodedCellCount + 1), rowCells))
        else
          let textBytes ← checkedDrop baseCharacter.utf8Size textBytes
          decodeRunLoopChecked context turnCount textBytes (itemIndex + 1) (decodedCellCount + 1) exceptionReader bytes
            (rowCells ++ [.fromCharacter baseCharacter 1 context.runStyle])
      else
        let ((itemState, exceptionReader), bytes) ← CheckedDecode.returns (withCells rowCells
          (readItemExceptions itemIndex exceptionReader.remainingExceptionCount exceptionReader.nextException
            .initial bytes))
        let itemCellCount := itemState.itemShape.countItemCells
        let itemEndCellCount := itemCellCount * itemState.repeatItemCount + decodedCellCount
        if itemEndCellCount > context.runEndCellCount then
          .returns (.error (.cellCountMismatch context.columnCount
            (min (decodedCellCount + min (itemCellCount * itemState.repeatItemCount) u64Max) u64Max), rowCells))
        else
          let textBytes ← checkedDrop baseCharacter.utf8Size textBytes
          decodeRunLoopChecked context turnCount textBytes (itemIndex + 1) itemEndCellCount exceptionReader bytes
            (rowCells ++ (List.replicate itemState.repeatItemCount
              (buildItemCells baseCharacter itemState context.runStyle)).flatten)

def decodeRunChecked (styles : List Style) (columnCount contentCellCount rowStartCellIndex : Nat) (bytes : List UInt8)
    (rowCells : List Cell) : CheckedDecode (List UInt8 × List Cell) := do
  let (styleIndex, bytes) ← CheckedDecode.returns (withCells rowCells (ByteReader.readVarint bytes))
  match styles[styleIndex]? with
  | none => .returns (.error (.styleIndexOutOfTable styleIndex styles.length, rowCells))
  | some runStyle =>
    let (runCellCount, bytes) ← CheckedDecode.returns (withCells rowCells (ByteReader.readVarint bytes))
    let decodedCellCount ← checkedSub rowCells.length rowStartCellIndex
    let runEndCellCount := decodedCellCount + runCellCount
    if runEndCellCount > contentCellCount then
      .returns (.error (.cellCountMismatch columnCount (min runEndCellCount u64Max), rowCells))
    else
      let (textByteCount, bytes) ← CheckedDecode.returns (withCells rowCells (ByteReader.readVarint bytes))
      let (runTextBytes, bytes) ← CheckedDecode.returns (withCells rowCells (ByteReader.readBytes textByteCount bytes))
      let runTextKind := if runTextBytes.all isAsciiByte then RunTextKind.ascii else .utf8
      if runTextKind = .utf8 ∧ (fromUtf8? runTextBytes).isNone then .returns (.error (.invalidUtf8, rowCells))
      else
        let (exceptionCount, bytes) ← CheckedDecode.returns (withCells rowCells
          (ByteReader.readBoundedVarint "exception_count" bytes.length bytes))
        let (exceptionReader, bytes) ← CheckedDecode.returns
            (withCells rowCells (readNextException exceptionCount 0 bytes))
        let (exceptionReader, decodedCellCount, bytes, rowCells) ← decodeRunLoopChecked
          ⟨columnCount, runStyle, runTextKind, runEndCellCount, rowStartCellIndex⟩ runTextBytes.length runTextBytes
          0 decodedCellCount exceptionReader bytes rowCells
        if exceptionReader.nextException.isSome then .returns (.error (.exceptionPastRun, rowCells))
        else if decodedCellCount ≠ runEndCellCount then
          .returns (.error (.cellCountMismatch columnCount decodedCellCount, rowCells))
        else .returns (.ok (bytes, rowCells))

def decodeRunsChecked (styles : List Style) (columnCount contentCellCount rowStartCellIndex : Nat) :
    Nat → List UInt8 → List Cell → CheckedDecode (List UInt8 × List Cell)
  | 0, bytes, rowCells => .returns (.ok (bytes, rowCells))
  | runCount + 1, bytes, rowCells => do
    let (bytes, rowCells) ← decodeRunChecked styles columnCount contentCellCount rowStartCellIndex bytes rowCells
    decodeRunsChecked styles columnCount contentCellCount rowStartCellIndex runCount bytes rowCells

def decodeRowRunsChecked (encodedRowBytes : List UInt8) (rowStartCellIndex : Nat) (rowCells : List Cell) :
    CheckedDecode (EncodedRowShape × List Cell) := do
  let (encodedRow, trailingBytes) ← splitEncodedRowChecked encodedRowBytes rowCells
  if trailingBytes.length > 0 then .returns (.error (.trailingBytes trailingBytes.length, rowCells))
  else
    let (shape, bytes) ← CheckedDecode.returns (withCells rowCells (readRowHeader encodedRow))
    let (styleCount, bytes) ← CheckedDecode.returns (withCells rowCells
      (ByteReader.readBoundedVarint "style_count" bytes.length bytes))
    let (styles, bytes) ← CheckedDecode.returns (withCells rowCells (readStyleEntries styleCount bytes))
    let contentCellCount ← checkedSub shape.columnCount shape.trailingBlankCount
    let (runCount, bytes) ← CheckedDecode.returns (withCells rowCells
      (ByteReader.readBoundedVarint "run_count" bytes.length bytes))
    let (bytes, rowCells) ← decodeRunsChecked styles shape.columnCount contentCellCount rowStartCellIndex runCount bytes
      rowCells
    let decodedCellCount ← checkedSub rowCells.length rowStartCellIndex
    if decodedCellCount ≠ contentCellCount then
      .returns (.error (.cellCountMismatch shape.columnCount (decodedCellCount + shape.trailingBlankCount), rowCells))
    else if bytes.length > 0 then .returns (.error (.trailingBytes bytes.length, rowCells))
    else .returns (.ok (shape, rowCells))

def decodeRowRunCellsIntoChecked (encodedRowBytes : List UInt8) (rowCells : List Cell) :
    Option (Except RowDecodeError EncodedRowShape × List Cell) :=
  match (decodeRowRunsChecked encodedRowBytes rowCells.length rowCells).run with
  | none => none
  | some (.ok (shape, decodedCells)) => some (.ok shape, decodedCells)
  | some (.error (error, decodedCells)) => some (.error error, decodedCells.take rowCells.length)

def decodeRowCellsChecked (encodedRowBytes : List UInt8) : Option (Except RowDecodeError DecodedRow) :=
  (decodeRowRunCellsIntoChecked encodedRowBytes []).map fun
    | (.error error, _) => .error error
    | (.ok shape, rowCells) =>
      .ok ⟨rowCells.take shape.columnCount ++
        List.replicate (shape.columnCount - rowCells.length) Cell.buildBlank, shape.rowEnd⟩

end Koshi.Terminal
