import Std.Data.HashMap
import Koshi.Core.Varint
import Koshi.Base.MachineInt
import Koshi.Terminal.Cell

/-!
# The row encoding

One terminal row as a compact byte string (`koshi-terminal/src/row_encoding.rs`). The encoder writes a
header, a style table and one run per stretch of cells in one style; the text of a run holds one base
character per item, and exceptions say where an item is not one plain narrow cell. A cursor over a slice is
the list of cells or bytes still ahead of it.
-/

namespace Koshi.Terminal

open Base Koshi.Core

def widePairExceptionKind : Nat := 0
def widthExceptionKind : Nat := 1
def combiningExceptionKind : Nat := 2
def repeatExceptionKind : Nat := 3

/-- The fewest equal items one repeat exception stands for. -/
def minRepeatedItemCount : Nat := 4

/-- The largest style table a row searches entry by entry. -/
def maxLinearStyleSearchCount : Nat := 32

/-! ## The style table -/

/-- A number that two colors share exactly when they are equal. -/
def computeColorKey : Color → Nat
  | .default => 0
  | .indexed paletteIndex => 0x01000000 ||| paletteIndex.toNat
  | .rgb red green blue => 0x02000000 ||| red.toNat <<< 16 ||| green.toNat <<< 8 ||| blue.toNat

def computeUnderlineColorKey : Option Color → Nat
  | none => 0
  | some underlineColor => 1 + computeColorKey underlineColor

/-- A number that two styles share exactly when they are equal. -/
def computeStyleKey (style : Style) : Nat :=
  computeColorKey style.foregroundColor ||| computeColorKey style.backgroundColor <<< 32 |||
    style.attributes.attributeWord <<< 64 ||| computeUnderlineColorKey style.underlineColor <<< 80

/-- Each distinct style of the row once, in the order the row first uses it. `styleIndexByKey` is empty while
the table holds at most `maxLinearStyleSearchCount` styles. -/
structure RowStyleTable where
  styles : List Style
  styleKeys : List Nat
  styleIndexByKey : Std.HashMap Nat Nat

def RowStyleTable.empty : RowStyleTable := ⟨[], [], ∅⟩

def RowStyleTable.findOrAddStyle (table : RowStyleTable) (style : Style) : Nat × RowStyleTable :=
  let styleKey := computeStyleKey style
  let foundStyleIndex :=
    if table.styleKeys.length ≤ maxLinearStyleSearchCount then
      table.styleKeys.findIdx? (· == styleKey)
    else table.styleIndexByKey[styleKey]?
  match foundStyleIndex with
  | some styleIndex => (styleIndex, table)
  | none =>
    let styleIndex := table.styles.length
    let styleKeys := table.styleKeys ++ [styleKey]
    let styleIndexByKey :=
      if styleKeys.length = maxLinearStyleSearchCount + 1 then
        styleKeys.zipIdx.foldl (fun indexes (existingStyleKey, existingStyleIndex) =>
          indexes.insert existingStyleKey existingStyleIndex) table.styleIndexByKey
      else if styleKeys.length > maxLinearStyleSearchCount + 1 then
        table.styleIndexByKey.insert styleKey styleIndex
      else table.styleIndexByKey
    (styleIndex, ⟨table.styles ++ [style], styleKeys, styleIndexByKey⟩)

/-! ## Encoding a run -/

def isAscii (character : Char) : Bool := character.toNat < 128

/-- The continuation code points the encoding carries: none for a Kitty placeholder cell. -/
def listEncodedCombiningCharacters (cell : Cell) : List Char :=
  if cell.hasImagePlaceholder then [] else cell.listCombiningCharacters

/-- The cell encodes as an item that takes no exception but a repeat. -/
def isPlainNarrowCell (cell : Cell) : Bool :=
  cell.displayWidth == 1 && (listEncodedCombiningCharacters cell).isEmpty

/-- The right half a wide glyph leaves. -/
def isStandardContinuationCell (cell : Cell) : Bool :=
  cell.displayWidth == 0 && cell.character == ' ' && (listEncodedCombiningCharacters cell).isEmpty

/-- Two cells of one run encode alike. -/
def isCellEncodingEqual (firstCell secondCell : Cell) : Bool :=
  firstCell.character == secondCell.character && firstCell.displayWidth == secondCell.displayWidth &&
    listEncodedCombiningCharacters firstCell == listEncodedCombiningCharacters secondCell

/-- Two items of one run encode to the same item. -/
def isItemEncodingEqual (firstItemCells secondItemCells : List Cell) : Bool :=
  (firstItemCells.zip secondItemCells).all fun (firstCell, secondCell) =>
    isCellEncodingEqual firstCell secondCell

def countUtf8Bytes (characters : List Char) : Nat := (characters.map Char.utf8Size).sum

/-- The run being written. -/
structure RunWriter where
  runText : List UInt8
  runExceptions : List UInt8
  exceptionCount : Nat
  previousExceptionItemIndex : Nat
  itemIndex : Nat
  textByteCount : Nat

def RunWriter.empty : RunWriter := ⟨[], [], 0, 0, 0, 0⟩

variable (writer : RunWriter)

/-- Starts one exception of `itemIndex`: its distance from the item the previous one named, and its kind. -/
def RunWriter.writeExceptionHeader (itemIndex exceptionKind : Nat) : RunWriter :=
  { writer with
    runExceptions := writer.runExceptions ++ writeVarint (itemIndex - writer.previousExceptionItemIndex) ++
      writeVarint exceptionKind
    previousExceptionItemIndex := itemIndex }

/-- Appends the payload of the exception just started, and counts it. -/
def RunWriter.finishException (payloadBytes : List UInt8) : RunWriter :=
  { writer with
    runExceptions := writer.runExceptions ++ payloadBytes
    exceptionCount := writer.exceptionCount + 1 }

/-- Appends the character of each ASCII cell as one byte. -/
def RunWriter.pushAsciiCellText (asciiCells : List Cell) : RunWriter :=
  { writer with runText := writer.runText ++ asciiCells.map fun cell => cell.character.toNat.toUInt8 }

def RunWriter.writeRepeatedAsciiGroup (asciiCells : List Cell) (groupStartIndex : Nat) : RunWriter :=
  let writer := writer.pushAsciiCellText (asciiCells.take (groupStartIndex + 1))
  let groupItemIndex := writer.itemIndex + groupStartIndex
  let writer := writer.writeExceptionHeader groupItemIndex repeatExceptionKind
  let writer := writer.finishException (writeVarint (asciiCells.length - groupStartIndex - 1))
  { writer with itemIndex := groupItemIndex + 1 }

/-- The state of the scan over plain narrow ASCII cells, with indexes counted from the cell it started at. -/
structure AsciiScan where
  cellIndex : Nat
  unwrittenCellIndex : Nat
  groupStartIndex : Nat
  groupCharacter : Char
  writer : RunWriter

def sliceCells (runCells : List Cell) (startIndex endIndex : Nat) : List Cell :=
  (runCells.drop startIndex).take (endIndex - startIndex)

/-- Scans the plain narrow ASCII cells at the front of `followingCells`; each group of four or more equal ones
is written when it ends. `runCells` are the cells the scan started at. -/
def scanAsciiCells (isPlainAsciiRun : Bool) (runCells : List Cell) : List Cell → AsciiScan → AsciiScan
  | [], scan => scan
  | asciiCell :: followingCells, scan =>
    let asciiCharacter := asciiCell.character
    if !isPlainAsciiRun && (!isAscii asciiCharacter || !isPlainNarrowCell asciiCell) then scan
    else
      let scan :=
        if asciiCharacter ≠ scan.groupCharacter then
          let scan :=
            if scan.cellIndex - scan.groupStartIndex ≥ minRepeatedItemCount then
              { scan with
                writer := scan.writer.writeRepeatedAsciiGroup
                  (sliceCells runCells scan.unwrittenCellIndex scan.cellIndex)
                  (scan.groupStartIndex - scan.unwrittenCellIndex)
                unwrittenCellIndex := scan.cellIndex }
            else scan
          { scan with groupCharacter := asciiCharacter, groupStartIndex := scan.cellIndex }
        else scan
      scanAsciiCells isPlainAsciiRun runCells followingCells { scan with cellIndex := scan.cellIndex + 1 }

/-- Writes what the scan left unwritten: a last group, or single cells. -/
def finishAsciiScan (runCells : List Cell) (scan : AsciiScan) : RunWriter :=
  let unwrittenCells := sliceCells runCells scan.unwrittenCellIndex scan.cellIndex
  let writer :=
    if scan.cellIndex - scan.groupStartIndex ≥ minRepeatedItemCount then
      scan.writer.writeRepeatedAsciiGroup unwrittenCells (scan.groupStartIndex - scan.unwrittenCellIndex)
    else
      let writer := scan.writer.pushAsciiCellText unwrittenCells
      { writer with itemIndex := writer.itemIndex + (scan.cellIndex - scan.unwrittenCellIndex) }
  { writer with textByteCount := writer.textByteCount + scan.cellIndex }

/-- How often the item `itemCells` repeats at the front of `followingCells`. The first argument bounds the
turns: each one takes the cells of an item. -/
def countRepeatedItems (itemCells : List Cell) : Nat → List Cell → Nat
  | 0, _ => 0
  | turnCount + 1, followingCells =>
    if itemCells.length ≤ followingCells.length ∧
        isItemEncodingEqual itemCells (followingCells.take itemCells.length) then
      1 + countRepeatedItems itemCells turnCount (followingCells.drop itemCells.length)
    else 0

/-- The exception of an item that is a wide pair, or one cell that is not narrow. -/
def RunWriter.writeShapeException (isWidePair : Bool) (displayWidth : Nat) : RunWriter :=
  if isWidePair then
    (writer.writeExceptionHeader writer.itemIndex widePairExceptionKind).finishException []
  else if displayWidth ≠ 1 then
    (writer.writeExceptionHeader writer.itemIndex widthExceptionKind).finishException (writeVarint displayWidth)
  else writer

/-- The exception of an item with continuation code points. -/
def RunWriter.writeCombiningException (combiningCharacters : List Char) : RunWriter :=
  if combiningCharacters.isEmpty then writer
  else (writer.writeExceptionHeader writer.itemIndex combiningExceptionKind).finishException
    (writeVarint (countUtf8Bytes combiningCharacters) ++ combiningCharacters.flatMap String.utf8EncodeChar)

def RunWriter.writeRepeatException (repeatItemCount : Nat) : RunWriter :=
  if repeatItemCount > 1 then
    (writer.writeExceptionHeader writer.itemIndex repeatExceptionKind).finishException
      (writeVarint (repeatItemCount - 1))
  else writer

/-- The item that starts with `baseCell` is a wide glyph and the right half after it. -/
def isWidePairItem (baseCell : Cell) (followingCells : List Cell) : Bool :=
  baseCell.displayWidth == 2 && followingCells.head?.any isStandardContinuationCell

def countItemRepeats (itemCells followingCells : List Cell) : Nat :=
  let repeatItemCount := 1 + countRepeatedItems itemCells followingCells.length followingCells
  if repeatItemCount < minRepeatedItemCount then 1 else repeatItemCount

/-- Writes the item at the front of the run that starts with `baseCell`, not a plain ASCII one, with its
exceptions in the order of their kinds. Returns the number of cells it takes. -/
def encodeItem (baseCell : Cell) (followingCells : List Cell) (writer : RunWriter) : Nat × RunWriter :=
  let runCells := baseCell :: followingCells
  let isWidePair := isWidePairItem baseCell followingCells
  let itemCellCount := if isWidePair then 2 else 1
  let repeatItemCount := countItemRepeats (runCells.take itemCellCount) (runCells.drop itemCellCount)
  let combiningCharacters := listEncodedCombiningCharacters baseCell
  let textByteCount :=
    if baseCell.displayWidth ≠ 0 then
      writer.textByteCount + (baseCell.character.utf8Size + countUtf8Bytes combiningCharacters) * repeatItemCount
    else writer.textByteCount
  let writer := { writer with
    runText := writer.runText ++ String.utf8EncodeChar baseCell.character
    textByteCount }
  let writer := ((writer.writeShapeException isWidePair baseCell.displayWidth).writeCombiningException
    combiningCharacters).writeRepeatException repeatItemCount
  (itemCellCount * repeatItemCount, { writer with itemIndex := writer.itemIndex + 1 })

/-- The loop of `encode_run` over the cells still unwritten. The first argument bounds the turns: each one
writes a cell or more. -/
def encodeRunLoop (isPlainAsciiRun : Bool) : Nat → List Cell → RunWriter → RunWriter
  | 0, _, writer => writer
  | _, [], writer => writer
  | turnCount + 1, baseCell :: followingCells, writer =>
    let runCells := baseCell :: followingCells
    let scan := scanAsciiCells isPlainAsciiRun runCells runCells ⟨0, 0, 0, '\x00', writer⟩
    if scan.cellIndex > 0 then
      encodeRunLoop isPlainAsciiRun turnCount (runCells.drop scan.cellIndex) (finishAsciiScan runCells scan)
    else
      let (takenCellCount, writer) := encodeItem baseCell followingCells writer
      encodeRunLoop isPlainAsciiRun turnCount (runCells.drop takenCellCount) writer

/-- The bytes of the run that holds `runCells`, cells of one style, and its text byte count. -/
def encodeRun (runCells : List Cell) (styleIndex : Nat) (isPlainAsciiRun : Bool) : List UInt8 × Nat :=
  let writer := encodeRunLoop isPlainAsciiRun runCells.length runCells .empty
  (writeVarint styleIndex ++ writeVarint runCells.length ++ writeVarint writer.runText.length ++
    writer.runText ++ writeVarint writer.exceptionCount ++ writer.runExceptions, writer.textByteCount)

/-! ## Encoding a row -/

def writeColor : Color → List UInt8
  | .default => writeVarint 0
  | .indexed paletteIndex => writeVarint 1 ++ [paletteIndex]
  | .rgb red green blue => writeVarint 2 ++ [red, green, blue]

def writeUnderlineColor : Option Color → List UInt8
  | none => writeVarint 0
  | some underlineColor => writeVarint 1 ++ writeColor underlineColor

/-- One style entry: its byte count in one byte, then its fields. -/
def writeStyleEntry (style : Style) : List UInt8 :=
  let fieldBytes := writeColor style.foregroundColor ++ writeColor style.backgroundColor ++
    writeVarint style.attributes.attributeWord ++ writeUnderlineColor style.underlineColor
  fieldBytes.length.toUInt8 :: fieldBytes

def computeRowEndCode : RowEnd → Nat
  | .hard => 0
  | .soft => 1
  | .softWide => 2

structure RunsWriter where
  rowStyleTable : RowStyleTable
  runBytes : List UInt8
  runCount : Nat
  textByteCount : Nat

def countStyleRunCells (isPlainRow : Bool) (firstCell : Cell) (followingCells : List Cell) : Nat :=
  let cells := firstCell :: followingCells
  if isPlainRow then cells.length
  else (cells.findIdx? (fun cell => cell.style ≠ firstCell.style)).getD cells.length

/-- The loop over the runs of a row. The first argument bounds the turns: each run has a cell or more. -/
def encodeRuns (isPlainRow : Bool) : Nat → List Cell → RunsWriter → RunsWriter
  | 0, _, writer => writer
  | _, [], writer => writer
  | turnCount + 1, firstCell :: followingCells, writer =>
    let cells := firstCell :: followingCells
    let runCellCount := countStyleRunCells isPlainRow firstCell followingCells
    let (styleIndex, rowStyleTable) := writer.rowStyleTable.findOrAddStyle firstCell.style
    let (runBytes, textByteCount) := encodeRun (cells.take runCellCount) styleIndex isPlainRow
    encodeRuns isPlainRow turnCount (cells.drop runCellCount)
      ⟨rowStyleTable, writer.runBytes ++ runBytes, writer.runCount + 1, writer.textByteCount + textByteCount⟩

/-- The bytes of `rowCells` padded with default blanks to `columnCount` cells, and the row's text byte
count. -/
def encodeRowCellsWithBuffers (rowCells : List Cell) (columnCount : Nat) (isPlainRow : Bool)
    (rowEnd : RowEnd) : List UInt8 × Nat :=
  let contentCellCount := countRowContentCells rowCells
  let trailingBlankCount := columnCount - contentCellCount
  let contentCells := rowCells.take contentCellCount
  let writer := encodeRuns isPlainRow contentCells.length contentCells
    ⟨.empty, [], 0, if rowEnd = .hard then 0 else trailingBlankCount⟩
  let headBytes := writeVarint columnCount ++ writeVarint (computeRowEndCode rowEnd) ++
    writeVarint trailingBlankCount ++ writeVarint writer.rowStyleTable.styles.length ++
    writer.rowStyleTable.styles.flatMap writeStyleEntry ++ writeVarint writer.runCount
  let bodyByteCount := headBytes.length + writer.runBytes.length
  (writeVarint bodyByteCount ++ headBytes ++ writer.runBytes, writer.textByteCount)

/-- The bytes of `rowCells` padded with default blanks to `columnCount` cells, and the row's text byte count; `none`
where the source panics, on more than `columnCount` cells. -/
def encodePaddedRowCells (rowCells : List Cell) (columnCount : Nat) (plainRowStyle : Option Style) (rowEnd : RowEnd) :
    Option (List UInt8 × Nat) :=
  if rowCells.length ≤ columnCount then
    some (encodeRowCellsWithBuffers rowCells columnCount plainRowStyle.isSome rowEnd)
  else none

/-- The bytes of a row and its text byte count; `none` where the source panics, on more than `65535` cells. -/
def encodeRowCells (rowCells : List Cell) (rowEnd : RowEnd) : Option (List UInt8 × Nat) :=
  if rowCells.length ≤ u16Max then
    some (encodeRowCellsWithBuffers rowCells rowCells.length false rowEnd)
  else none

/-! ## Decoding -/

inductive RowDecodeError where
  | truncated
  | varintTooLong
  | bodyPastEnd (bodyByteCount availableByteCount : Nat)
  | trailingBytes (trailingByteCount : Nat)
  | valueOutOfRange (fieldName : String) (decodedValue : Nat)
  | unknownRowEnd (rowEndCode : Nat)
  | unknownColorKind (colorKind : Nat)
  | styleEntryPastEnd
  | styleIndexOutOfTable (styleIndex styleCount : Nat)
  | invalidUtf8
  | widthTooLarge (width : Nat)
  | unknownExceptionKind (exceptionKind : Nat)
  | exceptionOutOfOrder
  | exceptionPastRun
  | tooManyCombiningCharacters (combiningCount : Nat)
  | cellCountMismatch (columnCount cellCount : Nat)
  deriving DecidableEq, Repr

variable (bytes : List UInt8)

namespace ByteReader

def readVarint (bytes : List UInt8) : Except RowDecodeError (Nat × List UInt8) :=
  match Core.readVarint bytes with
  | .ok result => .ok result
  | .error .truncated => .error .truncated
  | .error .tooLong => .error .varintTooLong

def readBoundedVarint (fieldName : String) (maximumValue : Nat) (bytes : List UInt8) :
    Except RowDecodeError (Nat × List UInt8) := do
  let (decodedValue, bytes) ← readVarint bytes
  if decodedValue > maximumValue then .error (.valueOutOfRange fieldName decodedValue)
  else .ok (decodedValue, bytes)

def readBytes (byteCount : Nat) (bytes : List UInt8) : Except RowDecodeError (List UInt8 × List UInt8) :=
  if byteCount ≤ bytes.length then .ok (bytes.take byteCount, bytes.drop byteCount)
  else .error .truncated

def readColor : Except RowDecodeError (Color × List UInt8) := do
  let (colorKind, bytes) ← readVarint bytes
  match colorKind with
  | 0 => .ok (.default, bytes)
  | 1 =>
    let (colorBytes, bytes) ← readBytes 1 bytes
    .ok (.indexed (colorBytes.getD 0 0), bytes)
  | 2 =>
    let (colorBytes, bytes) ← readBytes 3 bytes
    .ok (.rgb (colorBytes.getD 0 0) (colorBytes.getD 1 0) (colorBytes.getD 2 0), bytes)
  | colorKind => .error (.unknownColorKind colorKind)

def readUnderlineColor : Except RowDecodeError (Option Color × List UInt8) := do
  let (colorKind, bytes) ← readVarint bytes
  match colorKind with
  | 0 => .ok (none, bytes)
  | 1 =>
    let (underlineColor, bytes) ← readColor bytes
    .ok (some underlineColor, bytes)
  | colorKind => .error (.unknownColorKind colorKind)

def readRowEnd : Except RowDecodeError (RowEnd × List UInt8) := do
  let (rowEndCode, bytes) ← readVarint bytes
  match rowEndCode with
  | 0 => .ok (.hard, bytes)
  | 1 => .ok (.soft, bytes)
  | 2 => .ok (.softWide, bytes)
  | rowEndCode => .error (.unknownRowEnd rowEndCode)

end ByteReader

structure EncodedRowShape where
  columnCount : Nat
  rowEnd : RowEnd
  trailingBlankCount : Nat
  deriving DecidableEq, Repr

def readRowHeader : Except RowDecodeError (EncodedRowShape × List UInt8) := do
  let (_bodyByteCount, bytes) ← ByteReader.readVarint bytes
  let (columnCount, bytes) ← ByteReader.readBoundedVarint "column_count" u16Max bytes
  let (rowEnd, bytes) ← ByteReader.readRowEnd bytes
  let (trailingBlankCount, bytes) ← ByteReader.readBoundedVarint "trailing_blank_count" columnCount bytes
  .ok (⟨columnCount, rowEnd, trailingBlankCount⟩, bytes)

def splitEncodedRow (streamBytes : List UInt8) : Except RowDecodeError (List UInt8 × List UInt8) := do
  let (bodyByteCount, remainingBytes) ← ByteReader.readVarint streamBytes
  let prefixByteCount := streamBytes.length - remainingBytes.length
  let availableByteCount := remainingBytes.length
  if bodyByteCount ≤ availableByteCount then
    .ok (streamBytes.take (prefixByteCount + bodyByteCount), streamBytes.drop (prefixByteCount + bodyByteCount))
  else .error (.bodyPastEnd bodyByteCount availableByteCount)

def readStyleFields (styleEntryBytes : List UInt8) : Except RowDecodeError Style := do
  let (foregroundColor, bytes) ← ByteReader.readColor styleEntryBytes
  let (backgroundColor, bytes) ← ByteReader.readColor bytes
  let (attributeWord, bytes) ← ByteReader.readVarint bytes
  let (underlineColor, _) ← ByteReader.readUnderlineColor bytes
  .ok ⟨foregroundColor, backgroundColor, .fromAttributeWord (asU16 attributeWord), underlineColor⟩

/-- One entry of the style table: the fields it knows, the rest of the entry skipped. -/
def readStyleEntry : Except RowDecodeError (Style × List UInt8) := do
  let (styleEntryByteCount, bytes) ← ByteReader.readVarint bytes
  match ByteReader.readBytes styleEntryByteCount bytes with
  | .error _ => .error .styleEntryPastEnd
  | .ok (styleEntryBytes, bytes) =>
    let style ← readStyleFields styleEntryBytes
    .ok (style, bytes)

def readStyleEntries : Nat → List UInt8 → Except RowDecodeError (List Style × List UInt8)
  | 0, bytes => .ok ([], bytes)
  | styleCount + 1, bytes => do
    let (style, bytes) ← readStyleEntry bytes
    let (styles, bytes) ← readStyleEntries styleCount bytes
    .ok (style :: styles, bytes)

/-! ### Text -/

/-- The character at the front of UTF-8 bytes. -/
def decodeCharacter? : Option Char := bytes.toByteArray.utf8DecodeChar? 0

/-- `std::str::from_utf8` as the characters of the text. The first argument bounds the turns: each character
takes a byte or more. -/
def decodeUtf8Loop : Nat → List UInt8 → Option (List Char)
  | _, [] => some []
  | 0, _ :: _ => none
  | turnCount + 1, bytes =>
    match decodeCharacter? bytes with
    | none => none
    | some character => (decodeUtf8Loop turnCount (bytes.drop character.utf8Size)).map (character :: ·)

def fromUtf8? : Option (List Char) := decodeUtf8Loop bytes.length bytes

def isAsciiByte (byte : UInt8) : Bool := byte.toNat < 128

inductive RunTextKind where
  | ascii
  | utf8
  deriving DecidableEq, Repr

/-- The character at the front of the text still ahead, or `none` at its end. -/
def readCharacter (runTextKind : RunTextKind) (textBytes : List UInt8) : Option Char :=
  match runTextKind with
  | .ascii => textBytes.head?.map fun textByte => Char.ofNat textByte.toNat
  | .utf8 => decodeCharacter? textBytes

/-! ### Exceptions -/

/-- What one exception says about its item. -/
inductive ExceptionPayload where
  | widePair
  | width (displayWidth : Nat)
  | combining (combiningText : List Char)
  | repeated (extraItemCount : Nat)
  deriving DecidableEq, Repr

structure ItemException where
  itemIndex : Nat
  exceptionKind : Nat
  payload : ExceptionPayload
  deriving DecidableEq, Repr

def u64Max : Nat := 18446744073709551615

/-- The exceptions of a run still unread: the one read ahead, and how many follow it. -/
structure ExceptionReader where
  nextException : Option ItemException
  remainingExceptionCount : Nat
  deriving DecidableEq, Repr

def readExceptionPayload (exceptionKind : Nat) (bytes : List UInt8) :
    Except RowDecodeError (ExceptionPayload × List UInt8) :=
  match exceptionKind with
  | 0 => .ok (.widePair, bytes)
  | 1 => do
    let (displayWidth, bytes) ← ByteReader.readVarint bytes
    if displayWidth > 2 then .error (.widthTooLarge displayWidth) else .ok (.width displayWidth, bytes)
  | 2 => do
    let (combiningByteCount, bytes) ← ByteReader.readVarint bytes
    let (combiningBytes, bytes) ← ByteReader.readBytes combiningByteCount bytes
    match fromUtf8? combiningBytes with
    | none => .error .invalidUtf8
    | some combiningText => .ok (.combining combiningText, bytes)
  | 3 => do
    let (extraItemCount, bytes) ← ByteReader.readVarint bytes
    .ok (.repeated extraItemCount, bytes)
  | exceptionKind => .error (.unknownExceptionKind exceptionKind)

/-- Reads the next exception of a run, or none once the run's count is read. -/
def readNextException (remainingExceptionCount previousItemIndex : Nat) (bytes : List UInt8) :
    Except RowDecodeError (ExceptionReader × List UInt8) :=
  match remainingExceptionCount with
  | 0 => .ok (⟨none, 0⟩, bytes)
  | remainingExceptionCount + 1 => do
    let (itemIndexDelta, bytes) ← ByteReader.readVarint bytes
    if previousItemIndex + itemIndexDelta > u64Max then .error .exceptionPastRun
    else
      let (exceptionKind, bytes) ← ByteReader.readVarint bytes
      let (payload, bytes) ← readExceptionPayload exceptionKind bytes
      .ok (⟨some ⟨previousItemIndex + itemIndexDelta, exceptionKind, payload⟩, remainingExceptionCount⟩, bytes)

inductive ItemShape where
  | single (displayWidth : Nat)
  | widePair
  deriving DecidableEq, Repr

def ItemShape.countItemCells : ItemShape → Nat
  | .widePair => 2
  | .single _ => 1

/-- What the exceptions of one item said so far. -/
structure ItemState where
  itemShape : ItemShape
  combiningCharacters : List Char
  repeatItemCount : Nat
  lastExceptionKind : Option Nat
  deriving DecidableEq, Repr

/-- An item of no exception: one narrow cell. -/
def ItemState.initial : ItemState := ⟨.single 1, [], 1, none⟩

def isExceptionInOrder (lastExceptionKind : Option Nat) (exceptionKind : Nat) : Bool :=
  match lastExceptionKind with
  | none => true
  | some previousKind =>
    if previousKind = widePairExceptionKind ∨ previousKind = widthExceptionKind then
      exceptionKind > widthExceptionKind
    else exceptionKind > previousKind

def applyItemException (itemState : ItemState) (itemException : ItemException) : Except RowDecodeError ItemState :=
  if !isExceptionInOrder itemState.lastExceptionKind itemException.exceptionKind then .error .exceptionOutOfOrder
  else
    let itemState := { itemState with lastExceptionKind := some itemException.exceptionKind }
    match itemException.payload with
    | .widePair => .ok { itemState with itemShape := .widePair }
    | .width displayWidth => .ok { itemState with itemShape := .single displayWidth }
    | .combining combiningText =>
      let combiningCharacters := itemState.combiningCharacters ++ combiningText
      if combiningCharacters.length > maxGraphemeContinuationCount then
        .error (.tooManyCombiningCharacters combiningCharacters.length)
      else .ok { itemState with combiningCharacters }
    | .repeated extraItemCount =>
      .ok { itemState with repeatItemCount := min (extraItemCount + 1) u64Max }

/-- The loop over the exceptions of the item at `itemIndex`, one read ahead. The first argument is the count of
exceptions that follow the one read ahead. -/
def readItemExceptions (itemIndex : Nat) : Nat → Option ItemException → ItemState → List UInt8 →
    Except RowDecodeError ((ItemState × ExceptionReader) × List UInt8)
  | remainingExceptionCount, none, itemState, bytes => .ok ((itemState, ⟨none, remainingExceptionCount⟩), bytes)
  | 0, some itemException, itemState, bytes =>
    if itemException.itemIndex ≠ itemIndex then .ok ((itemState, ⟨some itemException, 0⟩), bytes)
    else do
      let itemState ← applyItemException itemState itemException
      .ok ((itemState, ⟨none, 0⟩), bytes)
  | remainingExceptionCount + 1, some itemException, itemState, bytes =>
    if itemException.itemIndex ≠ itemIndex then
      .ok ((itemState, ⟨some itemException, remainingExceptionCount + 1⟩), bytes)
    else do
      let itemState ← applyItemException itemState itemException
      let (exceptionReader, bytes) ← readNextException (remainingExceptionCount + 1) itemException.itemIndex bytes
      readItemExceptions itemIndex remainingExceptionCount exceptionReader.nextException itemState bytes

/-! ### Runs -/

def buildItemCells (baseCharacter : Char) (itemState : ItemState) (runStyle : Style) : List Cell :=
  let baseDisplayWidth := match itemState.itemShape with
    | .widePair => 2
    | .single displayWidth => displayWidth
  let baseCell := itemState.combiningCharacters.foldl Cell.pushCombining
    (.fromCharacter baseCharacter baseDisplayWidth runStyle)
  if itemState.itemShape = .widePair then [baseCell, .fromCharacter ' ' 0 runStyle] else [baseCell]

/-- The item the exception read ahead names, or `u64::MAX` with no exception left. -/
def ExceptionReader.nextExceptionItemIndex (exceptionReader : ExceptionReader) : Nat :=
  (exceptionReader.nextException.map (·.itemIndex)).getD u64Max

/-- The stretch of plain items written in ASCII at the front of the text, one byte each: it ends at the first
other byte and at the next item with an exception. -/
def takePlainAsciiBytes (itemIndex nextExceptionItemIndex : Nat) (textBytes : List UInt8) : List UInt8 :=
  if itemIndex < nextExceptionItemIndex then
    (textBytes.take (nextExceptionItemIndex - itemIndex)).takeWhile isAsciiByte
  else []

/-- What a failed decode leaves: the error, and the cells appended before it. -/
abbrev DecodeFailure := RowDecodeError × List Cell

/-- A reader's error together with the cells appended so far. -/
def withCells {α : Type} (rowCells : List Cell) : Except RowDecodeError α → Except DecodeFailure α
  | .ok value => .ok value
  | .error error => .error (error, rowCells)

/-- What stays fixed while one run is read. -/
structure RunContext where
  columnCount : Nat
  runStyle : Style
  runTextKind : RunTextKind
  runEndCellCount : Nat
  rowStartCellIndex : Nat

/-- The loop of `decode_run` over the text still ahead; `decodedCellCount` counts the row's cells so far. The
first argument bounds the turns: each one reads a byte or more. -/
def decodeRunLoop (context : RunContext) : Nat → (textBytes : List UInt8) → (itemIndex decodedCellCount : Nat) →
    ExceptionReader → (bytes : List UInt8) → (rowCells : List Cell) →
    Except DecodeFailure (ExceptionReader × Nat × List UInt8 × List Cell)
  | 0, _, _, decodedCellCount, exceptionReader, bytes, rowCells =>
    .ok (exceptionReader, decodedCellCount, bytes, rowCells)
  | turnCount + 1, textBytes, itemIndex, decodedCellCount, exceptionReader, bytes, rowCells =>
    match readCharacter context.runTextKind textBytes with
    | none => .ok (exceptionReader, decodedCellCount, bytes, rowCells)
    | some baseCharacter =>
      let nextExceptionItemIndex := exceptionReader.nextExceptionItemIndex
      let asciiTextBytes := takePlainAsciiBytes itemIndex nextExceptionItemIndex textBytes
      if asciiTextBytes.length > 0 then
        if decodedCellCount + asciiTextBytes.length > context.runEndCellCount then
          .error (.cellCountMismatch context.columnCount (context.runEndCellCount + 1), rowCells)
        else
          decodeRunLoop context turnCount (textBytes.drop asciiTextBytes.length) (itemIndex + asciiTextBytes.length)
            (decodedCellCount + asciiTextBytes.length) exceptionReader bytes
            (rowCells ++ asciiTextBytes.map fun textByte =>
              Cell.fromCharacter (Char.ofNat textByte.toNat) 1 context.runStyle)
      else if itemIndex < nextExceptionItemIndex then
        if decodedCellCount ≥ context.runEndCellCount then
          .error (.cellCountMismatch context.columnCount (decodedCellCount + 1), rowCells)
        else
          decodeRunLoop context turnCount (textBytes.drop baseCharacter.utf8Size) (itemIndex + 1)
            (decodedCellCount + 1) exceptionReader bytes
            (rowCells ++ [.fromCharacter baseCharacter 1 context.runStyle])
      else do
        let ((itemState, exceptionReader), bytes) ← withCells rowCells
          (readItemExceptions itemIndex exceptionReader.remainingExceptionCount exceptionReader.nextException
            .initial bytes)
        let itemCellCount := itemState.itemShape.countItemCells
        -- the checked product and sum stay below the run's end, so neither overflows where they pass
        let itemEndCellCount := itemCellCount * itemState.repeatItemCount + decodedCellCount
        if itemEndCellCount > context.runEndCellCount then
          .error (.cellCountMismatch context.columnCount
            (min (decodedCellCount + min (itemCellCount * itemState.repeatItemCount) u64Max) u64Max), rowCells)
        else
          decodeRunLoop context turnCount (textBytes.drop baseCharacter.utf8Size) (itemIndex + 1) itemEndCellCount
            exceptionReader bytes
            (rowCells ++ (List.replicate itemState.repeatItemCount
              (buildItemCells baseCharacter itemState context.runStyle)).flatten)

def decodeRun (styles : List Style) (columnCount contentCellCount rowStartCellIndex : Nat) (bytes : List UInt8)
    (rowCells : List Cell) : Except DecodeFailure (List UInt8 × List Cell) := do
  let (styleIndex, bytes) ← withCells rowCells (ByteReader.readVarint bytes)
  match styles[styleIndex]? with
  | none => .error (.styleIndexOutOfTable styleIndex styles.length, rowCells)
  | some runStyle =>
    let (runCellCount, bytes) ← withCells rowCells (ByteReader.readVarint bytes)
    let decodedCellCount := rowCells.length - rowStartCellIndex
    let runEndCellCount := decodedCellCount + runCellCount
    if runEndCellCount > contentCellCount then
      .error (.cellCountMismatch columnCount (min runEndCellCount u64Max), rowCells)
    else
      let (textByteCount, bytes) ← withCells rowCells (ByteReader.readVarint bytes)
      let (runTextBytes, bytes) ← withCells rowCells (ByteReader.readBytes textByteCount bytes)
      let runTextKind := if runTextBytes.all isAsciiByte then RunTextKind.ascii else .utf8
      if runTextKind = .utf8 ∧ (fromUtf8? runTextBytes).isNone then .error (.invalidUtf8, rowCells)
      else
        let (exceptionCount, bytes) ← withCells rowCells
          (ByteReader.readBoundedVarint "exception_count" bytes.length bytes)
        let (exceptionReader, bytes) ← withCells rowCells (readNextException exceptionCount 0 bytes)
        let (exceptionReader, decodedCellCount, bytes, rowCells) ← decodeRunLoop
          ⟨columnCount, runStyle, runTextKind, runEndCellCount, rowStartCellIndex⟩ runTextBytes.length runTextBytes
          0 decodedCellCount exceptionReader bytes rowCells
        if exceptionReader.nextException.isSome then .error (.exceptionPastRun, rowCells)
        else if decodedCellCount ≠ runEndCellCount then
          .error (.cellCountMismatch columnCount decodedCellCount, rowCells)
        else .ok (bytes, rowCells)

def decodeRuns (styles : List Style) (columnCount contentCellCount rowStartCellIndex : Nat) :
    Nat → List UInt8 → List Cell → Except DecodeFailure (List UInt8 × List Cell)
  | 0, bytes, rowCells => .ok (bytes, rowCells)
  | runCount + 1, bytes, rowCells => do
    let (bytes, rowCells) ← decodeRun styles columnCount contentCellCount rowStartCellIndex bytes rowCells
    decodeRuns styles columnCount contentCellCount rowStartCellIndex runCount bytes rowCells

def decodeRowRuns (encodedRowBytes : List UInt8) (rowStartCellIndex : Nat) (rowCells : List Cell) :
    Except DecodeFailure (EncodedRowShape × List Cell) := do
  let (encodedRow, trailingBytes) ← withCells rowCells (splitEncodedRow encodedRowBytes)
  if trailingBytes.length > 0 then .error (.trailingBytes trailingBytes.length, rowCells)
  else
    let (shape, bytes) ← withCells rowCells (readRowHeader encodedRow)
    let (styleCount, bytes) ← withCells rowCells (ByteReader.readBoundedVarint "style_count" bytes.length bytes)
    let (styles, bytes) ← withCells rowCells (readStyleEntries styleCount bytes)
    let contentCellCount := shape.columnCount - shape.trailingBlankCount
    let (runCount, bytes) ← withCells rowCells (ByteReader.readBoundedVarint "run_count" bytes.length bytes)
    let (bytes, rowCells) ← decodeRuns styles shape.columnCount contentCellCount rowStartCellIndex runCount bytes
      rowCells
    let decodedCellCount := rowCells.length - rowStartCellIndex
    if decodedCellCount ≠ contentCellCount then
      .error (.cellCountMismatch shape.columnCount (decodedCellCount + shape.trailingBlankCount), rowCells)
    else if bytes.length > 0 then .error (.trailingBytes bytes.length, rowCells)
    else .ok (shape, rowCells)

/-- Appends the cells that the runs of the encoded row hold to `rowCells`. On an error the cells appended are
cut off again. -/
def decodeRowRunCellsInto (encodedRowBytes : List UInt8) (rowCells : List Cell) :
    Except RowDecodeError EncodedRowShape × List Cell :=
  match decodeRowRuns encodedRowBytes rowCells.length rowCells with
  | .ok (shape, decodedCells) => (.ok shape, decodedCells)
  | .error (error, decodedCells) => (.error error, decodedCells.take rowCells.length)

structure DecodedRow where
  rowCells : List Cell
  rowEnd : RowEnd
  deriving DecidableEq

/-- Reads the encoded row that `encodedRowBytes` holds, and nothing else. -/
def decodeRowCells (encodedRowBytes : List UInt8) : Except RowDecodeError DecodedRow :=
  match decodeRowRunCellsInto encodedRowBytes [] with
  | (.error error, _) => .error error
  | (.ok shape, rowCells) =>
    -- `resize_with`: blanks up to the column count, or a cut to it
    .ok ⟨rowCells.take shape.columnCount ++
      List.replicate (shape.columnCount - rowCells.length) Cell.buildBlank, shape.rowEnd⟩

end Koshi.Terminal
