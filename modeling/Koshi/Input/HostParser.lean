import Koshi.Base.Checked
import Koshi.Base.Utf8
import Koshi.Input.HostEvent

/-!
# The incremental parser of the host terminal's input

`koshi-input/src/host/parser.rs`. The parser takes one byte at a time, queues each complete event and keeps an
incomplete UTF-8, control or paste sequence for the bytes to come. The fields of a sequence are read as the source
reads them: a `?` that fails gives `none`. An index into the paste marker past its end, a panic in the source, does
not arise: the match length returns to zero when the marker is complete.
-/

namespace Koshi.Input.Host

open Base Koshi.Core

/-! ### Bytes -/

/-- `b'c'`. -/
def byteOf (character : Char) : UInt8 := character.toNat.toUInt8

/-- `b"text"`. -/
def bytesOf (text : String) : List UInt8 := text.toList.map byteOf

def escapeByte : UInt8 := 0x1b

def maxControlStringByteCount : Nat := 4096

def maxCsiByteCount : Nat := 128

def maxPasteByteCount : Nat := 16 * 1024 * 1024

/-- `ESC [ 200 ~`. -/
def pasteStartSequenceBytes : List UInt8 := [0x1b, 0x5b, 0x32, 0x30, 0x30, 0x7e]

/-- `ESC [ 201 ~`. -/
def pasteEndSequenceBytes : List UInt8 := [0x1b, 0x5b, 0x32, 0x30, 0x31, 0x7e]

/-- CAN or SUB, which abandons a control sequence. -/
def isAbortByte (inputByte : UInt8) : Bool := inputByte = 0x18 || inputByte = 0x1a

def isCsiFinal (inputByte : UInt8) : Bool := 0x40 ≤ inputByte && inputByte ≤ 0x7e

def computeUtf8ByteWidth (firstUtf8Byte : UInt8) : Option Nat :=
  if 0xc2 ≤ firstUtf8Byte && firstUtf8Byte ≤ 0xdf then some 2
  else if 0xe0 ≤ firstUtf8Byte && firstUtf8Byte ≤ 0xef then some 3
  else if 0xf0 ≤ firstUtf8Byte && firstUtf8Byte ≤ 0xf4 then some 4
  else none

def charFromU32 (codepoint : Nat) : Option Char := if codepoint.isValidChar then some (Char.ofNat codepoint) else none

def stripLeading (leadingBytes bytes : List UInt8) : Option (List UInt8) :=
  if leadingBytes <+: bytes then some (bytes.drop leadingBytes.length) else none

/-! ### Fields of a control sequence -/

def accumulateDecimalDigit (accumulatedDecimalNumber : Nat) (decimalByte : UInt8) : Option Nat := do
  let scaledNumber ← checkedMul u32Max accumulatedDecimalNumber 10
  let digit ← checkedSub decimalByte.toNat (byteOf '0').toNat
  let decimalNumber ← checkedAdd u32Max scaledNumber digit
  if byteOf '0' ≤ decimalByte ∧ decimalByte ≤ byteOf '9' then some decimalNumber else none

def parseDecimal (decimalBytes : List UInt8) : Option Nat :=
  if decimalBytes.isEmpty then none else decimalBytes.foldlM accumulateDecimalDigit 0

def modifierByBit : List (Nat × Modifiers) :=
  [(1, .shift), (2, .alt), (4, .control), (8, .super), (16, .hyper), (32, .meta), (64, .capsLock), (128, .numLock)]

def parseModifierField (modifierField : List UInt8) : Option (Modifiers × KeyEventKind) :=
  match modifierField.splitOn (byteOf ':') with
  | [] => none
  | encodedModifierField :: modifierParts => do
    let encodedModifier ← parseDecimal encodedModifierField
    let modifierBits ← checkedSub encodedModifier 1
    let modifiers := modifierByBit.foldl (fun modifiers bitModifier =>
      if modifierBits &&& bitModifier.1 ≠ 0 then modifiers.union bitModifier.2 else modifiers) Modifiers.none
    match modifierParts with
    | [] => some (modifiers, .press)
    | [eventKindField] =>
      match ← parseDecimal eventKindField with
      | 1 => some (modifiers, .press)
      | 2 => some (modifiers, .repeat)
      | 3 => some (modifiers, .release)
      | _ => none
    | _ :: _ :: _ => none

def parseModifierOrDefault (modifierField : Option (List UInt8)) : Option (Modifiers × KeyEventKind) :=
  match modifierField with
  | none | some [] => some (.none, .press)
  | some modifierField => parseModifierField modifierField

/-- A key event with the modifiers of a second parameter; a third parameter refuses it. -/
def buildModifiedKey (code : Option KeyCode) (keyParameterFields : List (List UInt8)) : Option KeyEvent := do
  let (modifiers, keyEventKind) ← parseModifierOrDefault keyParameterFields.head?
  if keyParameterFields.tail ≠ [] then none
  else some ⟨← code, keyEventKind, modifiers, none, none, []⟩

def findCursorKeyCode (finalByte : UInt8) : Option KeyCode :=
  if finalByte = byteOf 'A' then some .up
  else if finalByte = byteOf 'B' then some .down
  else if finalByte = byteOf 'C' then some .right
  else if finalByte = byteOf 'D' then some .left
  else if finalByte = byteOf 'F' then some .end
  else if finalByte = byteOf 'H' then some .home
  else if finalByte = byteOf 'P' then some (.function 1)
  else if finalByte = byteOf 'Q' then some (.function 2)
  else if finalByte = byteOf 'R' then some (.function 3)
  else if finalByte = byteOf 'S' then some (.function 4)
  else none

def parseModifiedKey (csiBody : List UInt8) (finalByte : UInt8) : Option KeyEvent :=
  match csiBody.splitOn (byteOf ';') with
  | [] => none
  | firstKeyParameter :: keyParameterFields =>
    if firstKeyParameter ≠ [] ∧ parseDecimal firstKeyParameter ≠ some 1 then none
    else buildModifiedKey (findCursorKeyCode finalByte) keyParameterFields

def findTildeKeyCode (encodedKeyNumber : Nat) : Option KeyCode :=
  if encodedKeyNumber = 1 ∨ encodedKeyNumber = 7 then some .home
  else if encodedKeyNumber = 2 then some .insert
  else if encodedKeyNumber = 3 then some .delete
  else if encodedKeyNumber = 4 ∨ encodedKeyNumber = 8 then some .end
  else if encodedKeyNumber = 5 then some .pageUp
  else if encodedKeyNumber = 6 then some .pageDown
  else if 11 ≤ encodedKeyNumber ∧ encodedKeyNumber ≤ 15 then some (.function (encodedKeyNumber - 10))
  else if 17 ≤ encodedKeyNumber ∧ encodedKeyNumber ≤ 21 then some (.function (encodedKeyNumber - 11))
  else if 23 ≤ encodedKeyNumber ∧ encodedKeyNumber ≤ 26 then some (.function (encodedKeyNumber - 12))
  else if 28 ≤ encodedKeyNumber ∧ encodedKeyNumber ≤ 29 then some (.function (encodedKeyNumber - 15))
  else if 31 ≤ encodedKeyNumber ∧ encodedKeyNumber ≤ 34 then some (.function (encodedKeyNumber - 17))
  else none

def parseTildeKey (csiBody : List UInt8) : Option KeyEvent :=
  match csiBody.splitOn (byteOf ';') with
  | [] => none
  | keyNumberField :: keyParameterFields => do
    let encodedKeyNumber ← parseDecimal keyNumberField
    buildModifiedKey (findTildeKeyCode encodedKeyNumber) keyParameterFields

/-- The character one alternate-key sub-field names; an absent or empty field names none, and `none` refuses it. -/
def parseAlternateKey (alternateKeyField : Option (List UInt8)) : Option (Option Char) :=
  match alternateKeyField with
  | none | some [] => some none
  | some alternateKeyField => do
    let codepoint ← parseDecimal alternateKeyField
    let character ← charFromU32 codepoint
    some (some character)

/-- The text one key event produced. A malformed field gives empty text and does not refuse the event. -/
def parseAssociatedText (textField : Option (List UInt8)) : List Char :=
  match textField with
  | none | some [] => []
  | some textField => ((textField.splitOn (byteOf ':')).mapM fun textCodepointField => do
      let character ← (← parseDecimal textCodepointField) |> charFromU32
      if isControl character then none else some character).getD []

def findFunctionalKey (codepoint : Nat) : Option KeyCode :=
  if 57376 ≤ codepoint ∧ codepoint ≤ 57387 then some (.function (codepoint - 57376 + 13))
  else if (57388 ≤ codepoint ∧ codepoint ≤ 57398) ∨ (57358 ≤ codepoint ∧ codepoint ≤ 57363) ∨
      (57428 ≤ codepoint ∧ codepoint ≤ 57454) then some (.codepoint codepoint)
  else if 57399 ≤ codepoint ∧ codepoint ≤ 57408 then some (.char (Nat.digitChar (codepoint - 57399)))
  else match codepoint with
    | 57409 => some (.char '.')
    | 57410 => some (.char '/')
    | 57411 => some (.char '*')
    | 57412 => some (.char '-')
    | 57413 => some (.char '+')
    | 57414 => some .enter
    | 57415 => some (.char '=')
    | 57416 => some (.char ',')
    | 57417 => some .left
    | 57418 => some .right
    | 57419 => some .up
    | 57420 => some .down
    | 57421 => some .pageUp
    | 57422 => some .pageDown
    | 57423 => some .home
    | 57424 => some .end
    | 57425 => some .insert
    | 57426 => some .delete
    | 57427 => some (.codepoint codepoint)
    | _ => none

def textOnlyKeyCodepoint : Nat := 0

def findReportedKey (codepoint : Nat) (modifiers : Modifiers) : Option KeyCode :=
  match findFunctionalKey codepoint with
  | some keyCode => some keyCode
  | none =>
    if codepoint = textOnlyKeyCodepoint then some (.codepoint codepoint)
    else do
      let character ← charFromU32 codepoint
      some <| if character = '\x1b' then .escape
        else if character = '\r' then .enter
        else if character = '\t' ∧ modifiers.hasAllModifiers .shift then .backTab
        else if character = '\t' then .tab
        else if character = '\x7f' then .backspace
        else .char character

def parseKittyKey (csiBody : List UInt8) : Option KeyEvent :=
  match csiBody.splitOn (byteOf ';') with
  | [] => none
  | encodedKeyParameter :: keyParameterFields =>
    match encodedKeyParameter.splitOn (byteOf ':') with
    | [] => none
    | codepointField :: keyCodeFields => do
      let codepoint ← parseDecimal codepointField
      let shiftedKey ← parseAlternateKey keyCodeFields[0]?
      let baseLayoutKey ← parseAlternateKey keyCodeFields[1]?
      if 2 < keyCodeFields.length then none
      else
        let (modifiers, keyEventKind) ← parseModifierOrDefault keyParameterFields[0]?
        let associatedText := parseAssociatedText keyParameterFields[1]?
        if 2 < keyParameterFields.length then none
        else some ⟨← findReportedKey codepoint modifiers, keyEventKind, modifiers, shiftedKey, baseLayoutKey,
          associatedText⟩

def parseKeyboardEnhancementFlags (flagField : List UInt8) : Option Event := do
  let enhancementFlags ← checkedCast 255 (← parseDecimal flagField)
  some (.keyboardEnhancementFlags enhancementFlags)

/-! ### Mouse reports -/

def decodeMouseCode (mouseButtonCode : Nat) : Option (MouseEventKind × Modifiers) := do
  let mouseButtonNumber := (mouseButtonCode &&& 3) ||| ((mouseButtonCode &&& 192) >>> 4)
  let isDrag := mouseButtonCode &&& 32 ≠ 0
  let mouseEventKind ← match mouseButtonNumber, decide isDrag with
    | 0, false => some (MouseEventKind.down .left)
    | 1, false => some (.down .middle)
    | 2, false => some (.down .right)
    | 3, false => some (.up .left)
    | 0, true => some (.drag .left)
    | 1, true => some (.drag .middle)
    | 2, true => some (.drag .right)
    | 3, true | 4, true | 5, true => some .moved
    | 4, false => some .scrollUp
    | 5, false => some .scrollDown
    | 6, false => some .scrollLeft
    | 7, false => some .scrollRight
    | _, _ => none
  let modifiers := [(4, Modifiers.shift), (8, .alt), (16, .control)].foldl (fun modifiers bitModifier =>
    if mouseButtonCode &&& bitModifier.1 ≠ 0 then modifiers.union bitModifier.2 else modifiers) Modifiers.none
  some (mouseEventKind, modifiers)

def parseMouseCoordinate (coordinateField : List UInt8) : Option Nat := do
  checkedSub (← checkedCast u16Max (← parseDecimal coordinateField)) 1

def parseSgrMouse (csiBody : List UInt8) (finalByte : UInt8) : Option MouseEvent :=
  match csiBody.splitOn (byteOf ';') with
  | [buttonField, columnField, rowField] => do
    let mouseButtonCode ← checkedCast 255 (← parseDecimal buttonField)
    let mouseColumn ← parseMouseCoordinate columnField
    let mouseRow ← parseMouseCoordinate rowField
    let (mouseEventKind, modifiers) ← decodeMouseCode mouseButtonCode
    let mouseEventKind := match mouseEventKind with
      | .down button => if finalByte = byteOf 'm' then .up button else .down button
      | mouseEventKind => mouseEventKind
    some ⟨mouseEventKind, mouseColumn, mouseRow, modifiers⟩
  | _ => none

def parseRxvtMouse (csiBody : List UInt8) : Option MouseEvent :=
  match csiBody.splitOn (byteOf ';') with
  | [buttonField, columnField, rowField] => do
    let mouseButtonCode ← checkedSub (← checkedCast 255 (← parseDecimal buttonField)) 32
    let mouseColumn ← parseMouseCoordinate columnField
    let mouseRow ← parseMouseCoordinate rowField
    let (mouseEventKind, modifiers) ← decodeMouseCode mouseButtonCode
    some ⟨mouseEventKind, mouseColumn, mouseRow, modifiers⟩
  | _ => none

def parseX10Mouse (controlSequence : List UInt8) : Option Event :=
  match controlSequence with
  | [leadByte, mouseButtonCode, encodedColumnByte, encodedRowByte] => do
    if leadByte ≠ byteOf 'M' then none
    else
      let (mouseEventKind, modifiers) ← decodeMouseCode (← checkedSub mouseButtonCode.toNat 32)
      let column ← checkedSub encodedColumnByte.toNat 33
      let row ← checkedSub encodedRowByte.toNat 33
      some (.mouse ⟨mouseEventKind, column, row, modifiers⟩)
  | _ => none

/-! ### Replies -/

def parseDa1 (attributeParameterBytes : List UInt8) : Option (List Nat) :=
  if attributeParameterBytes.isEmpty then none
  else (attributeParameterBytes.splitOn (byteOf ';')).mapM parseDecimal

def findGraphicAttributeError (attributeStatus : Nat) : Option GraphicAttributeError :=
  match attributeStatus with
  | 1 => some .invalidItem
  | 2 => some .invalidAction
  | 3 => some .failure
  | _ => none

def parsePaletteReply (attributeStatus : Nat) (replyParameterValues : List (List UInt8)) :
    Option GraphicAttributeReply :=
  match findGraphicAttributeError attributeStatus with
  | some graphicAttributeError =>
    if replyParameterValues.isEmpty then some (.palette (.inl graphicAttributeError)) else none
  | none =>
    match attributeStatus, replyParameterValues with
    | 0, [paletteField] => do
      let paletteEntryCount ← parseDecimal paletteField
      if paletteEntryCount ≠ 0 then some (.palette (.inr paletteEntryCount)) else none
    | _, _ => none

def parseGeometryReply (attributeStatus : Nat) (replyParameterValues : List (List UInt8)) :
    Option GraphicAttributeReply :=
  match findGraphicAttributeError attributeStatus with
  | some graphicAttributeError =>
    if replyParameterValues.isEmpty then some (.geometry (.inl graphicAttributeError)) else none
  | none =>
    match attributeStatus, replyParameterValues with
    | 0, [widthField, heightField] => do
      let pixelWidth ← parseDecimal widthField
      let pixelHeight ← parseDecimal heightField
      some (.geometry (.inr (pixelWidth, pixelHeight)))
    | _, _ => none

def parseGraphicAttribute (attributeParameterBytes : List UInt8) : Option GraphicAttributeReply :=
  match attributeParameterBytes.splitOn (byteOf ';') with
  | numberField :: statusField :: replyParameterValues => do
    let attributeNumber ← parseDecimal numberField
    let attributeStatus ← parseDecimal statusField
    match attributeNumber with
    | 1 => parsePaletteReply attributeStatus replyParameterValues
    | 2 => parseGeometryReply attributeStatus replyParameterValues
    | _ => none
  | _ => none

def parseCellSize (csiBody : List UInt8) : Option Event :=
  match csiBody.splitOn (byteOf ';') with
  | [reportField, heightField, widthField] => do
    if reportField ≠ [byteOf '6'] then none
    else
      let cellPixelHeight ← checkedCast u16Max (← parseDecimal heightField)
      let cellPixelWidth ← checkedCast u16Max (← parseDecimal widthField)
      (PixelCellSize.fromPixelDimensions cellPixelWidth cellPixelHeight).map Event.cellSize
  | _ => none

def parseOsc (oscPayload : List UInt8) : Option Event :=
  (stripLeading (bytesOf "1337;Capabilities=") oscPayload).map .terminalFeatures

/-- One `key=value` pair of a Kitty reply: the image id is kept, once. -/
def readReplyControlPair (imageId : Option Nat) (controlPair : List UInt8) : Option (Option Nat) := do
  let equalsIndex ← controlPair.findIdx? (· = byteOf '=')
  if controlPair.take equalsIndex = [byteOf 'i'] then
    if imageId.isSome then none
    else
      let replyImageId ← parseDecimal (controlPair.drop (equalsIndex + 1))
      some (some replyImageId)
  else some imageId

def parseKittyReply (apcPayload : List UInt8) : Option KittyGraphicsReply := do
  let graphicsPayload ← stripLeading [byteOf 'G'] apcPayload
  let separatorIndex ← graphicsPayload.findIdx? (· = byteOf ';')
  let messageBytes := graphicsPayload.drop (separatorIndex + 1)
  if messageBytes.isEmpty ∨
      !messageBytes.all (fun messageByte => byteOf ' ' ≤ messageByte && messageByte ≤ byteOf '~') then
    none
  else
    let imageId ← ((graphicsPayload.take separatorIndex).splitOn (byteOf ',')).foldlM readReplyControlPair none
    some ⟨← imageId, messageBytes = bytesOf "OK"⟩

/-! ### Control sequences -/

def parseBareCsi (finalByte : UInt8) : Option Event :=
  if finalByte = byteOf 'I' then some .focusIn
  else if finalByte = byteOf 'O' then some .focusOut
  else if finalByte = byteOf 'Z' then some (.key (.fromKeyCodeAndModifiers .backTab .shift))
  else if finalByte = byteOf 'R' then none
  else (findCursorKeyCode finalByte).map fun keyCode => .key (.fromKeyCode keyCode)

def parseCsi (controlSequence : List UInt8) : Option Event :=
  match controlSequence.getLast? with
  | none => none
  | some finalByte =>
    let csiBody := controlSequence.dropLast
    if csiBody = [byteOf '['] ∧ byteOf 'A' ≤ finalByte ∧ finalByte ≤ byteOf 'E' then
      some (.key (.fromKeyCode (.function ((finalByte - byteOf 'A').toNat + 1))))
    else match csiBody with
      | [] => parseBareCsi finalByte
      | leadByte :: laterBytes =>
        if leadByte = byteOf '?' ∧ finalByte = byteOf 'c' then
          (parseDa1 laterBytes).map .primaryDeviceAttributes
        else if leadByte = byteOf '?' ∧ finalByte = byteOf 'S' then
          (parseGraphicAttribute laterBytes).map .sixelGraphicsAttributeReply
        else if leadByte = byteOf '<' ∧ (finalByte = byteOf 'M' ∨ finalByte = byteOf 'm') then
          (parseSgrMouse laterBytes finalByte).map .mouse
        else if finalByte = byteOf 't' then parseCellSize csiBody
        else if (findCursorKeyCode finalByte).isSome then (parseModifiedKey csiBody finalByte).map .key
        else if finalByte = byteOf 'M' then (parseRxvtMouse csiBody).map .mouse
        else if finalByte = byteOf '~' then (parseTildeKey csiBody).map .key
        else if finalByte = byteOf 'u' then
          if leadByte = byteOf '?' then parseKeyboardEnhancementFlags laterBytes
          else (parseKittyKey csiBody).map .key
        else none

/-! ### The parser -/

inductive ParserState where
  | ground
  | escape
  | ss3
  | csi
  | privateCsi
  | csiX10
  | apcStart
  | apc
  | osc (isEscapeSeen : Bool)
  | discardCsi
  | discardSt (isEscapeSeen : Bool)
  | discardOsc (isEscapeSeen : Bool)
  | paste
  | discardPaste
  | utf8 (expectedUtf8ByteCount : Nat)
  deriving DecidableEq, Repr

structure Parser where
  parserState : ParserState
  controlSequence : List UInt8
  pasteBytes : List UInt8
  pasteMarkerMatchLength : Nat
  pendingEvents : List Event
  isAltHeld : Bool
  deriving DecidableEq, Repr

namespace Parser

def default : Parser := ⟨.ground, [], [], 0, [], false⟩

def resetInputParser (parser : Parser) : Parser :=
  { parser with
    parserState := .ground
    controlSequence := []
    pasteBytes := []
    pasteMarkerMatchLength := 0
    isAltHeld := false }

def pushEvent (parser : Parser) (event : Event) : Parser :=
  { parser with pendingEvents := parser.pendingEvents ++ [event] }

/-- Queues an event a parse found, if it found one. -/
def pushParsedEvent (parser : Parser) : Option Event → Parser
  | none => parser
  | some parsedEvent => parser.pushEvent parsedEvent

/-- A held Alt joins the modifiers of the next key. -/
def emitKey (parser : Parser) (keyCode : KeyCode) (modifiers : Modifiers) : Parser :=
  let modifiers := if parser.isAltHeld then modifiers.union .alt else modifiers
  { parser with isAltHeld := false }.pushEvent (.key (.fromKeyCodeAndModifiers keyCode modifiers))

variable (tables : CaseTables)

def emitChar (parser : Parser) (character : Char) : Parser :=
  parser.emitKey (.char character) (if tables.isUppercase character then .shift else .none)

def processGroundByte (parser : Parser) (inputByte : UInt8) : Parser :=
  if inputByte = escapeByte then { parser with parserState := .escape }
  else if inputByte = byteOf '\r' then parser.emitKey .enter .none
  else if inputByte = byteOf '\t' then parser.emitKey .tab .none
  else if inputByte = 0x7f then parser.emitKey .backspace .none
  else if inputByte = 0 then parser.emitKey (.char ' ') .control
  else if 0x01 ≤ inputByte ∧ inputByte ≤ 0x1a then
    parser.emitKey (.char (Char.ofNat (inputByte - 1 + byteOf 'a').toNat)) .control
  else if 0x1c ≤ inputByte ∧ inputByte ≤ 0x1f then
    parser.emitKey (.char (Char.ofNat (inputByte - 0x1c + byteOf '4').toNat)) .control
  else if 0x20 ≤ inputByte ∧ inputByte ≤ 0x7e then parser.emitChar tables (Char.ofNat inputByte.toNat)
  else match computeUtf8ByteWidth inputByte with
    | some expectedUtf8ByteCount =>
      { parser with controlSequence := [inputByte], parserState := .utf8 expectedUtf8ByteCount }
    | none => { parser with isAltHeld := false }

def processEscapeByte (parser : Parser) (inputByte : UInt8) : Parser :=
  if inputByte = byteOf '[' then { parser with controlSequence := [], parserState := .csi }
  else if inputByte = byteOf 'O' then { parser with parserState := .ss3 }
  else if inputByte = byteOf ']' then { parser with controlSequence := [], parserState := .osc false }
  else if inputByte = byteOf 'P' then { parser with parserState := .discardSt false }
  else if inputByte = byteOf '_' then { parser with parserState := .apcStart }
  else if inputByte = escapeByte then { parser.emitKey .escape .none with parserState := .escape }
  else processGroundByte tables { parser with parserState := .ground, isAltHeld := true } inputByte

def processSs3Byte (parser : Parser) (inputByte : UInt8) : Parser :=
  let keyCode := findCursorKeyCode inputByte
  let parser := { parser with parserState := .ground }
  match keyCode with
  | some keyCode => parser.emitKey keyCode .none
  | none => parser

def processCsiByte (parser : Parser) (inputByte : UInt8) : Parser :=
  if isAbortByte inputByte then parser.resetInputParser
  else if inputByte = escapeByte then { parser.resetInputParser with parserState := .escape }
  else
    let parser := { parser with controlSequence := parser.controlSequence ++ [inputByte] }
    if parser.controlSequence = bytesOf "200~" then
      { parser with controlSequence := [], pasteBytes := [], pasteMarkerMatchLength := 0, parserState := .paste }
    else if parser.controlSequence.length = 1 ∧ inputByte = byteOf 'M' then { parser with parserState := .csiX10 }
    else if parser.controlSequence.length = 1 ∧ inputByte = byteOf '?' then { parser with parserState := .privateCsi }
    else if parser.controlSequence.head? = some (byteOf '[') ∧ parser.controlSequence.length = 1 then parser
    else if isCsiFinal inputByte then parser.resetInputParser.pushParsedEvent (parseCsi parser.controlSequence)
    else if parser.controlSequence.length ≥ maxCsiByteCount then
      { parser with controlSequence := [], parserState := .discardCsi }
    else parser

def processX10Byte (parser : Parser) (inputByte : UInt8) : Parser :=
  let parser := { parser with controlSequence := parser.controlSequence ++ [inputByte] }
  if parser.controlSequence.length = 4 then
    parser.resetInputParser.pushParsedEvent (parseX10Mouse parser.controlSequence)
  else parser

def processApcStartByte (parser : Parser) (inputByte : UInt8) : Parser :=
  if inputByte = byteOf 'G' then { parser with controlSequence := [inputByte], parserState := .apc }
  else processGroundByte tables
    { parser.emitKey (.char '_') (Modifiers.alt.union .shift) with parserState := .ground } inputByte

def processApcByte (parser : Parser) (inputByte : UInt8) : Parser :=
  if isAbortByte inputByte then parser.resetInputParser
  else
    let parser := { parser with controlSequence := parser.controlSequence ++ [inputByte] }
    if [escapeByte, byteOf '\\'] <:+ parser.controlSequence ∨ inputByte = 0x9c then
      let payloadByteCount :=
        if inputByte = 0x9c then parser.controlSequence.length - 1 else parser.controlSequence.length - 2
      parser.resetInputParser.pushParsedEvent
        ((parseKittyReply (parser.controlSequence.take payloadByteCount)).map .kittyGraphicsReply)
    else if parser.controlSequence.length ≥ maxControlStringByteCount then
      { parser with controlSequence := [], parserState := .discardSt (inputByte = escapeByte) }
    else parser

def processOscByte (parser : Parser) (inputByte : UInt8) (isEscapeSeen : Bool) : Parser :=
  if isAbortByte inputByte then parser.resetInputParser
  else if inputByte = 0x07 ∨ inputByte = 0x9c ∨ (isEscapeSeen ∧ inputByte = byteOf '\\') then
    let payloadByteCount :=
      if inputByte = byteOf '\\' ∧ isEscapeSeen then parser.controlSequence.length - 1
      else parser.controlSequence.length
    parser.resetInputParser.pushParsedEvent (parseOsc (parser.controlSequence.take payloadByteCount))
  else if parser.controlSequence.length ≥ maxControlStringByteCount then
    { parser with controlSequence := [], parserState := .discardOsc (inputByte = escapeByte) }
  else
    { parser with
      controlSequence := parser.controlSequence ++ [inputByte]
      parserState := .osc (inputByte = escapeByte) }

def processDiscardCsiByte (parser : Parser) (inputByte : UInt8) : Parser :=
  if isAbortByte inputByte then parser.resetInputParser
  else if inputByte = escapeByte then { parser.resetInputParser with parserState := .escape }
  else if isCsiFinal inputByte then parser.resetInputParser
  else parser

def processDiscardStByte (parser : Parser) (inputByte : UInt8) (isEscapeSeen : Bool) : Parser :=
  if isAbortByte inputByte ∨ inputByte = 0x9c ∨ (isEscapeSeen ∧ inputByte = byteOf '\\') then parser.resetInputParser
  else { parser with parserState := .discardSt (inputByte = escapeByte) }

def processDiscardOscByte (parser : Parser) (inputByte : UInt8) (isEscapeSeen : Bool) : Parser :=
  if isAbortByte inputByte ∨ inputByte = 0x07 ∨ inputByte = 0x9c ∨ (isEscapeSeen ∧ inputByte = byteOf '\\') then
    parser.resetInputParser
  else { parser with parserState := .discardOsc (inputByte = escapeByte) }

/-- Adds one byte to the pasted bytes; the byte past the limit turns the paste into a discarded one. -/
def pushPasteByte (parser : Parser) (inputByte : UInt8) : Parser :=
  let parser := { parser with pasteBytes := parser.pasteBytes ++ [inputByte] }
  if parser.pasteBytes.length > maxPasteByteCount then { parser with pasteBytes := [], parserState := .discardPaste }
  else parser

def processPasteByte (parser : Parser) (inputByte : UInt8) (shouldDiscard : Bool) : Parser :=
  if pasteEndSequenceBytes[parser.pasteMarkerMatchLength]? = some inputByte then
    let parser := { parser with pasteMarkerMatchLength := parser.pasteMarkerMatchLength + 1 }
    if parser.pasteMarkerMatchLength = pasteEndSequenceBytes.length then
      let parser :=
        if shouldDiscard then parser
        else { parser with pasteBytes := [] }.pushEvent (.paste (fromUtf8Lossy parser.pasteBytes))
      parser.resetInputParser
    else parser
  else if parser.pasteMarkerMatchLength ≠ 0 then
    -- the matched part of the marker was pasted text after all; no limit is checked here
    let pasteBytes :=
      if shouldDiscard then parser.pasteBytes
      else parser.pasteBytes ++ pasteEndSequenceBytes.take parser.pasteMarkerMatchLength
    let parser := { parser with pasteBytes, pasteMarkerMatchLength := 0 }
    if inputByte = escapeByte then { parser with pasteMarkerMatchLength := 1 }
    else if shouldDiscard then parser
    else parser.pushPasteByte inputByte
  else if shouldDiscard then parser
  else parser.pushPasteByte inputByte

def processUtf8Byte (parser : Parser) (inputByte : UInt8) (expectedUtf8ByteCount : Nat) : Parser :=
  if inputByte &&& 0xc0 ≠ 0x80 then
    processGroundByte tables { parser with controlSequence := [], parserState := .ground, isAltHeld := false } inputByte
  else
    let parser := { parser with controlSequence := parser.controlSequence ++ [inputByte] }
    if parser.controlSequence.length = expectedUtf8ByteCount then
      let character := fromUtf8Character parser.controlSequence
      let parser := { parser with controlSequence := [], parserState := .ground }
      match character with
      | some character => parser.emitChar tables character
      | none => { parser with isAltHeld := false }
    else parser

def processInputByte (parser : Parser) (inputByte : UInt8) : Parser :=
  match parser.parserState with
  | .ground => parser.processGroundByte tables inputByte
  | .escape => parser.processEscapeByte tables inputByte
  | .ss3 => parser.processSs3Byte inputByte
  | .csi | .privateCsi => parser.processCsiByte inputByte
  | .csiX10 => parser.processX10Byte inputByte
  | .apcStart => parser.processApcStartByte tables inputByte
  | .apc => parser.processApcByte inputByte
  | .osc isEscapeSeen => parser.processOscByte inputByte isEscapeSeen
  | .discardCsi => parser.processDiscardCsiByte inputByte
  | .discardSt isEscapeSeen => parser.processDiscardStByte inputByte isEscapeSeen
  | .discardOsc isEscapeSeen => parser.processDiscardOscByte inputByte isEscapeSeen
  | .paste => parser.processPasteByte inputByte false
  | .discardPaste => parser.processPasteByte inputByte true
  | .utf8 expectedUtf8ByteCount => parser.processUtf8Byte tables inputByte expectedUtf8ByteCount

/-- Parses every byte of one chunk and queues the complete events. -/
def processInputBytes (parser : Parser) (inputBytes : List UInt8) : Parser :=
  inputBytes.foldl (processInputByte tables) parser

end Parser

end Koshi.Input.Host
