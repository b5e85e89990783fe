import Koshi.Core.KeyText

/-!
# The bytes a key event reaches a pane as

The encoding half of `koshi-input/src/keyboard.rs`. A chord encodes to its legacy bytes; a whole event encodes to those
bytes, to the text it produced or to a `CSI u` report, as the pane's Kitty flags and the extended-keys mode decide. A
function key outside F1 to F24 has no encoding: the code panics on it, and `none` stands for that.
-/

namespace Koshi.Input

open Koshi.Core

/-- One complete keyboard event: what a keybinding reads of it, and the base-layout key and text besides. -/
structure KeyInput extends Koshi.Core.KeyInput where
  baseLayoutKey : Option Char
  associatedText : List Char
  deriving DecidableEq

/-- What a pane's program receives for a key that legacy encoding cannot tell apart from another key. -/
inductive ExtendedKeysMode where
  /-- The pane's flags decide alone. -/
  | onRequest
  /-- A pane reads the `CSI u` form for every key whose legacy bytes another key also owns. -/
  | always
  deriving DecidableEq

/-- The escape byte that opens every control sequence. -/
def escapeByte : UInt8 := 0x1b

/-- The modifier parameter with nothing held. -/
def unmodifiedParameter : Nat := 1

/-! ### Characters -/

/-- The bytes of one character. -/
def encodeUtf8 (character : Char) : List UInt8 := String.utf8EncodeChar character

def encodeDecimal (decimalNumber : Nat) : List UInt8 := (Nat.toDigits 10 decimalNumber).flatMap encodeUtf8

variable (tables : CaseTables)

/-- The capital a chord's Shift stands for. -/
def unfoldShift (character : Char) : Char :=
  match tables.toUppercase character with
  | [uppercaseCharacter] => uppercaseCharacter
  | _ => character

/-- The C0 control byte Control plus this character sends, or `none` when no control code stands for it. -/
def encodeControlByte (character : Char) : Option UInt8 :=
  if '@' ≤ character ∧ character ≤ '_' then some (character.toNat.toUInt8 &&& 0x1f)
  else if 'a' ≤ character ∧ character ≤ 'z' then some (character.toUpper.toNat.toUInt8 &&& 0x1f)
  else if character = '?' then some 0x7f
  else if character = '2' then some 0x00
  else if character = '3' then some 0x1b
  else if character = '4' then some 0x1c
  else if character = '5' then some 0x1d
  else if character = '6' then some 0x1e
  else if character = '7' then some 0x1f
  else if character = '8' then some 0x7f
  else none

/-- A character key: Shift restores the capital, Control folds the character into its C0 byte, and Alt prefixes `ESC`.
-/
def encodeCharacter (character : Char) (modifierFlags : BindingModifierFlags) : List UInt8 :=
  let character := if modifierFlags.hasAllModifiers .shift then unfoldShift tables character else character
  let controlByte := if modifierFlags.hasAllModifiers .ctrl then encodeControlByte character else none
  (if modifierFlags.hasAllModifiers .alt then [escapeByte] else []) ++ match controlByte with
    | some controlByte => [controlByte]
    | none => encodeUtf8 character

/-! ### Named keys -/

/-- The control-sequence shape one functional key takes. -/
inductive FunctionalKeyForm where
  /-- A cursor or Home/End key. -/
  | cursor (finalByte : UInt8)
  /-- A key of the `ESC O` family whatever the cursor-key mode is. -/
  | ss3 (finalByte : UInt8)
  /-- A key of the `ESC [ <code> ~` family. -/
  | tilde (tildeKeyCode : Nat)
  deriving DecidableEq

/-- The shape a function key takes, and the modifiers its encoding adds. F13 to F24 are Shift plus F1 to F12. -/
def getFunctionKeyForm (functionNumber : UInt8) : Option (FunctionalKeyForm × BindingModifierFlags) :=
  let (functionNumber, addedModifierFlags) :=
    if 12 < functionNumber.toNat then (functionNumber.toNat - 12, BindingModifierFlags.shift)
    else (functionNumber.toNat, BindingModifierFlags.none)
  if 1 ≤ functionNumber ∧ functionNumber ≤ 4 then
    some (.ss3 (0x50 + (functionNumber - 1).toUInt8), addedModifierFlags)
  else if functionNumber = 5 then some (.tilde 15, addedModifierFlags)
  else if 6 ≤ functionNumber ∧ functionNumber ≤ 9 then some (.tilde (11 + functionNumber), addedModifierFlags)
  else if functionNumber = 10 then some (.tilde 21, addedModifierFlags)
  else if functionNumber = 11 then some (.tilde 23, addedModifierFlags)
  else if functionNumber = 12 then some (.tilde 24, addedModifierFlags)
  else none

/-- The shape of a key that is no C0 key, and `some none` for a C0 key. -/
def findFunctionalKeyForm : NamedKey → Option (Option (FunctionalKeyForm × BindingModifierFlags))
  | .up => some (some (.cursor 0x41, .none))
  | .down => some (some (.cursor 0x42, .none))
  | .right => some (some (.cursor 0x43, .none))
  | .left => some (some (.cursor 0x44, .none))
  | .end => some (some (.cursor 0x46, .none))
  | .home => some (some (.cursor 0x48, .none))
  | .insert => some (some (.tilde 2, .none))
  | .delete => some (some (.tilde 3, .none))
  | .pageUp => some (some (.tilde 5, .none))
  | .pageDown => some (some (.tilde 6, .none))
  | .f functionNumber => (getFunctionKeyForm functionNumber).map some
  | .enter | .tab | .backspace | .esc | .space => some none

/-- A C0 key's byte, with an `ESC` prefix when Alt is held. -/
def encodeC0Key (controlByte : UInt8) (modifierFlags : BindingModifierFlags) : List UInt8 :=
  if modifierFlags.hasAllModifiers .alt then [escapeByte, controlByte] else [controlByte]

/-- The CSI parameter that carries a chord's modifiers. -/
def encodeModifierParameter (modifierFlags : BindingModifierFlags) : Nat :=
  unmodifiedParameter + (if modifierFlags.hasAllModifiers .shift then 1 else 0) +
    (if modifierFlags.hasAllModifiers .alt then 2 else 0) + (if modifierFlags.hasAllModifiers .ctrl then 4 else 0) +
    (if modifierFlags.hasAllModifiers .super then 8 else 0)

/-- A key of the `ESC O` family. A held modifier takes the CSI form. -/
def encodeSs3Key (finalByte : UInt8) (modifierParameter : Nat) : List UInt8 :=
  if modifierParameter = unmodifiedParameter then [escapeByte, 0x4f, finalByte]
  else [escapeByte, 0x5b, 0x31, 0x3b] ++ encodeDecimal modifierParameter ++ [finalByte]

def encodeCursorKey (finalByte : UInt8) (modifierParameter : Nat) (isApplicationCursorKeysEnabled : Bool) :
    List UInt8 :=
  if modifierParameter = unmodifiedParameter ∧ isApplicationCursorKeysEnabled = false then [escapeByte, 0x5b, finalByte]
  else encodeSs3Key finalByte modifierParameter

/-- A key of the `ESC [ <code> ~` family. -/
def encodeTildeKey (tildeKeyCode modifierParameter : Nat) : List UInt8 :=
  [escapeByte, 0x5b] ++ encodeDecimal tildeKeyCode ++
    (if modifierParameter ≠ unmodifiedParameter then 0x3b :: encodeDecimal modifierParameter else []) ++ [0x7e]

def encodeFunctionKey (functionNumber : UInt8) (modifierFlags : BindingModifierFlags) : Option (List UInt8) :=
  (getFunctionKeyForm functionNumber).map fun (functionalKeyForm, addedModifierFlags) =>
    let modifierParameter := encodeModifierParameter (modifierFlags.union addedModifierFlags)
    match functionalKeyForm with
    | .ss3 finalByte | .cursor finalByte => encodeSs3Key finalByte modifierParameter
    | .tilde tildeKeyCode => encodeTildeKey tildeKeyCode modifierParameter

def encodeNamedKey (namedKey : NamedKey) (modifierFlags : BindingModifierFlags)
    (isApplicationCursorKeysEnabled : Bool) :
    Option (List UInt8) :=
  let isControlHeld := modifierFlags.hasAllModifiers .ctrl
  let modifierParameter := encodeModifierParameter modifierFlags
  match namedKey with
  | .enter => some (encodeC0Key 0x0d modifierFlags)
  | .esc => some (encodeC0Key escapeByte modifierFlags)
  | .backspace => some (encodeC0Key (if isControlHeld then 0x08 else 0x7f) modifierFlags)
  | .space => some (encodeC0Key (if isControlHeld then 0x00 else 0x20) modifierFlags)
  | .tab =>
    if modifierFlags.hasAllModifiers .shift then
      -- Shift+Tab has a sequence of its own, with no modifier parameter
      some (if modifierFlags.hasAllModifiers .alt then [escapeByte, escapeByte, 0x5b, 0x5a] else [escapeByte,
        0x5b, 0x5a])
    else some (encodeC0Key 0x09 modifierFlags)
  | .f functionNumber => encodeFunctionKey functionNumber modifierFlags
  | namedKey =>
    match findFunctionalKeyForm namedKey with
    | some (some (.cursor finalByte, _)) =>
      some (encodeCursorKey finalByte modifierParameter isApplicationCursorKeysEnabled)
    | some (some (.ss3 finalByte, _)) => some (encodeSs3Key finalByte modifierParameter)
    | some (some (.tilde tildeKeyCode, _)) => some (encodeTildeKey tildeKeyCode modifierParameter)
    | some none | none => none

/-- The bytes the focused pane's program expects for a chord. -/
def encodeKeyChord (chord : KeyChord) (isApplicationCursorKeysEnabled : Bool) : Option (List UInt8) :=
  match chord.key with
  | .char character => some (encodeCharacter tables character chord.modifierFlags)
  | .named namedKey => encodeNamedKey namedKey chord.modifierFlags isApplicationCursorKeysEnabled

/-! ### What the pane asked for -/

def disambiguateEscapeCodesFlag : UInt8 := 1

def reportEventTypesFlag : UInt8 := 2

def reportAlternateKeysFlag : UInt8 := 4

def reportAllKeysFlag : UInt8 := 8

def reportAssociatedTextFlag : UInt8 := 16

def textOnlyKeyCodepoint : UInt32 := 0

/-- The pane asked for a flag. -/
def hasFlag (keyboardFlags flag : UInt8) : Bool := keyboardFlags &&& flag ≠ 0

/-- The key is Enter, Tab or Backspace, which keep their legacy bytes under flag 1. -/
def isLegacyExceptionKey (key : KeyIdentity) : Bool :=
  key = .key (.named .enter) || key = .key (.named .tab) || key = .key (.named .backspace)

variable (keyInput : KeyInput)

def isTextProducingEvent : Bool :=
  if keyInput.associatedText ≠ [] then true
  else
    let isTextKey :=
      match keyInput.key with
      | .key (.char _) | .key (.named .space) => true
      | _ => false
    if !isTextKey then false
    else
      let bindingModifiers := keyInput.modifierFlags.toBindingModifiers
      !bindingModifiers.hasAllModifiers .ctrl && !bindingModifiers.hasAllModifiers .alt &&
        !bindingModifiers.hasAllModifiers .super

variable (keyboardFlags : UInt8)

/-- The key takes an escape code under the flags. -/
def isKeyEscapeCoded : Option Bool :=
  if hasFlag keyboardFlags reportAllKeysFlag then some true
  else if isTextProducingEvent keyInput || isLegacyExceptionKey keyInput.key then some false
  else
    match keyInput.key with
    | .key (.named namedKey) =>
      (findFunctionalKeyForm namedKey).map fun functionalKeyForm =>
        functionalKeyForm.isSome || hasFlag keyboardFlags disambiguateEscapeCodesFlag
    | _ => some (hasFlag keyboardFlags disambiguateEscapeCodesFlag)

def isEventKindReported : Option Bool :=
  if hasFlag keyboardFlags reportEventTypesFlag then isKeyEscapeCoded keyInput keyboardFlags else some false

/-- The pane receives the event at all. -/
def isEventWritten : Option Bool :=
  if keyInput.keyEventKind ≠ .release then some true else isEventKindReported keyInput keyboardFlags

/-- The chord that owns a C0 byte, or `none` for a byte no two keys share. -/
def findC0ByteOwner (sharedByte : UInt8) : Option KeyChord :=
  if sharedByte = 0x09 then some ⟨.none, .named .tab⟩
  else if sharedByte = 0x0d then some ⟨.none, .named .enter⟩
  else if sharedByte = 0x1b then some ⟨.none, .named .esc⟩
  else if sharedByte = 0x7f then some ⟨.none, .named .backspace⟩
  else if sharedByte = 0x00 then some ⟨.ctrl, .named .space⟩
  else if sharedByte = 0x08 then some ⟨.ctrl, .char 'h'⟩
  else none

/-- The byte that a chord's legacy bytes are, alone or behind `ESC`, with the modifier that puts `ESC` there. -/
def findSharedByte : List UInt8 → Option (UInt8 × BindingModifierFlags)
  | [sharedByte] => some (sharedByte, .none)
  | [firstByte, sharedByte] => if firstByte = escapeByte then some (sharedByte, .alt) else none
  | _ => none

/-- The legacy bytes of the event are bytes another key also sends. -/
def isKeyLostByLegacyEncoding (keyInput : KeyInput) : Option Bool :=
  match keyInput.toBindingChord tables with
  | none => some false
  | some chord =>
    (encodeKeyChord tables chord false).map fun encodedBytes =>
      match findSharedByte encodedBytes with
      | none => false
      | some (sharedByte, ownerAltModifierFlags) =>
        match findC0ByteOwner sharedByte with
        | none => false
        | some ownerChord => chord ≠ ⟨ownerChord.modifierFlags.union ownerAltModifierFlags, ownerChord.key⟩

/-- The event takes the `CSI u` form rather than its legacy bytes. -/
def isCsiUWritten (keyInput : KeyInput) (keyboardFlags : UInt8) (extendedKeysMode : ExtendedKeysMode) :
    Option Bool := do
  if ← isKeyEscapeCoded keyInput keyboardFlags then return true
  if extendedKeysMode = .always then isKeyLostByLegacyEncoding tables keyInput else return false

/-! ### Reports -/

/-- The event kind a report names, or `some none` when it names none. -/
def findEventKindNumber : Option (Option Nat) :=
  (isEventKindReported keyInput keyboardFlags).map fun isReported =>
    if !isReported then none
    else
      match keyInput.keyEventKind with
      | .press => none
      | .repeat => some 2
      | .release => some 3

def getReportedTextCodepoints : List Nat :=
  if !hasFlag keyboardFlags reportAllKeysFlag || !hasFlag keyboardFlags reportAssociatedTextFlag then []
  else keyInput.associatedText.map Char.toNat

/-- The Kitty keyboard modifier parameter: one plus the eight-bit bitmap. -/
def toKittyParameter (modifierFlags : KeyModifierFlags) : Nat := modifierFlags.bits.toNat + 1

def lockModifiers : KeyModifierFlags := ⟨192⟩

/-- The modifiers a report names. The locks are dropped from an event that produces text. -/
def getReportedModifiers : KeyModifierFlags :=
  if isTextProducingEvent keyInput then ⟨keyInput.modifierFlags.bits &&& ~~~lockModifiers.bits⟩
  else keyInput.modifierFlags

def getReportedModifierParameter : Nat := toKittyParameter (getReportedModifiers keyInput)

/-- `:shifted`, `::base` or `:shifted:base` for the alternatives the event reported. -/
def encodeAlternateKeys : List UInt8 :=
  let isShiftHeld := keyInput.modifierFlags.hasAllModifiers .shift
  let shiftedKey := keyInput.shiftedKey.filter fun _ => isShiftHeld
  let baseLayoutKey := keyInput.baseLayoutKey.filter fun baseLayoutKey =>
    KeyIdentity.key (.char baseLayoutKey) ≠ keyInput.key
  if shiftedKey.isNone && baseLayoutKey.isNone then []
  else
    0x3a :: ((shiftedKey.map fun shiftedKey => encodeDecimal shiftedKey.toNat).getD [] ++
      (baseLayoutKey.map fun baseLayoutKey => 0x3a :: encodeDecimal baseLayoutKey.toNat).getD [])

def encodeModifierField (modifierParameter : Nat) (eventKindNumber : Option Nat) (hasText : Bool) : List UInt8 :=
  let isModifierHeld := modifierParameter ≠ unmodifiedParameter
  if isModifierHeld ∨ eventKindNumber.isSome ∨ hasText then
    0x3b :: ((if isModifierHeld ∨ eventKindNumber.isSome then encodeDecimal modifierParameter else []) ++
      (eventKindNumber.map fun eventKindNumber => 0x3a :: encodeDecimal eventKindNumber).getD [])
  else []

def encodeTextField (textCodepoints : List Nat) : List UInt8 :=
  if textCodepoints = [] then [] else 0x3b :: [(0x3a : UInt8)].intercalate (textCodepoints.map encodeDecimal)

/-- One `CSI u` report. -/
def encodeCsiUEvent (keyNumber : Nat) (keyboardFlags : UInt8) : Option (List UInt8) :=
  (findEventKindNumber keyInput keyboardFlags).map fun eventKindNumber =>
    let textCodepoints := getReportedTextCodepoints keyInput keyboardFlags
    [escapeByte, 0x5b] ++ encodeDecimal keyNumber ++
      (if hasFlag keyboardFlags reportAlternateKeysFlag then encodeAlternateKeys keyInput else []) ++
      encodeModifierField (getReportedModifierParameter keyInput) eventKindNumber (textCodepoints ≠ []) ++
      encodeTextField textCodepoints ++ [0x75]

def getCsiUKeyNumber : Key → Option Nat
  | .char character => some character.toNat
  | .named .enter => some 13
  | .named .tab => some 9
  | .named .backspace => some 127
  | .named .esc => some 27
  | .named .space => some 32
  | .named _ => none

/-- The legacy bytes of an event: the text it produced, or the bytes its chord encodes to. -/
def encodeLegacyEvent (keyInput : KeyInput) (isApplicationCursorKeysEnabled : Bool) : Option (List UInt8) :=
  if keyInput.associatedText ≠ [] then some (keyInput.associatedText.flatMap encodeUtf8)
  else
    match keyInput.toBindingChord tables with
    | some chord => encodeKeyChord tables chord isApplicationCursorKeysEnabled
    | none => some []

def encodeCsiUOrLegacyEvent (keyInput : KeyInput) (key : Key) (keyboardFlags : UInt8)
    (isApplicationCursorKeysEnabled : Bool) (extendedKeysMode : ExtendedKeysMode) : Option (List UInt8) := do
  if ← isCsiUWritten tables keyInput keyboardFlags extendedKeysMode then
    encodeCsiUEvent keyInput (← getCsiUKeyNumber key) keyboardFlags
  else encodeLegacyEvent tables keyInput isApplicationCursorKeysEnabled

def encodeFunctionalReport (functionalKeyForm : FunctionalKeyForm) (addedModifierFlags : BindingModifierFlags)
    (eventKindNumber : Nat) : List UInt8 :=
  let modifierFlags : KeyModifierFlags :=
    if addedModifierFlags.hasAllModifiers .shift then ⟨keyInput.modifierFlags.bits ||| KeyModifierFlags.shift.bits⟩
    else keyInput.modifierFlags
  let (keyParameter, finalByte) : Nat × UInt8 :=
    match functionalKeyForm with
    | .cursor finalByte | .ss3 finalByte => (1, finalByte)
    | .tilde tildeKeyCode => (tildeKeyCode, 0x7e)
  [escapeByte, 0x5b] ++ encodeDecimal keyParameter ++ [0x3b] ++ encodeDecimal (toKittyParameter modifierFlags)
    ++ [0x3a] ++
    encodeDecimal eventKindNumber ++ [finalByte]

/-- A cursor, editing or function key. -/
def encodeFunctionalKeyEvent (keyInput : KeyInput) (functionalKeyForm : FunctionalKeyForm × BindingModifierFlags)
    (keyboardFlags : UInt8) (isApplicationCursorKeysEnabled : Bool) : Option (List UInt8) := do
  match ← findEventKindNumber keyInput keyboardFlags with
  | none => encodeLegacyEvent tables keyInput isApplicationCursorKeysEnabled
  | some eventKindNumber =>
    return encodeFunctionalReport keyInput functionalKeyForm.1 functionalKeyForm.2 eventKindNumber

def encodeTextOnlyEvent : Option (List UInt8) :=
  if !hasFlag keyboardFlags reportAllKeysFlag || !hasFlag keyboardFlags reportAssociatedTextFlag then
    some (keyInput.associatedText.flatMap encodeUtf8)
  else encodeCsiUEvent keyInput textOnlyKeyCodepoint.toNat keyboardFlags

/-- The bytes of an event the pane receives. -/
def encodeWrittenEvent (keyInput : KeyInput) (keyboardFlags : UInt8) (isApplicationCursorKeysEnabled : Bool)
    (extendedKeysMode : ExtendedKeysMode) : Option (List UInt8) :=
  match keyInput.key with
  | .unnamed => some []
  | .codepoint codepoint =>
    if codepoint = textOnlyKeyCodepoint then encodeTextOnlyEvent keyInput keyboardFlags
    else if !hasFlag keyboardFlags reportAllKeysFlag then some []
    else encodeCsiUEvent keyInput codepoint.toNat keyboardFlags
  | .key (.named namedKey) =>
    match findFunctionalKeyForm namedKey with
    | none => none
    | some (some functionalKeyForm) =>
      encodeFunctionalKeyEvent tables keyInput functionalKeyForm keyboardFlags isApplicationCursorKeysEnabled
    | some none =>
      encodeCsiUOrLegacyEvent tables keyInput (.named namedKey) keyboardFlags isApplicationCursorKeysEnabled
        extendedKeysMode
  | .key key =>
    encodeCsiUOrLegacyEvent tables keyInput key keyboardFlags isApplicationCursorKeysEnabled extendedKeysMode

/-- The bytes the receiving pane asked for. -/
def encodeKeyInput (keyInput : KeyInput) (keyboardFlags : UInt8) (isApplicationCursorKeysEnabled : Bool)
    (extendedKeysMode : ExtendedKeysMode) : Option (List UInt8) := do
  if ← isEventWritten keyInput keyboardFlags then
    encodeWrittenEvent tables keyInput keyboardFlags isApplicationCursorKeysEnabled extendedKeysMode
  else return []

end Koshi.Input
