import Koshi.Core.Key

/-!
# The written form of a chord, and the chord of a key event

The `Display` forms of `koshi-core/src/key.rs`, as lists of characters, and the projection of a keyboard event to
the chord a binding matches. Case is read through `CaseTables`, the Unicode case tables of the standard library:
which characters are capitals and small letters, and what their case mappings are.
-/

namespace Koshi.Core

/-- `char::is_whitespace`: the Unicode property `White_Space`. -/
def isWhitespace (character : Char) : Bool :=
  let code := character.toNat
  decide (0x9 ≤ code ∧ code ≤ 0xd) || decide (code ∈ [0x20, 0x85, 0xa0, 0x1680]) ||
    decide (0x2000 ≤ code ∧ code ≤ 0x200a) || decide (code ∈ [0x2028, 0x2029, 0x202f, 0x205f, 0x3000])

/-- `char::is_control`: the general category `Cc`. -/
def isControl (character : Char) : Bool :=
  decide (character.toNat ≤ 0x1f) || decide (0x7f ≤ character.toNat ∧ character.toNat ≤ 0x9f)

/-- A raw whitespace or control character, which no chord holds as its key. -/
def isRaw (character : Char) : Bool := isWhitespace character || isControl character

/-- The case tables of the standard library. A character without a mapping maps to itself. -/
structure CaseTables where
  isUppercase : Char → Bool
  isLowercase : Char → Bool
  isAlphanumeric : Char → Bool
  toLowercase : Char → List Char
  toUppercase : Char → List Char
  /-- No character is both a capital and a small letter. -/
  uppercase_not_lowercase : ∀ character, isUppercase character = true → isLowercase character = false
  /-- A letter is neither whitespace nor a control character. -/
  uppercase_not_raw : ∀ character, isUppercase character = true → isRaw character = false
  lowercase_not_raw : ∀ character, isLowercase character = true → isRaw character = false
  /-- The other member of a case pair, one character each way, is a small letter. -/
  lowercase_of_pair : ∀ character lowered, isUppercase character = true → lowered ≠ character →
    toLowercase character = [lowered] → toUppercase lowered = [character] → isLowercase lowered = true

def foldUppercaseCharacter (tables : CaseTables) (character : Char) : Char × Bool :=
  if !tables.isUppercase character then (character, false)
  else
    match tables.toLowercase character with
    | [lowercaseCharacter] =>
      match tables.toUppercase lowercaseCharacter with
      | [restoredCharacter] =>
        if restoredCharacter = character then (lowercaseCharacter, true) else (character, false)
      | _ => (character, false)
    | _ => (character, false)

/-! ### Display -/

/-- The modifier run in the order `C-A-S-D-`. -/
def BindingModifierFlags.display (flags : BindingModifierFlags) : List Char :=
  (if flags.hasAllModifiers .ctrl then ['C', '-'] else []) ++ (if flags.hasAllModifiers .alt then ['A', '-'] else []) ++
    (if flags.hasAllModifiers .shift then ['S', '-'] else []) ++
    (if flags.hasAllModifiers .super then ['D', '-'] else [])

def NamedKey.display : NamedKey → List Char
  | enter => ['C', 'R']
  | tab => ['T', 'a', 'b']
  | backspace => ['B', 'S']
  | esc => ['E', 's', 'c']
  | space => ['S', 'p', 'a', 'c', 'e']
  | insert => ['I', 'n', 's', 'e', 'r', 't']
  | delete => ['D', 'e', 'l']
  | home => ['H', 'o', 'm', 'e']
  | «end» => ['E', 'n', 'd']
  | pageUp => ['P', 'a', 'g', 'e', 'U', 'p']
  | pageDown => ['P', 'a', 'g', 'e', 'D', 'o', 'w', 'n']
  | left => ['L', 'e', 'f', 't']
  | right => ['R', 'i', 'g', 'h', 't']
  | up => ['U', 'p']
  | down => ['D', 'o', 'w', 'n']
  | f functionKeyNumber => 'F' :: Nat.toDigits 10 functionKeyNumber.toNat

def Key.display : Key → List Char
  | char character => [character]
  | named namedKey => namedKey.display

/-- Whether the chord is written in angle brackets: a modifier, a named key, or `<` itself. -/
def KeyChord.isBracketed (chord : KeyChord) : Bool :=
  !chord.modifierFlags.isEmpty || match chord.key with
    | .named _ => true
    | .char character => character = '<'

/-- The canonical text of a chord. -/
def KeyChord.display (chord : KeyChord) : List Char :=
  if chord.isBracketed then '<' :: (chord.modifierFlags.display ++ chord.key.display ++ ['>']) else chord.key.display

/-- The texts of the chords, a space between them. -/
def KeySequence.display (keySequence : KeySequence) : List Char :=
  [' '].intercalate (keySequence.chords.map KeyChord.display)

/-! ### Key events -/

/-- The modifier keys the outer terminal reported, one per bit. -/
structure KeyModifierFlags where
  bits : BitVec 8
  deriving DecidableEq

namespace KeyModifierFlags

def shift : KeyModifierFlags := ⟨1⟩

def alt : KeyModifierFlags := ⟨2⟩

def ctrl : KeyModifierFlags := ⟨4⟩

def super : KeyModifierFlags := ⟨8⟩

def «meta» : KeyModifierFlags := ⟨32⟩

def hasAllModifiers (flags required : KeyModifierFlags) : Bool := flags.bits &&& required.bits == required.bits

/-- The four modifiers a keybinding matches on; Meta counts as Super. -/
def toBindingModifiers (flags : KeyModifierFlags) : BindingModifierFlags :=
  (((if flags.hasAllModifiers ctrl then BindingModifierFlags.ctrl else .none).union
    (if flags.hasAllModifiers alt then .alt else .none)).union
    (if flags.hasAllModifiers shift then .shift else .none)).union
    (if flags.hasAllModifiers super || flags.hasAllModifiers «meta» then .super else .none)

end KeyModifierFlags

/-- The physical action one keyboard event reports. -/
inductive KeyEventKind where
  | press
  | repeat
  | release
  deriving DecidableEq

/-- The key a keyboard event reports. -/
inductive KeyIdentity where
  | key (key : Key)
  | codepoint (codepoint : UInt32)
  | unnamed
  deriving DecidableEq

/-- One keyboard event, as far as a keybinding reads it: the base-layout key and the associated text are left
out. -/
structure KeyInput where
  key : KeyIdentity
  keyEventKind : KeyEventKind
  shiftedKey : Option Char
  modifierFlags : KeyModifierFlags
  deriving DecidableEq

def buildCanonicalChord (tables : CaseTables) (reportedKey : Key) (modifierFlags : BindingModifierFlags)
    (isShiftHeld : Bool) : KeyChord :=
  let canonical : Key × Bool :=
    match reportedKey with
    | .named namedKey => (.named namedKey, isShiftHeld)
    | .char character =>
      if character = ' ' then (.named .space, isShiftHeld)
      else
        let folded := foldUppercaseCharacter tables character
        (.char folded.1, folded.2 || (tables.isLowercase folded.1 && isShiftHeld))
  ⟨if canonical.2 then modifierFlags.union .shift else modifierFlags, canonical.1⟩

def BindingModifierFlags.withoutShift (flags : BindingModifierFlags) : BindingModifierFlags :=
  ⟨flags.bits &&& ~~~BindingModifierFlags.shift.bits⟩

/-- The chord a keybinding matches the event against. -/
def KeyInput.toBindingChord (tables : CaseTables) (keyInput : KeyInput) : Option KeyChord :=
  if keyInput.keyEventKind = .release then none
  else
    match keyInput.key with
    | .key bindingKey =>
      let bindingModifierFlags := keyInput.modifierFlags.toBindingModifiers
      let isShiftHeld := bindingModifierFlags.hasAllModifiers .shift
      match isShiftHeld, bindingKey, keyInput.shiftedKey with
      | true, .char keyCharacter, some shiftedCharacter =>
        if shiftedCharacter ≠ keyCharacter then
          some (buildCanonicalChord tables (.char shiftedCharacter) bindingModifierFlags.withoutShift false)
        else some (buildCanonicalChord tables bindingKey bindingModifierFlags.withoutShift isShiftHeld)
      | _, _, _ => some (buildCanonicalChord tables bindingKey bindingModifierFlags.withoutShift isShiftHeld)
    | _ => none

end Koshi.Core
