import Mathlib.Tactic
import Mathlib.Data.List.Infix

/-!
# Key chords and key sequences

The value types of `koshi-core/src/key.rs`: a chord is the modifiers held and one key, a sequence is the
nonempty run of chords one binding triggers on. The order of both is the derived one: chords compare by their
modifier bits and then by their key, sequences compare chord by chord.
-/

namespace Koshi.Core

/-- The modifier keys held as part of a chord, one per bit. The four bits of `BINDING_MODIFIER_BITS` are the
only ones a value can set. -/
structure BindingModifierFlags where
  bits : BitVec 4
  deriving DecidableEq

namespace BindingModifierFlags

def none : BindingModifierFlags := ⟨0⟩

def ctrl : BindingModifierFlags := ⟨1⟩

def alt : BindingModifierFlags := ⟨2⟩

def shift : BindingModifierFlags := ⟨4⟩

def super : BindingModifierFlags := ⟨8⟩

def isEmpty (flags : BindingModifierFlags) : Bool := flags.bits == 0

/-- Whether every modifier of `required` is held. -/
def hasAllModifiers (flags required : BindingModifierFlags) : Bool := flags.bits &&& required.bits == required.bits

/-- Whether some modifier of `candidates` is held. -/
def hasSharedModifier (flags candidates : BindingModifierFlags) : Bool := flags.bits &&& candidates.bits != 0

/-- The modifiers held in either set. -/
def union (flags other : BindingModifierFlags) : BindingModifierFlags := ⟨flags.bits ||| other.bits⟩

/-- `NON_TYPING_MODIFIER_FLAGS`: Control, Alt and Super, the modifiers plain typing never holds. -/
def nonTyping : BindingModifierFlags := (ctrl.union alt).union super

/-- Whether plain typing produces a key held with exactly these modifiers. -/
def isTypeable (flags : BindingModifierFlags) : Bool := !flags.hasSharedModifier nonTyping

end BindingModifierFlags

/-- A key that is not a printable character. -/
inductive NamedKey where
  | enter
  | tab
  | backspace
  | esc
  | space
  | insert
  | delete
  | home
  | «end»
  | pageUp
  | pageDown
  | left
  | right
  | up
  | down
  | f (functionKeyNumber : UInt8)
  deriving DecidableEq

/-- The place of a named key in the derived order: the variants in declaration order, the function keys last
and by their number. -/
def NamedKey.ordinal : NamedKey → Nat
  | enter => 0
  | tab => 1
  | backspace => 2
  | esc => 3
  | space => 4
  | insert => 5
  | delete => 6
  | home => 7
  | «end» => 8
  | pageUp => 9
  | pageDown => 10
  | left => 11
  | right => 12
  | up => 13
  | down => 14
  | f functionKeyNumber => 15 + functionKeyNumber.toNat

theorem NamedKey.ordinal_injective : Function.Injective NamedKey.ordinal := by
  intro first second h
  cases first <;> cases second <;> simp only [NamedKey.ordinal] at h <;> first | rfl | omega | skip
  rename_i first second
  have hnum : first = second := UInt8.toNat_inj.1 (by omega)
  rw [hnum]

/-- The key part of a chord, with the modifiers stripped off. -/
inductive Key where
  | char (character : Char)
  | named (namedKey : NamedKey)
  deriving DecidableEq

/-- One key press: the modifiers held, and the key itself. -/
structure KeyChord where
  modifierFlags : BindingModifierFlags
  key : Key
  deriving DecidableEq

namespace KeyChord

/-- Whether ordinary typing produces the chord. -/
def isTypeable (chord : KeyChord) : Bool := chord.modifierFlags.isTypeable

/-- What the derived order compares, first to last: the modifier bits, the variant of the key, the key. -/
def orderKey (chord : KeyChord) : List Nat :=
  match chord.key with
  | .char character => [chord.modifierFlags.bits.toNat, 0, character.toNat]
  | .named namedKey => [chord.modifierFlags.bits.toNat, 1, namedKey.ordinal]

theorem orderKey_injective : Function.Injective orderKey := by
  rintro ⟨⟨firstBits⟩, firstKey⟩ ⟨⟨secondBits⟩, secondKey⟩ h
  cases firstKey <;> cases secondKey <;>
    simp only [orderKey, List.cons.injEq, and_true, true_and, zero_ne_one, one_ne_zero, false_and, and_false] at h
  · obtain ⟨hbits, hchar⟩ := h
    rw [BitVec.eq_of_toNat_eq hbits, Char.toNat_inj.1 hchar]
  · obtain ⟨hbits, hordinal⟩ := h
    rw [BitVec.eq_of_toNat_eq hbits, NamedKey.ordinal_injective hordinal]

instance : Ord KeyChord := ⟨compareOn orderKey⟩

instance : Std.TransOrd KeyChord := inferInstanceAs (Std.TransCmp (compareOn orderKey))

instance : Std.LawfulEqOrd KeyChord where
  eq_of_compare h := orderKey_injective (Std.LawfulEqOrd.eq_of_compare (α := List Nat) h)

end KeyChord

/-- An ordered run of chords pressed one after another to trigger one binding: at least one chord. -/
structure KeySequence where
  chords : List KeyChord
  nonempty : chords ≠ []
  deriving DecidableEq

namespace KeySequence

theorem chords_injective : Function.Injective chords := by
  rintro ⟨firstChords, _⟩ ⟨secondChords, _⟩ h
  cases h
  rfl

@[ext] theorem ext {first second : KeySequence} (h : first.chords = second.chords) : first = second :=
  chords_injective h

def fromFirstAndRest (firstChord : KeyChord) (remainingChords : List KeyChord) : KeySequence :=
  ⟨firstChord :: remainingChords, List.cons_ne_nil _ _⟩

def ofChord (chord : KeyChord) : KeySequence := ⟨[chord], List.cons_ne_nil _ _⟩

instance : Ord KeySequence := ⟨compareOn chords⟩

instance : Std.TransOrd KeySequence := inferInstanceAs (Std.TransCmp (compareOn chords))

instance : Std.LawfulEqOrd KeySequence where
  eq_of_compare h := chords_injective (Std.LawfulEqOrd.eq_of_compare (α := List KeyChord) h)

/-- Whether `longer` opens with `shorter` and has more chords. -/
def StrictlyExtends (longer shorter : KeySequence) : Prop :=
  shorter.chords <+: longer.chords ∧ shorter.chords.length < longer.chords.length

end KeySequence

end Koshi.Core
