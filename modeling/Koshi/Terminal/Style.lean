import Mathlib.Tactic
import Mathlib.Data.Nat.Bitwise

/-!
# Cell styles

Colors and text attributes of a cell (`koshi-terminal/src/style.rs`). The attribute word holds eight
boolean attributes in bits 0-7 and the underline code in bits 8-10. Every writer of a word keeps only the
bits the getters read, which is the invariant `AttributeFlags` carries.
-/

namespace Koshi.Terminal

variable (attributeWord : Nat)

/-- A foreground or background color. -/
inductive Color where
  | default
  | indexed (paletteIndex : UInt8)
  | rgb (red green blue : UInt8)
  deriving DecidableEq, Repr

inductive UnderlineStyle where
  | none
  | single
  | double
  | curly
  | dotted
  | dashed
  deriving DecidableEq, Repr

/-- The style a 3-bit code names: `0`, `6` and `7` give none. -/
def UnderlineStyle.fromUnderlineCode : Nat → UnderlineStyle
  | 1 => .single
  | 2 => .double
  | 3 => .curly
  | 4 => .dotted
  | 5 => .dashed
  | _ => .none

/-- Where the underline code starts. -/
def underlineShift : Nat := 8

/-- The three bits the underline code occupies, in place. -/
def underlineMask : Nat := 0b111 <<< underlineShift

/-- The eleven bits the getters read. -/
def definedMask : Nat := 0x07FF

/-- The bits of an attribute word that the getters read; an underline code that names no style becomes
`0`. -/
def keepDefinedAttributeBits (attributeWord : Nat) : Nat :=
  let attributeWord := attributeWord &&& definedMask
  let underlineCode := (attributeWord &&& underlineMask) >>> underlineShift
  if UnderlineStyle.fromUnderlineCode underlineCode = .none then
    attributeWord &&& (0xFFFF ^^^ underlineMask)
  else attributeWord

/-- The defined bits in arithmetic: the low byte, and an underline code from `1` to `5` above it. -/
theorem keepAttributeBits_eq :
    keepDefinedAttributeBits attributeWord =
      if UnderlineStyle.fromUnderlineCode (attributeWord % 2048 / 256) = .none then attributeWord % 256
      else attributeWord % 2048 := by
  have hdefined : attributeWord &&& definedMask = attributeWord % 2048 := by
    rw [show definedMask = 2 ^ 11 - 1 from rfl, Nat.and_two_pow_sub_one_eq_mod]
  have hlt : attributeWord % 2048 < 2048 := Nat.mod_lt _ (by decide)
  have hcode : (attributeWord % 2048 &&& underlineMask) >>> underlineShift = attributeWord % 2048 / 256 := by
    rw [Nat.shiftRight_and_distrib, show underlineMask >>> underlineShift = 2 ^ 3 - 1 from rfl,
      Nat.and_two_pow_sub_one_eq_mod, Nat.shiftRight_eq_div_pow]
    unfold underlineShift
    omega
  have hlow : attributeWord % 2048 &&& (0xFFFF ^^^ underlineMask) = attributeWord % 256 := by
    apply Nat.eq_of_testBit_eq
    intro i
    rw [Nat.testBit_and, show attributeWord % 2048 = attributeWord % 2 ^ 11 from rfl,
      show attributeWord % 256 = attributeWord % 2 ^ 8 from rfl, Nat.testBit_mod_two_pow, Nat.testBit_mod_two_pow,
      show (0xFFFF ^^^ underlineMask) = 0xF8FF from rfl]
    by_cases hi : i < 11
    · interval_cases i <;> simp [Nat.testBit_eq_decide_div_mod_eq]
    · have : ¬ i < 8 := by omega
      simp [hi, this]
  simp only [keepDefinedAttributeBits]
  rw [hdefined, hcode, hlow]

theorem keepAttributeBits_idem :
    keepDefinedAttributeBits (keepDefinedAttributeBits attributeWord) = keepDefinedAttributeBits attributeWord := by
  rw [keepAttributeBits_eq attributeWord]
  split_ifs with h
  · rw [keepAttributeBits_eq, show attributeWord % 256 % 2048 / 256 = 0 by omega]
    simp [UnderlineStyle.fromUnderlineCode]
  · rw [keepAttributeBits_eq, Nat.mod_mod, if_neg h]

theorem keepAttributeBits_lt : keepDefinedAttributeBits attributeWord < 2048 := by
  rw [keepAttributeBits_eq]
  split_ifs <;> omega

/-- Text attributes packed into one word of defined bits. -/
structure AttributeFlags where
  attributeWord : Nat
  defined : keepDefinedAttributeBits attributeWord = attributeWord
  deriving DecidableEq

namespace AttributeFlags

/-- The flags an attribute word gives, keeping only the bits the getters read. -/
def fromAttributeWord (attributeWord : Nat) : AttributeFlags :=
  ⟨keepDefinedAttributeBits attributeWord, keepAttributeBits_idem attributeWord⟩

def default : AttributeFlags := ⟨0, by decide⟩

@[simp] theorem fromAttributeWord_attributeWord (attributeFlags : AttributeFlags) :
    fromAttributeWord attributeFlags.attributeWord = attributeFlags := by
  obtain ⟨attributeWord, defined⟩ := attributeFlags
  simp [fromAttributeWord, defined]

theorem attributeWord_lt (attributeFlags : AttributeFlags) : attributeFlags.attributeWord < 2048 := by
  rw [← attributeFlags.defined]
  exact keepAttributeBits_lt _

end AttributeFlags

/-- The visual style of a single cell. -/
structure Style where
  foregroundColor : Color
  backgroundColor : Color
  attributes : AttributeFlags
  underlineColor : Option Color
  deriving DecidableEq

def Style.default : Style := ⟨.default, .default, .default, none⟩

end Koshi.Terminal
