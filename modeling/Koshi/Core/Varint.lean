import Mathlib.Tactic
import Mathlib.Data.Nat.Bitwise

/-!
# Unsigned LEB128 varints

Seven bits per byte, low bits first, the high bit set on every byte but the last
(`koshi-core/src/varint.rs`). A `u64` takes at most ten bytes, which bounds both loops.
-/

namespace Koshi.Core

open List

/-- The longest varint `readVarint` accepts. -/
def maxVarintByteCount : Nat := 10

/-- Why `readVarint` read no value. -/
inductive VarintError where
  /-- The bytes end before a byte with the high bit clear. -/
  | truncated
  /-- The varint runs past ten bytes, or past the range of a `u64`. -/
  | tooLong
  deriving DecidableEq, Repr

def writeVarintLoop : Nat → Nat → List UInt8
  | 0, _ => []
  | turnCount + 1, varintValue =>
    let lowBits := (varintValue &&& 0x7f).toUInt8
    let varintValue := varintValue >>> 7
    if varintValue = 0 then [lowBits] else (lowBits ||| 0x80) :: writeVarintLoop turnCount varintValue

def writeVarint (varintValue : Nat) : List UInt8 := writeVarintLoop maxVarintByteCount varintValue

def readLongVarintLoop : Nat → Nat → List UInt8 → Except VarintError (Nat × List UInt8)
  | _, _, [] => .error .truncated
  | byteIndex, varintValue, varintByte :: bytes =>
    if byteIndex = maxVarintByteCount then .error .truncated
    else
      let lowBits := (varintByte &&& 0x7f).toNat
      if byteIndex = maxVarintByteCount - 1 ∧ (lowBits > 1 ∨ varintByte &&& 0x80 ≠ 0) then .error .tooLong
      else
        let varintValue := varintValue ||| lowBits <<< (7 * byteIndex)
        if varintByte &&& 0x80 = 0 then .ok (varintValue, bytes)
        else readLongVarintLoop (byteIndex + 1) varintValue bytes

/-- `readVarint` for a varint of two or more bytes, and for empty input. -/
def readLongVarint (bytes : List UInt8) : Except VarintError (Nat × List UInt8) :=
  readLongVarintLoop 0 0 bytes

/-- Reads one varint off the front of `bytes`: its value and the bytes after it. -/
def readVarint : List UInt8 → Except VarintError (Nat × List UInt8)
  | [] => readLongVarint []
  | varintByte :: bytes =>
    if varintByte &&& 0x80 = 0 then .ok (varintByte.toNat, bytes) else readLongVarint (varintByte :: bytes)

/-! ### The bytes of a varint -/

theorem uint8_toNat_and_7f (b : UInt8) : (b &&& 0x7f).toNat = b.toNat % 128 := by
  rw [UInt8.toNat_and, show (0x7f : UInt8).toNat = 2 ^ 7 - 1 from rfl, Nat.and_two_pow_sub_one_eq_mod]

theorem uint8_and_80_eq_zero_iff (b : UInt8) : b &&& 0x80 = 0 ↔ b.toNat < 128 := by
  rw [← UInt8.toNat_inj, UInt8.toNat_and, show (0x80 : UInt8).toNat = 2 ^ 7 from rfl,
    show (0 : UInt8).toNat = 0 from rfl, Nat.and_two_pow]
  have hlt := b.toNat_lt
  constructor
  · intro h
    by_contra hge
    have hbit : b.toNat.testBit 7 = true := by
      rw [Nat.testBit_eq_decide_div_mod_eq]
      simp only [decide_eq_true_eq]
      omega
    rw [hbit] at h
    simp at h
  · intro h
    rw [Nat.testBit_lt_two_pow (show b.toNat < 2 ^ 7 by omega)]
    rfl

theorem toNat_lowBits (n : Nat) : (n &&& 0x7f).toUInt8.toNat = n % 128 := by
  rw [show (0x7f : Nat) = 2 ^ 7 - 1 from rfl, Nat.and_two_pow_sub_one_eq_mod]
  have : n % 2 ^ 7 < 128 := Nat.mod_lt _ (by decide)
  simp only [Nat.toUInt8, UInt8.toNat_ofNat']
  omega

theorem toNat_lowBits_or_80 (n : Nat) : ((n &&& 0x7f).toUInt8 ||| 0x80).toNat = n % 128 + 128 := by
  have hlt : n % 128 < 2 ^ 7 := Nat.mod_lt _ (by decide)
  rw [UInt8.toNat_or, toNat_lowBits, show (0x80 : UInt8).toNat = 2 ^ 7 * 1 from rfl, Nat.or_comm,
    ← Nat.two_pow_add_eq_or_of_lt hlt]
  omega

theorem readLongVarintLoop_writeVarintLoop (turnCount byteIndex varintValue readValue : Nat) (tail : List UInt8)
    (hturns : turnCount + byteIndex = maxVarintByteCount) (hpos : 0 < turnCount) (hrd : readValue < 2 ^ (7 * byteIndex))
    (hvalue : varintValue * 2 ^ (7 * byteIndex) < 2 ^ 64) :
    readLongVarintLoop byteIndex readValue (writeVarintLoop turnCount varintValue ++ tail) =
      .ok (readValue + varintValue * 2 ^ (7 * byteIndex), tail) := by
  induction turnCount generalizing byteIndex varintValue readValue with
  | zero => omega
  | succ turnCount ih =>
    have hlow : varintValue % 128 + 128 * (varintValue / 128) = varintValue := Nat.mod_add_div _ _
    have hor : readValue ||| (varintValue % 128) <<< (7 * byteIndex) =
        readValue + varintValue % 128 * 2 ^ (7 * byteIndex) := by
      rw [Nat.or_comm, ← Nat.shiftLeft_add_eq_or_of_lt hrd, Nat.shiftLeft_eq, Nat.add_comm]
    -- at the tenth byte only the lowest bit is left
    have hl : byteIndex = 9 → varintValue ≤ 1 := by
      rintro rfl
      omega
    have hne : byteIndex ≠ maxVarintByteCount := by omega
    rw [writeVarintLoop]
    simp only [Nat.shiftRight_eq_div_pow, show 2 ^ 7 = 128 from rfl]
    by_cases hsmall : varintValue / 128 = 0
    · rw [if_pos hsmall, singleton_append, readLongVarintLoop, if_neg hne]
      have hclear : (varintValue &&& 0x7f).toUInt8 &&& 0x80 = 0 :=
        (uint8_and_80_eq_zero_iff _).2 (by rw [toNat_lowBits]; omega)
      simp only [uint8_toNat_and_7f, toNat_lowBits, hclear, if_true, ne_eq, not_true_eq_false, or_false]
      rw [if_neg (by rintro ⟨hb, hgt⟩; have := hl hb; omega), Nat.mod_mod, hor,
        show varintValue % 128 = varintValue by omega]
    · rw [if_neg hsmall, cons_append, readLongVarintLoop, if_neg hne]
      have hset : ¬ ((varintValue &&& 0x7f).toUInt8 ||| 0x80) &&& 0x80 = 0 := by
        rw [uint8_and_80_eq_zero_iff, toNat_lowBits_or_80]
        omega
      have hidx : byteIndex ≠ 9 := fun h => by have := hl h; omega
      have hpow : 2 ^ (7 * (byteIndex + 1)) = 128 * 2 ^ (7 * byteIndex) := by
        rw [Nat.mul_succ, Nat.pow_add, Nat.mul_comm]
      have hbits : varintValue % 128 * 2 ^ (7 * byteIndex) + readValue < 2 ^ (7 * (byteIndex + 1)) := by
        have : varintValue % 128 * 2 ^ (7 * byteIndex) ≤ 127 * 2 ^ (7 * byteIndex) :=
          Nat.mul_le_mul_right _ (by omega)
        omega
      have hsp : varintValue % 128 * 2 ^ (7 * byteIndex) + varintValue / 128 * 2 ^ (7 * (byteIndex + 1)) =
          varintValue * 2 ^ (7 * byteIndex) := by
        rw [hpow, ← Nat.mul_assoc, ← Nat.add_mul, Nat.mul_comm (varintValue / 128), hlow]
      simp only [uint8_toNat_and_7f, toNat_lowBits_or_80, hset, if_false]
      rw [if_neg (by rintro ⟨hb, -⟩; exact hidx hb), show (varintValue % 128 + 128) % 128 =
        varintValue % 128 by omega, hor,
        ih (byteIndex + 1) _ _ (by omega) (by unfold maxVarintByteCount at hturns; omega) (by omega) (by omega)]
      rw [Nat.add_assoc, hsp]

/-- Reading the bytes written for a `u64` gives the value back and leaves exactly what follows them. -/
theorem readVarint_writeVarint_append {varintValue : Nat} (hvalue : varintValue < 2 ^ 64)
    (tail : List UInt8) : readVarint (writeVarint varintValue ++ tail) = .ok (varintValue, tail) := by
  have hlong : readLongVarint (writeVarint varintValue ++ tail) = .ok (varintValue, tail) := by
    have := readLongVarintLoop_writeVarintLoop maxVarintByteCount 0 varintValue 0 tail rfl (by decide)
      (by decide) (by simpa using hvalue)
    rw [Nat.zero_add, Nat.mul_zero, Nat.pow_zero, Nat.mul_one] at this
    exact this
  unfold writeVarint maxVarintByteCount at hlong ⊢
  rw [writeVarintLoop] at hlong ⊢
  by_cases hsmall : varintValue >>> 7 = 0
  · rw [if_pos hsmall, singleton_append, readVarint]
    have hlt : varintValue < 128 := by
      rw [Nat.shiftRight_eq_div_pow] at hsmall
      omega
    have hclear : (varintValue &&& 0x7f).toUInt8 &&& 0x80 = 0 :=
      (uint8_and_80_eq_zero_iff _).2 (by rw [toNat_lowBits]; omega)
    rw [if_pos hclear, toNat_lowBits, Nat.mod_eq_of_lt hlt]
  · rw [if_neg hsmall, cons_append] at hlong ⊢
    have hset : ¬ ((varintValue &&& 0x7f).toUInt8 ||| 0x80) &&& 0x80 = 0 := by
      rw [uint8_and_80_eq_zero_iff, toNat_lowBits_or_80]
      omega
    rw [readVarint, if_neg hset]
    exact hlong

/-! ### The length of a varint -/

theorem writeVarint_eq_singleton {varintValue : Nat} (hvalue : varintValue < 128) :
    writeVarint varintValue = [varintValue.toUInt8] := by
  unfold writeVarint maxVarintByteCount
  rw [writeVarintLoop, if_pos (by rw [Nat.shiftRight_eq_div_pow]; omega),
    show (0x7f : Nat) = 2 ^ 7 - 1 from rfl, Nat.and_two_pow_sub_one_eq_mod, Nat.mod_eq_of_lt hvalue]

theorem writeVarintLoop_length_le (turnCount varintValue : Nat) :
    (writeVarintLoop turnCount varintValue).length ≤ turnCount := by
  induction turnCount generalizing varintValue with
  | zero => exact Nat.le_refl 0
  | succ turnCount ih =>
    rw [writeVarintLoop]
    split_ifs
    · simp
    · simpa using ih _

theorem writeVarint_length_le (varintValue : Nat) : (writeVarint varintValue).length ≤ 10 :=
  writeVarintLoop_length_le maxVarintByteCount varintValue

theorem writeVarint_length_pos (varintValue : Nat) : 0 < (writeVarint varintValue).length := by
  unfold writeVarint maxVarintByteCount
  rw [writeVarintLoop]
  split_ifs <;> simp

end Koshi.Core
