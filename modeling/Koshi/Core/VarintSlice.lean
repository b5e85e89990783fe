import Koshi.Core.Varint

/-!
# Reading a varint in place

`read_varint` takes the slice by a mutable reference and moves it past the varint, and
`compute_varint_byte_count` (`koshi-terminal/src/row_encoding.rs`) measures a varint before it is written.
The reads here carry the slice, and stop where a shift would reach or pass the 64th bit.
-/

namespace Koshi.Core

open List

/-- `bits << places` of a `u64`, where `places` is a legal shift and no bit is lost. -/
def shiftLeftU64 (bits places : Nat) : Option Nat :=
  if places < 64 ∧ bits <<< places < 2 ^ 64 then some (bits <<< places) else none

def readLongVarintInPlaceLoop (remainingBytes : List UInt8) :
    Nat → Nat → List UInt8 → Option (Except VarintError Nat × List UInt8)
  | _, _, [] => some (.error .truncated, remainingBytes)
  | byteIndex, varintValue, varintByte :: bytes =>
    if byteIndex = maxVarintByteCount then some (.error .truncated, remainingBytes)
    else
      let lowBits := (varintByte &&& 0x7f).toNat
      if byteIndex = maxVarintByteCount - 1 ∧ (lowBits > 1 ∨ varintByte &&& 0x80 ≠ 0) then
        some (.error .tooLong, remainingBytes)
      else
        (shiftLeftU64 lowBits (7 * byteIndex)).bind fun shiftedBits =>
        let varintValue := varintValue ||| shiftedBits
        if varintByte &&& 0x80 = 0 then some (.ok varintValue, remainingBytes.drop (byteIndex + 1))
        else readLongVarintInPlaceLoop remainingBytes (byteIndex + 1) varintValue bytes

def readLongVarintInPlace (remainingBytes : List UInt8) : Option (Except VarintError Nat × List UInt8) :=
  readLongVarintInPlaceLoop remainingBytes 0 0 remainingBytes

/-- What `read_varint` returns and the slice it leaves; `none` for a shift past 64 bits. -/
def readVarintInPlace (remainingBytes : List UInt8) : Option (Except VarintError Nat × List UInt8) :=
  match remainingBytes with
  | [] => readLongVarintInPlace remainingBytes
  | varintByte :: bytesAfterVarint =>
    if varintByte &&& 0x80 = 0 then some (.ok varintByte.toNat, bytesAfterVarint)
    else readLongVarintInPlace remainingBytes

def computeVarintByteCountLoop (varintByteCount remainingValue : Nat) : Nat :=
  if remainingValue = 0 then varintByteCount
  else computeVarintByteCountLoop (varintByteCount + 1) (remainingValue >>> 7)
termination_by remainingValue
decreasing_by rw [Nat.shiftRight_eq_div_pow]; omega

def computeVarintByteCount (varintValue : Nat) : Nat := computeVarintByteCountLoop 1 (varintValue >>> 7)

/-! ### The in-place read is the read -/

/-- What a read leaves in the slice: the bytes after the varint, or on an error every byte. -/
def sliceAfterRead (remainingBytes : List UInt8) :
    Except VarintError (Nat × List UInt8) → Except VarintError Nat × List UInt8
  | .ok (varintValue, bytesAfterVarint) => (.ok varintValue, bytesAfterVarint)
  | .error varintError => (.error varintError, remainingBytes)

theorem shiftLeftU64_eq_some {bits places : Nat} (hplaces : places < 64) (hbits : bits * 2 ^ places < 2 ^ 64) :
    shiftLeftU64 bits places = some (bits <<< places) := by
  rw [shiftLeftU64, if_pos ⟨hplaces, by rwa [Nat.shiftLeft_eq]⟩]

/-- Seven bits at a place before the tenth byte's, or one bit there, stay in a `u64`. -/
theorem shiftLeftU64_lowBits {lowBits byteIndex : Nat} (hbits : lowBits < 128) (hindex : byteIndex ≤ 9)
    (hl : byteIndex = 9 → lowBits ≤ 1) :
    shiftLeftU64 lowBits (7 * byteIndex) = some (lowBits <<< (7 * byteIndex)) := by
  refine shiftLeftU64_eq_some (by omega) ?_
  rcases Nat.lt_or_ge byteIndex 9 with hlt | hge
  · have hpow : 2 ^ (7 * byteIndex) ≤ 2 ^ 56 := Nat.pow_le_pow_right (by decide) (by omega)
    calc lowBits * 2 ^ (7 * byteIndex) ≤ 127 * 2 ^ 56 := Nat.mul_le_mul (by omega) hpow
      _ < 2 ^ 64 := by decide
  · obtain rfl : byteIndex = 9 := by omega
    have := hl rfl
    omega

theorem longInPlace_eq {rest bs : List UInt8} {byteIndex varintValue : Nat} (hindex : byteIndex ≤ maxVarintByteCount)
    (hby : bs = rest.drop byteIndex) :
    readLongVarintInPlaceLoop rest byteIndex varintValue bs =
      some (sliceAfterRead rest (readLongVarintLoop byteIndex varintValue bs)) := by
  induction bs generalizing byteIndex varintValue with
  | nil => rfl
  | cons varintByte bs ih =>
    have hdrop : bs = rest.drop (byteIndex + 1) := by
      rw [← tail_drop, ← hby, tail_cons]
    rw [readLongVarintInPlaceLoop, readLongVarintLoop]
    by_cases hen : byteIndex = maxVarintByteCount
    · rw [if_pos hen, if_pos hen, sliceAfterRead]
    rw [if_neg hen, if_neg hen]
    by_cases hlong : byteIndex = maxVarintByteCount - 1 ∧ ((varintByte &&& 0x7f).toNat > 1 ∨ varintByte &&& 0x80 ≠ 0)
    · simp only [if_pos hlong, sliceAfterRead]
    simp only [if_neg hlong]
    have hshift : shiftLeftU64 (varintByte &&& 0x7f).toNat (7 * byteIndex) =
        some ((varintByte &&& 0x7f).toNat <<< (7 * byteIndex)) := by
      refine shiftLeftU64_lowBits ?_ (by unfold maxVarintByteCount at *; omega) fun hl => ?_
      · rw [uint8_toNat_and_7f]
        exact Nat.mod_lt _ (by decide)
      · exact Nat.le_of_not_lt fun hgt => hlong ⟨hl, .inl hgt⟩
    rw [hshift, Option.bind_some]
    split_ifs
    · rw [sliceAfterRead, hdrop]
    · exact ih (by omega) hdrop

theorem readVarintInPlace_eq (rest : List UInt8) :
    readVarintInPlace rest = some (sliceAfterRead rest (readVarint rest)) := by
  have hlong : readLongVarintInPlace rest = some (sliceAfterRead rest (readLongVarint rest)) :=
    longInPlace_eq (Nat.zero_le _) rfl
  cases rest with
  | nil => exact hlong
  | cons varintByte bytes =>
    rw [readVarintInPlace, readVarint]
    split_ifs
    · rfl
    · exact hlong

theorem lt_of_shiftLeftU64 {bits places shiftedBits : Nat} (h : shiftLeftU64 bits places = some shiftedBits) :
    shiftedBits < 2 ^ 64 := by
  unfold shiftLeftU64 at h
  split_ifs at h with hbits
  exact Option.some.inj h ▸ hbits.2

theorem lt_of_longInPlace {rest bs bytesAfterVarint : List UInt8} {byteIndex varintValue readValue : Nat}
    (hvalue : varintValue < 2 ^ 64)
    (hrd : readLongVarintInPlaceLoop rest byteIndex varintValue bs =
      some (.ok readValue, bytesAfterVarint)) : readValue < 2 ^ 64 := by
  induction bs generalizing byteIndex varintValue with
  | nil => exact absurd hrd nofun
  | cons varintByte bs ih =>
    rw [readLongVarintInPlaceLoop] at hrd
    dsimp only at hrd
    split_ifs at hrd with hen hlong hl
    · cases hrd
    · cases hrd
    · obtain ⟨shiftedBits, hshift, hrd⟩ := Option.bind_eq_some_iff.1 hrd
      simp only [Option.some.injEq, Prod.mk.injEq, Except.ok.injEq] at hrd
      exact hrd.1 ▸ Nat.or_lt_two_pow hvalue (lt_of_shiftLeftU64 hshift)
    · obtain ⟨shiftedBits, hshift, hrd⟩ := Option.bind_eq_some_iff.1 hrd
      exact ih (Nat.or_lt_two_pow hvalue (lt_of_shiftLeftU64 hshift)) hrd

theorem lt_of_readVarintInPlace {rest bytesAfterVarint : List UInt8} {readValue : Nat}
    (hrd : readVarintInPlace rest = some (.ok readValue, bytesAfterVarint)) :
    readValue < 2 ^ 64 := by
  cases rest with
  | nil => exact lt_of_longInPlace (by decide) hrd
  | cons varintByte bytes =>
    rw [readVarintInPlace] at hrd
    split_ifs at hrd
    · simp only [Option.some.injEq, Prod.mk.injEq, Except.ok.injEq] at hrd
      have := varintByte.toNat_lt
      omega
    · exact lt_of_longInPlace (by decide) hrd

/-! ### The measured length -/

theorem varintByteCountLoop_eq (turnCount varintByteCount varintValue : Nat)
    (hvalue : varintValue < 2 ^ (7 * (turnCount + 1))) :
    computeVarintByteCountLoop (varintByteCount + 1) (varintValue >>> 7) =
      varintByteCount + (writeVarintLoop (turnCount + 1) varintValue).length := by
  induction turnCount generalizing varintByteCount varintValue with
  | zero =>
    have hz : varintValue >>> 7 = 0 := by
      rw [Nat.shiftRight_eq_div_pow]
      exact Nat.div_eq_of_lt hvalue
    rw [computeVarintByteCountLoop, writeVarintLoop]
    simp only [hz, if_true, length_singleton]
  | succ turnCount ih =>
    rw [computeVarintByteCountLoop, writeVarintLoop]
    by_cases hz : varintValue >>> 7 = 0
    · simp only [hz, if_true, length_singleton]
    have hn : varintValue >>> 7 < 2 ^ (7 * (turnCount + 1)) := by
      rw [Nat.shiftRight_eq_div_pow, Nat.div_lt_iff_lt_mul (by decide), ← Nat.pow_add]
      exact hvalue
    simp only [if_neg hz, length_cons]
    rw [ih (varintByteCount + 1) _ hn]
    omega

theorem varintByteCount_eq (varintValue : UInt64) :
    computeVarintByteCount varintValue.toNat = (writeVarint varintValue.toNat).length := by
  have hvalue : varintValue.toNat < 2 ^ (7 * (9 + 1)) := Nat.lt_of_lt_of_le varintValue.toNat_lt (by decide)
  rw [computeVarintByteCount, varintByteCountLoop_eq 9 0 _ hvalue, Nat.zero_add]
  rfl

/-- **Varints.** Every value is read back from its bytes and exactly what follows them is left, a value is
written in as many bytes as it is measured to take, and every read stays within 64 bits and on an error
leaves the slice as it was. -/
theorem varint_readBack_and_measured :
    (∀ (varintValue : UInt64) (suffix : List UInt8),
      readVarintInPlace (writeVarint varintValue.toNat ++ suffix) = some (.ok varintValue.toNat, suffix)) ∧
    (∀ varintValue : UInt64, computeVarintByteCount varintValue.toNat = (writeVarint varintValue.toNat).length) ∧
    ∀ remainingBytes : List UInt8, ∃ readResult bytesAfterRead,
      readVarintInPlace remainingBytes = some (readResult, bytesAfterRead) ∧
      (∀ varintValue, readResult = .ok varintValue → varintValue < 2 ^ 64) ∧
      ∀ varintError, readResult = .error varintError → bytesAfterRead = remainingBytes := by
  refine ⟨fun varintValue suffix => ?_, varintByteCount_eq, fun remainingBytes => ?_⟩
  · rw [readVarintInPlace_eq, readVarint_writeVarint_append varintValue.toNat_lt, sliceAfterRead]
  · have hread := readVarintInPlace_eq remainingBytes
    cases hresult : readVarint remainingBytes with
    | ok readPair =>
      rw [hresult, sliceAfterRead] at hread
      exact ⟨_, _, hread, fun varintValue hok => lt_of_readVarintInPlace (hok ▸ hread), nofun⟩
    | error varintError =>
      rw [hresult, sliceAfterRead] at hread
      exact ⟨_, _, hread, nofun, fun _ _ => rfl⟩

end Koshi.Core
