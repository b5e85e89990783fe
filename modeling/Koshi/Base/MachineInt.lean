import Mathlib.Algebra.Group.Int.Defs

/-!
# Machine integers as natural numbers

Unsigned machine integers are modelled by natural numbers, signed ones by integers. An operation that
saturates, clamps or truncates is written out with the bounds of its width, so a value that stays in range
is computed exactly as the machine computes it.
-/

namespace Koshi.Base

def u16Max : Nat := 65535

def u32Max : Nat := 4294967295

/-- `u16::saturating_add`. -/
def satAdd16 (a b : Nat) : Nat := min (a + b) u16Max

/-- `u16::saturating_mul`. -/
def satMul16 (a b : Nat) : Nat := min (a * b) u16Max

/-- `u32::saturating_add`. -/
def satAdd32 (a b : Nat) : Nat := min (a + b) u32Max

/-- `u32::saturating_mul`. -/
def satMul32 (a b : Nat) : Nat := min (a * b) u32Max

/-- The `as u16` cast: the low sixteen bits. -/
def asU16 (a : Nat) : Nat := a % (u16Max + 1)

def tryU32OrMax (a : Nat) : Nat := if a ≤ u32Max then a else u32Max

/-- `a.clamp(i32::MIN, i32::MAX)` of a wider integer. -/
def clampI32 (a : Int) : Int := min (max a (-2 ^ 31)) (2 ^ 31 - 1)

def satAddI32 (a b : Int) : Int := clampI32 (a + b)

theorem clampI32_of_within {a : Int} (hlow : -2 ^ 31 ≤ a) (hhigh : a < 2 ^ 31) : clampI32 a = a := by
  unfold clampI32
  omega

theorem satAdd16_of_le {a b : Nat} (h : a + b ≤ u16Max) : satAdd16 a b = a + b :=
  Nat.min_eq_left h

theorem satMul16_of_le {a b : Nat} (h : a * b ≤ u16Max) : satMul16 a b = a * b :=
  Nat.min_eq_left h

theorem asU16_of_le {a : Nat} (h : a ≤ u16Max) : asU16 a = a :=
  Nat.mod_eq_of_lt (Nat.lt_succ_of_le h)

theorem satAdd32_le (a b : Nat) : satAdd32 a b ≤ u32Max := Nat.min_le_right _ _

end Koshi.Base
