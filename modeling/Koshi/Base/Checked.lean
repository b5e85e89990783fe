import Mathlib.Tactic
import Koshi.Base.MachineInt

/-!
# Checked arithmetic

The operations of a machine integer type with `none` where the result leaves the type, and the rule for a loop of
such steps: while an invariant keeps every step in range, the checked loop computes what the plain one does.
-/

namespace Koshi.Base

variable {maxValue : Nat}

def u64Max : Nat := 18446744073709551615

/-- A cast to an unsigned type whose largest value is `maxValue`, exact or `none`. -/
def checkedCast (maxValue value : Nat) : Option Nat := if value ≤ maxValue then some value else none

/-- Addition in an unsigned type. -/
def checkedAdd (maxValue a b : Nat) : Option Nat := checkedCast maxValue (a + b)

/-- Multiplication in an unsigned type. -/
def checkedMul (maxValue a b : Nat) : Option Nat := checkedCast maxValue (a * b)

/-- Subtraction in an unsigned type. -/
def checkedSub (a b : Nat) : Option Nat := if b ≤ a then some (a - b) else none

/-- The sum of a list in an unsigned type. -/
def checkedSum (maxValue : Nat) (values : List Nat) : Option Nat := values.foldlM (checkedAdd maxValue) 0

def checkedAddI64 (a b : Int) : Option Int := if -2 ^ 63 ≤ a + b ∧ a + b < 2 ^ 63 then some (a + b) else none

/-- A cast of a signed value to an unsigned type, exact or `none`. -/
def checkedCastInt (maxValue : Nat) (value : Int) : Option Nat :=
  if 0 ≤ value ∧ value ≤ maxValue then some value.toNat else none

theorem checkedCast_of_le {value : Nat} (h : value ≤ maxValue) : checkedCast maxValue value = some value :=
  if_pos h

theorem checkedAdd_of_le {a b : Nat} (h : a + b ≤ maxValue) : checkedAdd maxValue a b = some (a + b) :=
  if_pos h

theorem checkedMul_of_le {a b : Nat} (h : a * b ≤ maxValue) : checkedMul maxValue a b = some (a * b) :=
  if_pos h

theorem checkedSub_of_le {a b : Nat} (h : b ≤ a) : checkedSub a b = some (a - b) := if_pos h

theorem checkedAddI64_of_range {a b : Int} (h : -2 ^ 63 ≤ a + b ∧ a + b < 2 ^ 63) : checkedAddI64 a b = some (a + b) :=
  if_pos h

theorem checkedCastInt_of_range {value : Int} (h : 0 ≤ value ∧ value ≤ maxValue) :
    checkedCastInt maxValue value = some value.toNat := if_pos h

theorem foldlM_checkedAdd (maxValue init : Nat) (values : List Nat) (hinit : init ≤ maxValue) :
    values.foldlM (checkedAdd maxValue) init =
      if init + values.sum ≤ maxValue then some (init + values.sum) else none := by
  induction values generalizing init with
  | nil => simp [hinit]
  | cons value values ih =>
    rw [List.foldlM_cons, List.sum_cons, ← Nat.add_assoc, checkedAdd, checkedCast]
    split_ifs with hvalue htotal htotal
    · exact (ih _ hvalue).trans (if_pos htotal)
    · exact (ih _ hvalue).trans (if_neg htotal)
    · omega
    · rfl

theorem checkedSum_eq (maxValue : Nat) (values : List Nat) :
    checkedSum maxValue values = if values.sum ≤ maxValue then some values.sum else none := by
  rw [checkedSum, foldlM_checkedAdd _ _ _ (Nat.zero_le _), Nat.zero_add]

theorem checkedSum_of_le {values : List Nat} (h : values.sum ≤ maxValue) :
    checkedSum maxValue values = some values.sum := by
  rw [checkedSum_eq, if_pos h]

/-- **The rule for a checked loop**: an invariant under which each checked step computes the plain step. The
invariant may speak of what is left to loop over. -/
theorem foldlM_eq_some {α σ : Type} (P : List α → σ → Prop) {checkedStep : σ → α → Option σ} {step : σ → α → σ}
    {items : List α} {init : σ} (hinit : P items init)
    (hstep : ∀ a rest s, P (a :: rest) s → checkedStep s a = some (step s a) ∧ P rest (step s a)) :
    items.foldlM checkedStep init = some (items.foldl step init) ∧ P [] (items.foldl step init) := by
  induction items generalizing init with
  | nil => exact ⟨rfl, hinit⟩
  | cons a items ih =>
    obtain ⟨hchecked, hnext⟩ := hstep a items init hinit
    rw [List.foldlM_cons, hchecked]
    exact ih hnext

end Koshi.Base
