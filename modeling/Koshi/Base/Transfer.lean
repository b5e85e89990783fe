import Mathlib.Tactic
import Mathlib.Algebra.BigOperators.Intervals

/-!
# Amounts moved along a route

A pass over the places `0..n` that moves everything at a place onto the place its route names. The pass is linear,
keeps the total, and does not add to the sum of the magnitudes.
-/

namespace Koshi.Base

open Finset

/-- Everything at `source` moved onto `target`. -/
def transfer (source target : Nat) (amounts : Nat → Int) : Nat → Int :=
  fun place => amounts place + amounts source * ((if place = target then 1 else 0) - (if place = source then 1 else 0))

/-- One place of the pass: moved where its route leads, kept without one. -/
def transferStep (route : Nat → Option Nat) (amounts : Nat → Int) (source : Nat) : Nat → Int :=
  match route source with
  | none => amounts
  | some target => transfer source target amounts

/-- The pass over the places `0..n`. -/
def transferPass (route : Nat → Option Nat) (n : Nat) (amounts : Nat → Int) : Nat → Int :=
  (List.range n).foldl (transferStep route) amounts

section Route

variable {route : Nat → Option Nat}

@[simp] theorem transferPass_zero : transferPass route 0 amounts = amounts := rfl

theorem transferPass_succ (n : Nat) (amounts : Nat → Int) :
    transferPass route (n + 1) amounts = transferStep route (transferPass route n amounts) n := by
  rw [transferPass, List.range_succ, List.foldl_append]
  rfl

/-! ### The pass is linear -/

theorem transferStep_sub_smul (amounts others : Nat → Int) (scale : Int) (source : Nat) :
    transferStep route (amounts - scale • others) source =
      transferStep route amounts source - scale • transferStep route others source := by
  unfold transferStep
  cases route source with
  | none => rfl
  | some target =>
    funext place
    simp only [transfer, Pi.sub_apply, Pi.smul_apply, smul_eq_mul]
    ring

theorem transferPass_sub_smul (n : Nat) (amounts others : Nat → Int) (scale : Int) :
    transferPass route n (amounts - scale • others) =
      transferPass route n amounts - scale • transferPass route n others := by
  induction n with
  | zero => rfl
  | succ n ih => rw [transferPass_succ, transferPass_succ, transferPass_succ, ih, transferStep_sub_smul]

theorem transferStep_sub (amounts others : Nat → Int) (source : Nat) :
    transferStep route (amounts - others) source =
      transferStep route amounts source - transferStep route others source := by
  have h := @transferStep_sub_smul route amounts others 1 source
  rwa [one_smul, one_smul] at h

/-! ### Places below `n` -/

/-- A pass over the places below `n` reads no place beyond them. -/
theorem transferPass_congr {n k : Nat} {amounts others : Nat → Int} (h : ∀ place < n, amounts place = others place)
    (hk : k ≤ n) {place : Nat} (hplace : place < n) :
    transferPass route k amounts place = transferPass route k others place := by
  induction k generalizing place with
  | zero => exact h place hplace
  | succ k ih =>
    rw [transferPass_succ, transferPass_succ]
    unfold transferStep
    cases route k with
    | none => exact ih (by omega) hplace
    | some target =>
      dsimp only [transfer]
      rw [ih (by omega) hplace, ih (by omega) (by omega : k < n)]

/-! ### The total and the magnitudes -/

/-- The indicators of two places below `n` cancel in a sum. -/
theorem sum_indicators {n source target : Nat} (hsource : source < n) (htarget : target < n) :
    ∑ place ∈ range n, ((if place = target then (1 : Int) else 0) - (if place = source then 1 else 0)) = 0 := by
  rw [sum_sub_distrib, sum_ite_eq', sum_ite_eq', if_pos (mem_range.2 htarget), if_pos (mem_range.2 hsource), sub_self]

variable {n : Nat} (hroute : ∀ source target, route source = some target → target < n)

variable (amounts : Nat → Int)
include hroute

theorem sum_transferStep {source : Nat} (hsource : source < n) :
    ∑ place ∈ range n, transferStep route amounts source place = ∑ place ∈ range n, amounts place := by
  unfold transferStep
  cases htarget : route source with
  | none => rfl
  | some target =>
    simp only [transfer]
    rw [sum_add_distrib, ← mul_sum, sum_indicators hsource (hroute _ _ htarget), mul_zero, add_zero]

theorem sum_transferPass {k : Nat} (hk : k ≤ n) :
    ∑ place ∈ range n, transferPass route k amounts place = ∑ place ∈ range n, amounts place := by
  induction k with
  | zero => rfl
  | succ k ih => rw [transferPass_succ, sum_transferStep hroute _ (by omega), ih (by omega)]

theorem sum_abs_transferStep {source : Nat} (hsource : source < n) :
    ∑ place ∈ range n, |transferStep route amounts source place| ≤ ∑ place ∈ range n, |amounts place| := by
  unfold transferStep
  cases htarget : route source with
  | none => exact le_refl _
  | some target =>
    have hpoint : ∀ place, |transfer source target amounts place| ≤ |amounts place| + |amounts source| *
        ((if place = target then 1 else 0) - (if place = source then 1 else 0)) := by
      intro place
      unfold transfer
      have htriangle := abs_add_le (amounts place) (amounts source)
      split_ifs with h1 h2 h2
      · simp
      · simpa using htriangle
      · subst h2
        simp
      · simp
    refine le_trans (sum_le_sum fun place _ => hpoint place) (le_of_eq ?_)
    rw [sum_add_distrib, ← mul_sum, sum_indicators hsource (hroute _ _ htarget), mul_zero, add_zero]

theorem sum_abs_transferPass {k : Nat} (hk : k ≤ n) :
    ∑ place ∈ range n, |transferPass route k amounts place| ≤ ∑ place ∈ range n, |amounts place| := by
  induction k with
  | zero => exact le_refl _
  | succ k ih =>
    rw [transferPass_succ]
    exact le_trans (sum_abs_transferStep hroute _ (by omega)) (ih (by omega))

end Route

/-! ### One unit -/

/-- A unit at the last place stays until its own step and then goes where that place's route leads. -/
theorem transferPass_single (route : Nat → Option Nat) (last : Nat) :
    transferPass route (last + 1) (Pi.single last 1) =
      match route last with
      | none => Pi.single last 1
      | some target => transfer last target (Pi.single last 1) := by
  have hkept : ∀ k ≤ last, transferPass route k (Pi.single last (1 : Int)) = Pi.single last 1 := by
    intro k hk
    induction k with
    | zero => rfl
    | succ k ih =>
      have hnone : (Pi.single last 1 : Nat → Int) k = 0 := Pi.single_eq_of_ne (by omega) 1
      rw [transferPass_succ, ih (by omega), transferStep]
      cases route k with
      | none => rfl
      | some target =>
        funext place
        dsimp only
        rw [transfer, hnone, zero_mul, add_zero]
  rw [transferPass_succ, hkept last (le_refl last), transferStep]

end Koshi.Base
