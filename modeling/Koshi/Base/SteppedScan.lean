import Mathlib.Tactic

/-!
# Scanning a value that moves by steps while a supply lasts

A value that starts at zero and moves up by at most one a step, as long as a supply lasts; a supply that is gone stays
gone. A scan goes on until the value reaches a request or the supply is gone, and keeps the first step at which the
value stands where the scan stopped. What it selects does not depend on steps at which nothing changes, so a scan over
some of the steps can stand for the scan over all of them.
-/

namespace Koshi.Base

open List

/-- The value moves by no unit or by one while the supply lasts, and the supply never comes back. -/
structure StepsWhileSupplied (moved : ℕ → ℤ) (supply : ℕ → ℕ) : Prop where
  start : moved 0 = 0
  step : ∀ n, supply n ≠ 0 → moved n ≤ moved (n + 1) ∧ moved (n + 1) ≤ moved n + 1
  spent : ∀ n, supply n = 0 → supply (n + 1) = 0

/-- The scan stops here. -/
def IsScanStopped (moved : ℕ → ℤ) (supply : ℕ → ℕ) (request : ℤ) (n : ℕ) : Prop := request ≤ moved n ∨ supply n = 0

instance (moved : ℕ → ℤ) (supply : ℕ → ℕ) (request : ℤ) (n : ℕ) : Decidable (IsScanStopped moved supply request n) :=
  inferInstanceAs (Decidable (_ ∨ _))

/-- The scan over the steps `0..=bound`, one after the other: it stops at the first step that stops it, else at the
bound, and keeps the first step at which the value is where it stands at the stop. -/
def linearScan (moved : ℕ → ℤ) (supply : ℕ → ℕ) (request : ℤ) (bound : ℕ) : ℕ × ℤ :=
  let steps := range (bound + 1)
  let stop := (steps.find? fun n => decide (IsScanStopped moved supply request n)).getD bound
  ((steps.find? fun n => decide (moved stop ≤ moved n)).getD 0, moved stop)

/-- What a scan over the steps `0..=bound` selects. -/
def Selects (moved : ℕ → ℤ) (supply : ℕ → ℕ) (request : ℤ) (bound kept : ℕ) (amount : ℤ) : Prop :=
  ∃ stop ≤ bound, (∀ n < stop, ¬IsScanStopped moved supply request n) ∧
    (IsScanStopped moved supply request stop ∨ stop = bound) ∧ moved stop = amount ∧
    kept ≤ stop ∧ amount ≤ moved kept ∧ ∀ n < kept, moved n < amount

section Scan

variable {moved : ℕ → ℤ} {supply : ℕ → ℕ} {request : ℤ} {bound : ℕ}

theorem find?_range_eq_some {p : ℕ → Bool} {n k : ℕ} (h : (range n).find? p = some k) :
    k < n ∧ p k = true ∧ ∀ j < k, p j = false := by
  have hk := mem_range.1 (mem_of_find?_eq_some h)
  rw [List.find?_range_eq_some] at h
  refine ⟨hk, h.1, fun j hj => ?_⟩
  simpa using h.2.2 j hj

theorem selects_linearScan : Selects moved supply request bound (linearScan moved supply request bound).1
    (linearScan moved supply request bound).2 := by
  simp only [linearScan]
  generalize hstop : ((range (bound + 1)).find? fun n => decide (IsScanStopped moved supply request n)).getD bound =
    stop
  have hspec : stop ≤ bound ∧ (∀ n < stop, ¬IsScanStopped moved supply request n) ∧
      (IsScanStopped moved supply request stop ∨ stop = bound) := by
    cases hfind : (range (bound + 1)).find? fun n => decide (IsScanStopped moved supply request n) with
    | none =>
      rw [hfind] at hstop
      obtain rfl : bound = stop := hstop
      refine ⟨le_refl _, fun n hn => ?_, .inr rfl⟩
      have hnone := find?_eq_none.1 hfind n (mem_range.2 (by omega))
      simpa using hnone
    | some first =>
      rw [hfind] at hstop
      obtain rfl : first = stop := hstop
      obtain ⟨hlt, hfirst, hbefore⟩ := find?_range_eq_some hfind
      exact ⟨by omega, fun n hn => of_decide_eq_false (hbefore n hn), .inl (of_decide_eq_true hfirst)⟩
  obtain ⟨hle, hbefore, hend⟩ := hspec
  refine ⟨stop, hle, hbefore, hend, rfl, ?_⟩
  cases hfind : (range (bound + 1)).find? fun n => decide (moved stop ≤ moved n) with
  | none =>
    have hnone := find?_eq_none.1 hfind stop (mem_range.2 (by omega))
    simp at hnone
  | some first =>
    obtain ⟨hlt, hfirst, hfirstBefore⟩ := find?_range_eq_some hfind
    refine ⟨?_, of_decide_eq_true hfirst, fun n hn => lt_of_not_ge (of_decide_eq_false (hfirstBefore n hn))⟩
    by_contra hnot
    exact of_decide_eq_false (hfirstBefore stop (by simpa using hnot)) (le_refl _)

/-- **The selection is unique.** -/
theorem Selects.unique {kept otherKept : ℕ} {amount otherAmount : ℤ}
    (h : Selects moved supply request bound kept amount)
    (hother : Selects moved supply request bound otherKept otherAmount) : kept = otherKept ∧ amount = otherAmount := by
  obtain ⟨stop, hle, hbefore, hend, hamount, hkeptLe, hkept, hfirst⟩ := h
  obtain ⟨otherStop, hle', hbefore', hend', hamount', hkeptLe', hkept', hfirst'⟩ := hother
  have hstop : stop = otherStop := by
    obtain hlt | heq | hlt := Nat.lt_trichotomy stop otherStop
    · obtain hstopped | hbound := hend
      · exact absurd hstopped (hbefore' stop hlt)
      · omega
    · exact heq
    · obtain hstopped | hbound := hend'
      · exact absurd hstopped (hbefore otherStop hlt)
      · omega
  subst hstop
  obtain rfl : amount = otherAmount := hamount.symm.trans hamount'
  refine ⟨?_, rfl⟩
  obtain hlt | heq | hlt := Nat.lt_trichotomy kept otherKept
  · exact absurd hkept (not_le.2 (hfirst' kept hlt))
  · exact heq
  · exact absurd hkept' (not_le.2 (hfirst otherKept hlt))

end Scan

section Steps

variable {moved : ℕ → ℤ} {supply : ℕ → ℕ} (h : StepsWhileSupplied moved supply)

variable {n : ℕ}
include h

theorem StepsWhileSupplied.spent_of_le {m : ℕ} (hle : m ≤ n) (hspent : supply m = 0) : supply n = 0 := by
  induction n, hle using Nat.le_induction with
  | base => exact hspent
  | succ n _ ih => exact h.spent n ih

theorem StepsWhileSupplied.moved_le_moved {m : ℕ} (hle : m ≤ n) (hsupply : ∀ k < n, supply k ≠ 0) :
    moved m ≤ moved n := by
  induction n, hle using Nat.le_induction with
  | base => exact le_refl _
  | succ n hle ih =>
    exact (ih fun k hk => hsupply k (Nat.lt_succ_of_lt hk)).trans (h.step n (hsupply n n.lt_succ_self)).1

theorem StepsWhileSupplied.moved_le (hsupply : ∀ k < n, supply k ≠ 0) : moved n ≤ n := by
  induction n with
  | zero => exact h.start.le
  | succ n ih =>
    have hstep := (h.step n (hsupply n n.lt_succ_self)).2
    have hbefore := ih fun k hk => hsupply k (Nat.lt_succ_of_lt hk)
    push_cast
    omega

theorem StepsWhileSupplied.moved_nonneg (hsupply : ∀ k < n, supply k ≠ 0) : 0 ≤ moved n :=
  h.start ▸ h.moved_le_moved (Nat.zero_le n) hsupply

theorem StepsWhileSupplied.stopped_of_le {request : ℤ} {m : ℕ} (hle : m ≤ n)
    (hstopped : IsScanStopped moved supply request m) : IsScanStopped moved supply request n := by
  induction n, hle using Nat.le_induction with
  | base => exact hstopped
  | succ n _ ih =>
    by_cases hspent : supply n = 0
    · exact .inr (h.spent n hspent)
    · obtain hreached | hzero := ih
      · exact .inl (hreached.trans (h.step n hspent).1)
      · exact absurd hzero hspent

theorem StepsWhileSupplied.moved_le_request {request : ℤ} (hreq : 0 ≤ request)
    (hbefore : ∀ k < n, ¬IsScanStopped moved supply request k) : moved n ≤ request := by
  obtain _ | n := n
  · exact h.start.le.trans hreq
  · have hlast := not_or.1 (hbefore n n.lt_succ_self)
    have hstep := (h.step n hlast.2).2
    omega

/-- **What is selected is the most** that is moved at any step before which the supply lasts, or the whole request. -/
theorem StepsWhileSupplied.selected_most {request : ℤ} {bound kept : ℕ} {amount : ℤ}
    (hselects : Selects moved supply request bound kept amount) (hn : n ≤ bound) (hsupply : ∀ k < n, supply k ≠ 0) :
    request ≤ amount ∨ moved n ≤ amount := by
  obtain ⟨stop, -, hbefore, hend, hamount, -⟩ := hselects
  have hreach : n ≤ stop → moved n ≤ amount := fun hle =>
    hamount ▸ h.moved_le_moved hle fun k hk => (not_or.1 (hbefore k hk)).2
  obtain (hreached | hspent) | hbound := hend
  · exact .inl (hamount ▸ hreached)
  · refine .inr (hreach ?_)
    by_contra hnot
    exact hsupply stop (not_le.1 hnot) hspent
  · exact .inr (hreach (hbound ▸ hn))

end Steps

/-! ### Scanning some of the steps -/

/-- Some of the steps stand for all of them: between one and the next, and after the last, nothing changes. -/
structure Samples (moved : ℕ → ℤ) (supply : ℕ → ℕ) (sample : ℕ → ℕ) (count : ℕ) : Prop where
  start : sample 0 = 0
  strict : StrictMono sample
  stands : ∀ n, ∃ k ≤ count, sample k ≤ n ∧ (k < count → n < sample (k + 1)) ∧ moved n = moved (sample k) ∧
    supply n = supply (sample k)

section Samples

variable {moved : ℕ → ℤ} {supply : ℕ → ℕ} {sample : ℕ → ℕ} {count : ℕ}

/-- The samples of steps at which nothing else happens: a step that is no sample changes nothing. -/
theorem Samples.of_unchanged (hstart : sample 0 = 0) (hstrict : StrictMono sample)
    (hunchanged : ∀ n, (∀ k ≤ count, sample k ≠ n + 1) → moved (n + 1) = moved n ∧ supply (n + 1) = supply n) :
    Samples moved supply sample count := by
  refine ⟨hstart, hstrict, fun n => ?_⟩
  induction n with
  | zero =>
    refine ⟨0, Nat.zero_le _, hstart.le, fun _ => ?_, by rw [hstart], by rw [hstart]⟩
    have hlt := hstrict (Nat.lt_add_one 0)
    omega
  | succ n ih =>
    obtain ⟨k, hk, hlow, hnext, hmoved, hsupply⟩ := ih
    by_cases hsample : k < count ∧ sample (k + 1) = n + 1
    · obtain ⟨hlt, heq⟩ := hsample
      have hlater := hstrict (Nat.lt_add_one (k + 1))
      exact ⟨k + 1, hlt, heq.le, fun _ => by omega, by rw [heq], by rw [heq]⟩
    · have hnone : ∀ j ≤ count, sample j ≠ n + 1 := by
        intro j hj heq
        have hlt : k < j := hstrict.lt_iff_lt.1 (by omega)
        have hbefore := hnext (by omega)
        have hle := hstrict.le_iff_le.2 (Nat.succ_le_of_lt hlt)
        rw [Nat.succ_eq_add_one] at hle
        exact hsample ⟨by omega, by omega⟩
      obtain ⟨hsame, hsame'⟩ := hunchanged n hnone
      refine ⟨k, hk, by omega, fun hlt => ?_, hsame.trans hmoved, hsame'.trans hsupply⟩
      have hbefore := hnext hlt
      have hne := not_and.1 hsample hlt
      omega

variable (h : Samples moved supply sample count)
include h

/-- The step before a sample is stood for by the sample before it. -/
theorem Samples.pred_eq {n : ℕ} (hlt : n < count) :
    moved (sample (n + 1) - 1) = moved (sample n) ∧ supply (sample (n + 1) - 1) = supply (sample n) := by
  obtain ⟨k, hk, hlow, hnext, hmoved, hsupply⟩ := h.stands (sample (n + 1) - 1)
  have hpos := h.strict (Nat.lt_add_one n)
  have hle : k < n + 1 := h.strict.lt_iff_lt.1 (by omega)
  have hge : n ≤ k := by
    by_contra hnot
    have hbefore := hnext (by omega)
    have hmono := h.strict.le_iff_le.2 (by omega : k + 1 ≤ n)
    omega
  obtain rfl : k = n := by omega
  exact ⟨hmoved, hsupply⟩

/-- After the last sample nothing changes. -/
theorem Samples.after_eq {n : ℕ} (hle : sample count ≤ n) :
    moved n = moved (sample count) ∧ supply n = supply (sample count) := by
  obtain ⟨k, hk, -, hnext, hmoved, hsupply⟩ := h.stands n
  obtain hlt | rfl := Nat.lt_or_eq_of_le hk
  · have hbefore := hnext hlt
    have hmono := h.strict.le_iff_le.2 (Nat.succ_le_of_lt hlt)
    rw [Nat.succ_eq_add_one] at hmono
    omega
  · exact ⟨hmoved, hsupply⟩

/-- **The samples of a stepped value are stepped.** -/
theorem Samples.steps (hsteps : StepsWhileSupplied moved supply) :
    StepsWhileSupplied (moved ∘ sample) (supply ∘ sample) := by
  refine ⟨?_, fun n hsupply => ?_, fun n hspent => ?_⟩
  · rw [Function.comp_apply, h.start, hsteps.start]
  · simp only [Function.comp_apply] at hsupply ⊢
    by_cases hlt : n < count
    · obtain ⟨hmoved, hsame⟩ := h.pred_eq hlt
      have hpos := h.strict (Nat.lt_add_one n)
      have hstep := hsteps.step (sample (n + 1) - 1) (hsame ▸ hsupply)
      rw [hmoved, Nat.sub_add_cancel (by omega)] at hstep
      exact hstep
    · have hle : count ≤ n := not_lt.1 hlt
      rw [(h.after_eq (h.strict.le_iff_le.2 hle)).1, (h.after_eq (h.strict.le_iff_le.2 (by omega : count ≤ n + 1))).1]
      exact ⟨le_refl _, by omega⟩
  · exact hsteps.spent_of_le (h.strict (Nat.lt_add_one n)).le hspent

/-- **A selection among the samples is one among all the steps.** -/
theorem Samples.selects {bound kept : ℕ} {request amount : ℤ} (hbound : sample count ≤ bound)
    (hselects : Selects (moved ∘ sample) (supply ∘ sample) request count kept amount) :
    Selects moved supply request bound (sample kept) amount := by
  obtain ⟨stop, hle, hbefore, hend, hamount, hkeptLe, hkept, hfirst⟩ := hselects
  -- a step before the sample at `stop` is stood for by an earlier sample
  have hearlier : ∀ k ≤ count, ∀ n < sample k, ∃ j < k, moved n = moved (sample j) ∧ supply n = supply (sample j) := by
    intro k hk n hn
    obtain ⟨j, hj, hlow, -, hmoved, hsupply⟩ := h.stands n
    refine ⟨j, ?_, hmoved, hsupply⟩
    by_contra hnot
    have hmono := h.strict.le_iff_le.2 (not_lt.1 hnot)
    omega
  have hfirst' : ∀ n < sample kept, moved n < amount := by
    intro n hn
    obtain ⟨j, hj, hmoved, -⟩ := hearlier kept (by omega) n hn
    rw [hmoved]
    exact hfirst j hj
  by_cases hstopped : IsScanStopped (moved ∘ sample) (supply ∘ sample) request stop
  · refine ⟨sample stop, (h.strict.le_iff_le.2 hle).trans hbound, fun n hn => ?_, .inl hstopped, hamount,
      h.strict.le_iff_le.2 hkeptLe, hkept, hfirst'⟩
    obtain ⟨j, hj, hmoved, hsupply⟩ := hearlier stop hle n hn
    have hnot := hbefore j hj
    unfold IsScanStopped at hnot ⊢
    rw [hmoved, hsupply]
    exact hnot
  · obtain rfl : stop = count := hend.resolve_left hstopped
    have hnot : ∀ n, ¬IsScanStopped moved supply request n := by
      intro n
      obtain ⟨j, hj, -, -, hmoved, hsupply⟩ := h.stands n
      have hsample : ¬IsScanStopped (moved ∘ sample) (supply ∘ sample) request j := by
        obtain hlt | rfl := Nat.lt_or_eq_of_le hj
        · exact hbefore j hlt
        · exact hstopped
      unfold IsScanStopped at hsample ⊢
      rw [hmoved, hsupply]
      exact hsample
    have hlast := (h.after_eq hbound).1
    exact ⟨bound, le_refl _, fun n _ => hnot n, .inr rfl, hlast.trans hamount,
      (h.strict.le_iff_le.2 hkeptLe).trans hbound, hkept, hfirst'⟩

end Samples

end Koshi.Base
