import Mathlib.Tactic
import Mathlib.Algebra.BigOperators.Group.List.Basic

/-!
# Loops over lists

Invariant rules for a loop written as a left fold, and the arithmetic of a list of counters of which one
entry is changed.
-/

namespace Koshi.Base

open List

variable {α σ : Type}

variable (l : List Nat)

/-- What holds initially and is kept by every step holds after the loop. -/
theorem foldl_keeps (P : σ → Prop) {f : σ → α → σ} {items : List α} {init : σ} (hinit : P init)
    (hstep : ∀ s, P s → ∀ a ∈ items, P (f s a)) : P (items.foldl f init) := by
  induction items generalizing init with
  | nil => exact hinit
  | cons a items ih =>
    exact ih (hstep init hinit a mem_cons_self) fun s hs b hb => hstep s hs b (mem_cons_of_mem a hb)

/-- An invariant that counts the steps of a loop over `0..n`. -/
theorem foldl_range_keeps (P : Nat → σ → Prop) {f : σ → Nat → σ} {n : Nat} {init : σ} (hinit : P 0 init)
    (hstep : ∀ i s, i < n → P i s → P (i + 1) (f s i)) : P n ((List.range n).foldl f init) := by
  induction n with
  | zero => exact hinit
  | succ n ih =>
    rw [range_succ, List.foldl_append]
    exact hstep n _ n.lt_succ_self (ih fun i s hi => hstep i s (Nat.lt_succ_of_lt hi))

/-- A fact that the step at `a` establishes and no later step destroys holds after the loop. -/
theorem foldl_visits (P Q : σ → Prop) {f : σ → α → σ} {items : List α} {init : σ} {a : α} (ha : a ∈ items)
    (hinit : P init) (hkeep : ∀ s, P s → ∀ b ∈ items, P (f s b)) (hvisit : ∀ s, P s → Q (f s a))
    (hstable : ∀ s, P s → Q s → ∀ b ∈ items, Q (f s b)) : Q (items.foldl f init) := by
  induction items generalizing init with
  | nil => exact absurd ha not_mem_nil
  | cons b items ih =>
    have htail : ∀ c ∈ items, c ∈ b :: items := fun c hc => mem_cons_of_mem b hc
    rcases mem_cons.1 ha with rfl | ha
    · exact (foldl_keeps (fun s => P s ∧ Q s) ⟨hkeep init hinit a ha, hvisit init hinit⟩
        fun s hs c hc => ⟨hkeep s hs.1 c (htail c hc), hstable s hs.1 hs.2 c (htail c hc)⟩).2
    · exact ih ha (hkeep init hinit b mem_cons_self) (fun s hs c hc => hkeep s hs c (htail c hc))
        fun s hs hq c hc => hstable s hs hq c (htail c hc)

/-! ### Counters -/

theorem getD_of_length_le {l : List Nat} {i : Nat} (h : l.length ≤ i) : l.getD i 0 = 0 := by
  rw [getD_eq_getElem?_getD, List.getElem?_eq_none h]
  rfl

theorem getD_modify (f : Nat → Nat) (i j : Nat) (hi : i < l.length) :
    (l.modify i f).getD j 0 = if j = i then f (l.getD i 0) else l.getD j 0 := by
  rw [getD_eq_getElem?_getD, getD_eq_getElem?_getD, getD_eq_getElem?_getD, List.getElem?_modify]
  by_cases h : i = j
  · subst h
    simp [hi]
  · simp [h, Ne.symm h]

theorem sum_modify (f : Nat → Nat) (i : Nat) (hi : i < l.length) :
    (l.modify i f).sum + l.getD i 0 = l.sum + f (l.getD i 0) := by
  induction l generalizing i with
  | nil => simp at hi
  | cons a l ih =>
    cases i with
    | zero => simp; omega
    | succ i =>
      have := ih i (by simpa using hi)
      simp only [modify_succ_cons, sum_cons, getD_cons_succ] at this ⊢
      omega

theorem getD_le_sum (i : Nat) : l.getD i 0 ≤ l.sum := by
  induction l generalizing i with
  | nil => simp
  | cons a l ih =>
    cases i with
    | zero => simp
    | succ i =>
      have := ih i
      simp only [getD_cons_succ, sum_cons]
      omega

/-- Two different entries together stay below the sum. -/
theorem getD_add_getD_le_sum (i j : Nat) (hij : i ≠ j) : l.getD i 0 + l.getD j 0 ≤ l.sum := by
  induction l generalizing i j with
  | nil => simp
  | cons a l ih =>
    cases i with
    | zero =>
      cases j with
      | zero => exact absurd rfl hij
      | succ j =>
        have := getD_le_sum l j
        simp only [getD_cons_zero, getD_cons_succ, sum_cons]
        omega
    | succ i =>
      cases j with
      | zero =>
        have := getD_le_sum l i
        simp only [getD_cons_zero, getD_cons_succ, sum_cons]
        omega
      | succ j =>
        have := ih i j (by omega)
        simp only [getD_cons_succ, sum_cons]
        omega

theorem sum_le_sum_of_getD_le (l m : List Nat) (hlen : l.length = m.length)
    (h : ∀ j, l.getD j 0 ≤ m.getD j 0) : l.sum ≤ m.sum := by
  induction l generalizing m with
  | nil => simp
  | cons a l ih =>
    cases m with
    | nil => simp at hlen
    | cons b m =>
      have h0 := h 0
      have := ih m (by simpa using hlen) fun j => by simpa using h (j + 1)
      simp only [getD_cons_zero, sum_cons] at h0 ⊢
      omega

/-- Entrywise below except at `k`: the sums differ by at most what entry `k` allows. -/
theorem sum_add_getD_le (l m : List Nat) (k : Nat) (hlen : l.length = m.length)
    (h : ∀ j, j ≠ k → l.getD j 0 ≤ m.getD j 0) : l.sum + m.getD k 0 ≤ m.sum + l.getD k 0 := by
  induction l generalizing m k with
  | nil =>
    obtain rfl := eq_nil_of_length_eq_zero hlen.symm
    exact Nat.le_refl _
  | cons a l ih =>
    cases m with
    | nil => simp at hlen
    | cons b m =>
      have hlen : l.length = m.length := by simpa using hlen
      cases k with
      | zero =>
        have := sum_le_sum_of_getD_le l m hlen fun j => by simpa using h (j + 1) (by omega)
        simp only [getD_cons_zero, sum_cons]
        omega
      | succ k =>
        have h0 := h 0 (by omega)
        have := ih m k hlen fun j hj => by simpa using h (j + 1) (by omega)
        simp only [getD_cons_zero, getD_cons_succ, sum_cons] at h0 ⊢
        omega

end Koshi.Base
