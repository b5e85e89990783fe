import Mathlib.Tactic
import Mathlib.Data.List.Infix

/-!
# Prefixes in the lexicographic order

In the lexicographic order of lists the strict extensions of a list `s` stand directly after it: nothing that
does not open with `s` lies between `s` and one of them. A sorted map keyed by lists can so tell whether it holds
a strict extension of `s` from the one entry that follows `s`.
-/

namespace Koshi.Base

open Std List

section Lists

variable {α : Type} [Ord α]

theorem compare_cons_cons (x y : α) (xs ys : List α) :
    compare (x :: xs) (y :: ys) = (compare x y).then (compare xs ys) := by
  rw [List.compare_eq_compareLex, List.compareLex_cons_cons]

/-- A list stands before its strict extensions. -/
theorem compare_eq_lt_of_prefix [ReflOrd α] {shorter longer : List α} (h : shorter <+: longer)
    (hlen : shorter.length < longer.length) : compare shorter longer = .lt := by
  induction shorter generalizing longer with
  | nil =>
    cases longer with
    | nil => exact absurd hlen (lt_irrefl _)
    | cons y ys => rw [List.compare_eq_compareLex, List.compareLex_nil_cons]
  | cons x xs ih =>
    cases longer with
    | nil => exact absurd (prefix_nil.1 h) (cons_ne_nil _ _)
    | cons y ys =>
      obtain ⟨rfl, htail⟩ := cons_prefix_cons.1 h
      rw [compare_cons_cons, ReflOrd.compare_self, Ordering.eq_then]
      exact ih htail (by simpa using hlen)

/-- What stands between a list and one of its extensions opens with that list too. -/
theorem prefix_of_between [TransOrd α] [LawfulEqOrd α] {shorter middle longer : List α} (h : shorter <+: longer)
    (hafter : compare shorter middle = .lt) (hbefore : (compare middle longer).isLE) : shorter <+: middle := by
  induction shorter generalizing middle longer with
  | nil => exact nil_prefix
  | cons x xs ih =>
    cases longer with
    | nil => exact absurd (prefix_nil.1 h) (cons_ne_nil _ _)
    | cons z zs =>
      obtain ⟨rfl, htail⟩ := cons_prefix_cons.1 h
      cases middle with
      | nil => exact absurd hafter (by simp)
      | cons y ys =>
        rw [compare_cons_cons, Ordering.then_eq_lt] at hafter
        rw [compare_cons_cons, Ordering.isLE_then_iff_and] at hbefore
        rcases hafter with hlt | ⟨heq, hafter⟩
        · -- the first elements differ, so `middle` is past every list that opens with `x`
          have hgt : compare y x = .gt := OrientedCmp.gt_of_lt hlt
          rw [hgt] at hbefore
          exact absurd hbefore.1 (by decide)
        · obtain rfl := LawfulEqOrd.eq_of_compare heq
          rcases hbefore.2 with hlt | hbefore
          · rw [ReflOrd.compare_self] at hlt
            exact absurd hlt (by decide)
          · exact cons_prefix_cons.2 ⟨rfl, ih htail hafter hbefore⟩

end Lists

section Maps

variable {κ ν α : Type} [Ord κ] [TransOrd κ] [LawfulEqOrd κ] [Ord α] [TransOrd α] [LawfulEqOrd α]

/-- The entries of a map past `key`, in key order. -/
def rangeAfter (map : ExtTreeMap κ ν) (key : κ) : List (κ × ν) :=
  map.toList.filter fun entry => compare key entry.1 = .lt

theorem mem_rangeAfter {map : ExtTreeMap κ ν} {key : κ} {entry : κ × ν} :
    entry ∈ rangeAfter map key ↔ map[entry.1]? = some entry.2 ∧ compare key entry.1 = .lt := by
  rw [rangeAfter, mem_filter, decide_eq_true_eq]
  exact and_congr_left fun _ => ExtTreeMap.mem_toList_iff_getElem?_eq_some

/-- The first entry past `key` stands before every other one. -/
theorem isLE_of_head?_rangeAfter {map : ExtTreeMap κ ν} {key : κ} {first entry : κ × ν}
    (hfirst : (rangeAfter map key).head? = some first) (hentry : entry ∈ rangeAfter map key) :
    (compare first.1 entry.1).isLE := by
  have hsorted : (rangeAfter map key).Pairwise fun a b => compare a.1 b.1 = .lt :=
    ExtTreeMap.ordered_keys_toList.filter _
  obtain ⟨rest, hrange⟩ := List.head?_eq_some_iff.1 hfirst
  rw [hrange] at hsorted hentry
  rcases mem_cons.1 hentry with rfl | hmem
  · rw [ReflOrd.compare_self]
    rfl
  · rw [(pairwise_cons.1 hsorted).1 entry hmem]
    rfl

variable [DecidableEq α] (spelling : κ → List α)

/-- **The entry that follows `key` tells whether some key strictly extends it**, in a map sorted by the
spelling of its keys. -/
theorem head?_rangeAfter_iff
    (hcmp : ∀ first second : κ, compare first second = compare (spelling first) (spelling second))
    (map : ExtTreeMap κ ν) (key : κ) :
    ((rangeAfter map key).head?.any fun entry => (spelling key).isPrefixOf (spelling entry.1)) = true ↔
      ∃ longer, longer ∈ map ∧ spelling key <+: spelling longer ∧ (spelling key).length < (spelling longer).length := by
  constructor
  · intro h
    cases hfirst : (rangeAfter map key).head? with
    | none =>
      rw [hfirst] at h
      exact absurd h Bool.false_ne_true
    | some first =>
      rw [hfirst] at h
      obtain ⟨hvalue, hafter⟩ := mem_rangeAfter.1 (mem_of_head? hfirst)
      have hstart : spelling key <+: spelling first.1 := isPrefixOf_iff_prefix.1 h
      refine ⟨first.1, ExtTreeMap.mem_iff_isSome_getElem?.2 (by rw [hvalue]; rfl), hstart, ?_⟩
      -- a prefix of the same length would be the key itself, which does not follow itself
      refine Nat.lt_of_le_of_ne hstart.length_le fun hsame => ?_
      rw [hcmp, hstart.eq_of_length hsame, ReflOrd.compare_self] at hafter
      exact absurd hafter (by decide)
  · rintro ⟨longer, hlonger, hstart, hlen⟩
    obtain ⟨value, hvalue⟩ := Option.isSome_iff_exists.1 (ExtTreeMap.isSome_getElem?_iff_mem.2 hlonger)
    have hmem : (longer, value) ∈ rangeAfter map key := by
      refine mem_rangeAfter.2 ⟨hvalue, ?_⟩
      rw [hcmp]
      exact compare_eq_lt_of_prefix hstart hlen
    cases hfirst : (rangeAfter map key).head? with
    | none =>
      rw [List.head?_eq_none_iff.1 hfirst] at hmem
      exact absurd hmem not_mem_nil
    | some first =>
      have hafter := (mem_rangeAfter.1 (mem_of_head? hfirst)).2
      have hbefore := isLE_of_head?_rangeAfter hfirst hmem
      rw [hcmp] at hafter hbefore
      exact isPrefixOf_iff_prefix.2 (prefix_of_between hstart hafter hbefore)

end Maps

end Koshi.Base
