import Mathlib.Tactic
import Mathlib.Algebra.BigOperators.Group.Finset.Basic
import Mathlib.Algebra.Order.BigOperators.Group.Finset

/-!
# Handing out a total in order

A total handed out to places in the order of a key, each place taking what it can hold. The amounts are known by what
they are: none above its capacity, the total in sum, and nothing behind a place that is not full. When one place gives
up capacity and the places around it gain some, the amounts of the others can only grow, as long as that place held
anything.
-/

namespace Koshi.Base

open Finset

variable {ι κ : Type} [LinearOrder κ] (places : Finset ι) (key : ι → κ)

def placesBefore (place : ι) : Finset ι := places.filter fun other => key other < key place

/-- What reaches `place`. -/
def fill (capacity : ι → ℕ) (total : ℕ) (place : ι) : ℕ :=
  min (capacity place) (total - ∑ other ∈ placesBefore places key place, capacity other)

variable {places key}

theorem mem_placesBefore {place other : ι} :
    other ∈ placesBefore places key place ↔ other ∈ places ∧ key other < key place := by
  rw [placesBefore, mem_filter]

section

variable (hkey : Set.InjOn key places)
include hkey

theorem sum_placesBefore_add (amounts : ι → ℕ) {place : ι} (hplace : place ∈ places) :
    ∑ other ∈ placesBefore places key place, amounts other +
      (amounts place + ∑ other ∈ places.filter fun other => key place < key other, amounts other) =
      ∑ other ∈ places, amounts other := by
  have hnot : place ∉ places.filter fun other => key place < key other := by
    rw [mem_filter, not_and]
    exact fun _ => lt_irrefl _
  have hrest : places.filter (fun other => ¬key other < key place) =
      cons place (places.filter fun other => key place < key other) hnot := by
    ext other
    rw [mem_filter, mem_cons, mem_filter, not_lt]
    constructor
    · rintro ⟨hother, hle⟩
      obtain hlt | heq := lt_or_eq_of_le hle
      · exact .inr ⟨hother, hlt⟩
      · exact .inl (hkey hother hplace heq.symm)
    · rintro (rfl | ⟨hother, hlt⟩)
      · exact ⟨hplace, le_refl _⟩
      · exact ⟨hother, hlt.le⟩
  rw [← sum_filter_add_sum_filter_not places fun other => key other < key place, hrest, sum_cons, placesBefore]

/-- **The amounts by what they are.** -/
theorem fill_unique {capacity amounts : ι → ℕ} {total : ℕ} (hle : ∀ place ∈ places, amounts place ≤ capacity place)
    (hsum : ∑ place ∈ places, amounts place = total)
    (hbehind : ∀ place ∈ places, amounts place < capacity place → ∀ other ∈ places, key place < key other →
      amounts other = 0) {place : ι} (hplace : place ∈ places) :
    amounts place = fill places key capacity total place := by
  have hsplit := sum_placesBefore_add hkey amounts hplace
  rw [hsum] at hsplit
  have hbefore : ∑ other ∈ placesBefore places key place, amounts other ≤
      ∑ other ∈ placesBefore places key place, capacity other :=
    sum_le_sum fun other hother => hle other (mem_placesBefore.mp hother).1
  have hlast := hle place hplace
  rw [fill]
  by_cases hroom : ∃ other ∈ placesBefore places key place, amounts other < capacity other
  · obtain ⟨other, hother, hlt⟩ := hroom
    obtain ⟨hmem, hearlier⟩ := mem_placesBefore.mp hother
    have hstrict := sum_lt_sum (fun other hother => hle other (mem_placesBefore.mp hother).1) ⟨other, hother, hlt⟩
    have hzero := hbehind other hmem hlt place hplace hearlier
    have hafter : ∑ later ∈ places.filter (fun later => key place < key later), amounts later = 0 := by
      apply sum_eq_zero
      intro later hlater
      obtain ⟨hlaterMem, hlaterKey⟩ := mem_filter.mp hlater
      exact hbehind other hmem hlt later hlaterMem (hearlier.trans hlaterKey)
    omega
  · have hfull : ∑ other ∈ placesBefore places key place, amounts other =
        ∑ other ∈ placesBefore places key place, capacity other := by
      apply sum_congr rfl
      intro other hother
      by_contra hne
      exact hroom ⟨other, hother, lt_of_le_of_ne (hle other (mem_placesBefore.mp hother).1) hne⟩
    obtain hlt | heq := lt_or_eq_of_le hlast
    · have hafter : ∑ later ∈ places.filter (fun later => key place < key later), amounts later = 0 := by
        apply sum_eq_zero
        intro later hlater
        obtain ⟨hlaterMem, hlaterKey⟩ := mem_filter.mp hlater
        exact hbehind place hplace hlt later hlaterMem hlaterKey
      omega
    · omega

end

/-- What stands before an earlier place, and that place, stand before a later one. -/
theorem sum_placesBefore_add_le (capacity : ι → ℕ) {place later : ι} (hplace : place ∈ places)
    (hlater : key place < key later) :
    ∑ other ∈ placesBefore places key place, capacity other + capacity place ≤
      ∑ other ∈ placesBefore places key later, capacity other := by
  have hnot : place ∉ placesBefore places key place := by
    rw [mem_placesBefore, not_and]
    exact fun _ => lt_irrefl _
  rw [Nat.add_comm, ← sum_cons hnot]
  apply sum_le_sum_of_subset
  intro other hother
  rw [mem_cons] at hother
  obtain rfl | hother := hother
  · exact mem_placesBefore.mpr ⟨hplace, hlater⟩
  · obtain ⟨hmem, hearlier⟩ := mem_placesBefore.mp hother
    exact mem_placesBefore.mpr ⟨hmem, hearlier.trans hlater⟩

section Shift

variable {capacity next : ι → ℕ} {total : ℕ} {donor : ι}

/-- **The other places lose nothing** while the donor holds something. -/
theorem fill_le_fill_of_shift (hkey : Set.InjOn key places) (hdonor : donor ∈ places)
    (hgives : 0 < fill places key capacity total donor)
    (hraise : ∀ place ∈ places, place ≠ donor → capacity place ≤ next place)
    (hshift : ∀ place ∈ places, ∑ other ∈ placesBefore places key place, next other ≤
      ∑ other ∈ placesBefore places key place, capacity other + 1)
    (hlater : ∀ place ∈ places, key donor < key place → ∑ other ∈ placesBefore places key place, next other ≤
      ∑ other ∈ placesBefore places key place, capacity other ∨
      total ≤ ∑ other ∈ placesBefore places key place, capacity other)
    {place : ι} (hplace : place ∈ places) (hne : place ≠ donor) :
    fill places key capacity total place ≤ fill places key next total place := by
  have hcapacity := hraise place hplace hne
  unfold fill at hgives ⊢
  obtain hbefore | heq | hafter := lt_trichotomy (key place) (key donor)
  · -- a place before the donor is full, with a cell to spare before the total
    have hsum := sum_placesBefore_add_le capacity hplace hbefore
    have hmore := hshift place hplace
    omega
  · exact absurd (hkey hplace hdonor heq) hne
  · obtain hless | hnone := hlater place hplace hafter
    · omega
    · omega

theorem fill_donor_le (hdonor : capacity donor ≤ next donor + 1)
    (hshift : ∑ other ∈ placesBefore places key donor, next other ≤
      ∑ other ∈ placesBefore places key donor, capacity other + 1) :
    fill places key capacity total donor ≤ fill places key next total donor + 1 := by
  unfold fill
  omega

end Shift

section Surplus

variable {amounts next floors : ι → ℕ} {donor : ι}
    (hraise : ∀ place ∈ places, place ≠ donor → amounts place ≤ next place) (hdonor : amounts donor ≤ next donor + 1)
include hraise hdonor

/-- All but one of the amounts grew, and that one lost at most one. -/
theorem sum_le_sum_add_one {some : Finset ι} (hsome : some ⊆ places) :
    ∑ place ∈ some, amounts place ≤ ∑ place ∈ some, next place + 1 := by
  classical
  have hpoint : ∀ place ∈ some, amounts place ≤ next place + if place = donor then 1 else 0 := by
    intro place hplace
    by_cases heq : place = donor
    · rw [heq, if_pos rfl]
      exact hdonor
    · exact le_trans (hraise place (hsome hplace) heq) (Nat.le_add_right _ _)
  refine le_trans (sum_le_sum hpoint) ?_
  rw [sum_add_distrib, sum_ite_eq']
  split_ifs <;> omega

/-- **The surplus over the floors** grows by at most one in sum, and not where the donor is among the places. -/
theorem sum_tsub_le_of_shift (hsum : ∑ place ∈ places, amounts place = ∑ place ∈ places, next place)
    (habove : floors donor < amounts donor) (hmem : donor ∈ places) {some : Finset ι} (hsome : some ⊆ places) :
    ∑ place ∈ some, (next place - floors place) ≤ ∑ place ∈ some, (amounts place - floors place) + 1 ∧
      (donor ∈ some →
        ∑ place ∈ some, (next place - floors place) ≤ ∑ place ∈ some, (amounts place - floors place)) := by
  classical
  have hpoint : ∀ place ∈ some, next place - floors place + amounts place ≤
      amounts place - floors place + next place := by
    intro place hplace
    by_cases heq : place = donor
    · subst heq
      omega
    · have hle := hraise place (hsome hplace) heq
      omega
  have hmoved := sum_le_sum hpoint
  rw [sum_add_distrib, sum_add_distrib] at hmoved
  have hsplit := sum_sdiff (f := amounts) hsome
  have hsplitNext := sum_sdiff (f := next) hsome
  constructor
  · have hrest := sum_le_sum_add_one hraise hdonor (sdiff_subset (s := places) (t := some))
    omega
  · intro hdonorMem
    have hrest : ∑ place ∈ places \ some, amounts place ≤ ∑ place ∈ places \ some, next place := by
      apply sum_le_sum
      intro place hplace
      obtain ⟨hplaceMem, hnot⟩ := mem_sdiff.mp hplace
      refine hraise place hplaceMem ?_
      rintro rfl
      exact hnot hdonorMem
    omega

end Surplus

end Koshi.Base
