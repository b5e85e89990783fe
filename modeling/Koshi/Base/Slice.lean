import Mathlib.Data.List.DropRight
import Mathlib.Tactic

/-!
# Slices

A change to `items[start..stop]` of a list, and what it leaves alone.
-/

namespace Koshi.Base

open List

variable {α : Type}

variable {items : List α}

def sliceRange (items : List α) (start stop : Nat) : List α := (items.drop start).take (stop - start)

def updateRange (items : List α) (start stop : Nat) (change : List α → List α) : List α :=
  items.take start ++ change (sliceRange items start stop) ++ items.drop stop

def fillRange (items : List α) (start stop : Nat) (item : α) : List α :=
  updateRange items start stop fun slice => List.replicate slice.length item

variable {item : α}

section

variable {items : List α} {start stop : Nat} {change : List α → List α}

theorem length_sliceRange (h : stop ≤ items.length) : (sliceRange items start stop).length = stop - start := by
  rw [sliceRange, length_take, length_drop]
  omega

theorem mem_of_mem_sliceRange (h : item ∈ sliceRange items start stop) : item ∈ items :=
  mem_of_mem_drop (mem_of_mem_take h)

theorem mem_updateRange (h : item ∈ updateRange items start stop change) :
    item ∈ change (sliceRange items start stop) ∨ item ∈ items := by
  rw [updateRange, mem_append, mem_append] at h
  rcases h with (h | h) | h
  · exact .inr (mem_of_mem_take h)
  · exact .inl h
  · exact .inr (mem_of_mem_drop h)

section

variable (hle : start ≤ stop) (hstop : stop ≤ items.length)
  (hchange : (change (sliceRange items start stop)).length = (sliceRange items start stop).length)
include hle hstop hchange

theorem length_updateRange : (updateRange items start stop change).length = items.length := by
  rw [updateRange, length_append, length_append, hchange, length_sliceRange hstop, length_take, length_drop]
  omega

/-- What lies past the slice is as it was. -/
theorem drop_updateRange {count : Nat} (hcount : stop ≤ count) :
    (updateRange items start stop change).drop count = items.drop count := by
  have hlen : (items.take start ++ change (sliceRange items start stop)).length = stop := by
    rw [length_append, hchange, length_sliceRange hstop, length_take]
    omega
  rw [updateRange, drop_append, drop_eq_nil_of_le (by omega), nil_append, hlen, drop_drop, Nat.add_sub_cancel' hcount]

theorem getElem?_updateRange (index : Nat) :
    (updateRange items start stop change)[index]? =
      if start ≤ index ∧ index < stop then (change (sliceRange items start stop))[index - start]?
      else items[index]? := by
  have htake : (items.take start).length = start := by
    rw [length_take]
    omega
  have hslice : (change (sliceRange items start stop)).length = stop - start := by
    rw [hchange, length_sliceRange hstop]
  rw [updateRange]
  by_cases hbefore : index < start
  · rw [if_neg (by omega), append_assoc, List.getElem?_append_left (by omega), List.getElem?_take_of_lt hbefore]
  · by_cases hinside : index < stop
    · rw [if_pos ⟨Nat.le_of_not_lt hbefore, hinside⟩, List.getElem?_append_left (by rw [length_append]; omega),
        List.getElem?_append_right (by omega), htake]
    · rw [if_neg (by omega), List.getElem?_append_right (by rw [length_append]; omega), length_append, htake,
        hslice, List.getElem?_drop]
      congr 1
      omega

end

theorem length_fillRange (hle : start ≤ stop) (hstop : stop ≤ items.length) :
    (fillRange items start stop item).length = items.length :=
  length_updateRange hle hstop (length_replicate ..)

theorem mem_fillRange {item filled : α} (h : item ∈ fillRange items start stop filled) : item = filled ∨ item ∈ items :=
  (mem_updateRange h).imp_left fun h => eq_of_mem_replicate h

end

variable {P : α → Prop}

/-- What holds of every item, and of the change of an item of which it holds, holds after the change of one item. -/
theorem forall_mem_modify {index : Nat} {change : α → α} (h : ∀ item ∈ items, P item)
    (hchange : ∀ item, P item → P (change item)) : ∀ item ∈ items.modify index change, P item := by
  intro item hitem
  obtain ⟨place, hplace, rfl⟩ := getElem_of_mem hitem
  rw [getElem_modify]
  split_ifs
  · exact hchange _ (h _ (getElem_mem _))
  · exact h _ (getElem_mem _)

theorem forall_mem_updateRange {start stop : Nat} {change : List α → List α} (h : ∀ item ∈ items, P item)
    (hchange : ∀ slice, (∀ item ∈ slice, P item) → ∀ item ∈ change slice, P item) :
    ∀ item ∈ updateRange items start stop change, P item := by
  intro item hitem
  rcases mem_updateRange hitem with hitem | hitem
  · exact hchange _ (fun other hother => h other (mem_of_mem_sliceRange hother)) item hitem
  · exact h item hitem

theorem mem_drop_iff {count : Nat} : item ∈ items.drop count ↔ ∃ index, count ≤ index ∧ items[index]? = some item := by
  rw [mem_iff_getElem?]
  simp only [List.getElem?_drop]
  constructor
  · rintro ⟨offset, hoffset⟩
    exact ⟨count + offset, Nat.le_add_right .., hoffset⟩
  · rintro ⟨index, hidx, hitem⟩
    exact ⟨index - count, by rwa [Nat.add_sub_cancel' hidx]⟩

theorem getElem?_fillRange {start stop : Nat} (hle : start ≤ stop) (hstop : stop ≤ items.length) (filled : α)
    (index : Nat) : (fillRange items start stop filled)[index]? =
      if start ≤ index ∧ index < stop then some filled else items[index]? := by
  rw [fillRange, getElem?_updateRange hle hstop (length_replicate ..), length_sliceRange hstop]
  split_ifs with hinside
  · rw [List.getElem?_replicate, if_pos (by omega)]
  · rfl

theorem forall_mem_set {index : Nat} {changed : α} (h : ∀ item ∈ items, P item) (hchanged : P changed) :
    ∀ item ∈ items.set index changed, P item := by
  intro item hitem
  rcases mem_or_eq_of_mem_set hitem with hitem | rfl
  · exact h item hitem
  · exact hchanged

/-! ### Trailing items -/

theorem rdropWhile_append_of_all {p : α → Bool} (items : List α) {trailing : List α}
    (h : ∀ item ∈ trailing, p item = true) : (items ++ trailing).rdropWhile p = items.rdropWhile p := by
  rw [List.rdropWhile, reverse_append, dropWhile_append_of_pos (by simpa using h), List.rdropWhile]

theorem rdropWhile_cons (p : α → Bool) (item : α) (items : List α) :
    (item :: items).rdropWhile p =
      if items.rdropWhile p = [] ∧ p item = true then [] else item :: items.rdropWhile p := by
  induction items using List.reverseRecOn with
  | nil =>
    rw [rdropWhile_singleton]
    simp
  | append_singleton items last ih =>
    rw [← cons_append, rdropWhile_concat, rdropWhile_concat, ih]
    by_cases hlast : p last = true
    · rw [if_pos hlast, if_pos hlast]
    · rw [if_neg hlast, if_neg hlast, if_neg (by simp), cons_append]

end Koshi.Base
