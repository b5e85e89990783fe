import Mathlib.Tactic
import Mathlib.Data.List.Nodup
import Mathlib.Data.List.Perm.Basic

/-!
# Ordered finite maps

A map whose iteration runs in key order, as a `BTreeMap` iterates: a list of entries with strictly rising
keys. Every operation is described by what it does to `get?`; two maps with the same `get?` are equal.
-/

namespace Koshi.Base

open List Option

/-- Keys with an injective rank, by which the entries of a map are ordered. -/
class Key (κ : Type) where
  rank : κ → Nat
  rank_injective : Function.Injective rank

/-- A finite map: entries in strictly rising key order. -/
structure OrdMap (κ ν : Type) [Key κ] where
  entries : List (κ × ν)
  sorted : entries.Pairwise fun first second => Key.rank first.1 < Key.rank second.1

namespace OrdMap

variable {κ ν ω : Type} [Key κ] [DecidableEq κ]

variable {key : κ} {value : ν} {entries : List (κ × ν)} (map : OrdMap κ ν)

instance [DecidableEq ν] : DecidableEq (OrdMap κ ν) := fun first second =>
  decidable_of_iff (first.entries = second.entries) (by
    obtain ⟨_, _⟩ := first
    obtain ⟨_, _⟩ := second
    simp)

/-- The map with no entry. -/
def empty : OrdMap κ ν := ⟨[], List.Pairwise.nil⟩

/-- The value of the first entry under `key`. -/
def lookupEntry (key : κ) : List (κ × ν) → Option ν
  | [] => none
  | entry :: entries => if entry.1 = key then some entry.2 else lookupEntry key entries

def get? (map : OrdMap κ ν) (key : κ) : Option ν := lookupEntry key map.entries

/-- Whether the map holds `key`. -/
def contains (map : OrdMap κ ν) (key : κ) : Bool := (map.get? key).isSome

/-- The values in key order. -/
def values (map : OrdMap κ ν) : List ν := map.entries.map (·.2)

def keys (map : OrdMap κ ν) : List κ := map.entries.map (·.1)

/-- The number of entries. -/
def size (map : OrdMap κ ν) : Nat := map.entries.length

/-- Puts `(key, value)` at its place, in place of an entry under `key`. -/
def insertEntry (key : κ) (value : ν) : List (κ × ν) → List (κ × ν)
  | [] => [(key, value)]
  | entry :: entries =>
    if Key.rank key < Key.rank entry.1 then (key, value) :: entry :: entries
    else if entry.1 = key then (key, value) :: entries
    else entry :: insertEntry key value entries

theorem mem_insertEntry {entry : κ × ν}
    (h : entry ∈ insertEntry key value entries) : entry = (key, value) ∨ entry ∈ entries := by
  induction entries with
  | nil => exact Or.inl (mem_singleton.1 h)
  | cons head entries ih =>
    rw [insertEntry] at h
    split_ifs at h with hlt heq
    · exact mem_cons.1 h
    · rcases mem_cons.1 h with h | h
      · exact Or.inl h
      · exact Or.inr (mem_cons_of_mem _ h)
    · rcases mem_cons.1 h with h | h
      · exact Or.inr (h ▸ mem_cons_self)
      · exact (ih h).imp_right (mem_cons_of_mem _)

theorem insertEntry_sorted (key : κ) (value : ν)
    (h : entries.Pairwise fun first second => Key.rank first.1 < Key.rank second.1) :
    (insertEntry key value entries).Pairwise fun first second => Key.rank first.1 < Key.rank second.1 := by
  induction entries with
  | nil => exact pairwise_singleton _ _
  | cons head entries ih =>
    obtain ⟨hhead, htail⟩ := pairwise_cons.1 h
    rw [insertEntry]
    split_ifs with hlt heq
    · refine pairwise_cons.2 ⟨fun entry hmem => ?_, h⟩
      rcases mem_cons.1 hmem with rfl | hmem
      · exact hlt
      · exact hlt.trans (hhead entry hmem)
    · refine pairwise_cons.2 ⟨fun entry hmem => ?_, htail⟩
      rw [← heq]
      exact hhead entry hmem
    · refine pairwise_cons.2 ⟨fun entry hmem => ?_, ih htail⟩
      rcases mem_insertEntry hmem with rfl | hmem
      · have hne : Key.rank head.1 ≠ Key.rank key := fun hrank => heq (Key.rank_injective hrank)
        simp only
        omega
      · exact hhead entry hmem

def insert (map : OrdMap κ ν) (key : κ) (value : ν) : OrdMap κ ν :=
  ⟨insertEntry key value map.entries, insertEntry_sorted key value map.sorted⟩

/-- Keeps the entries that satisfy `keeps`. -/
def filter (map : OrdMap κ ν) (keeps : κ → ν → Bool) : OrdMap κ ν :=
  ⟨map.entries.filter fun entry => keeps entry.1 entry.2, map.sorted.filter _⟩

def erase (map : OrdMap κ ν) (key : κ) : OrdMap κ ν := map.filter fun key' _ => key' ≠ key

/-- Rewrites every value. -/
def mapValues (map : OrdMap κ ν) (f : κ → ν → ω) : OrdMap κ ω :=
  ⟨map.entries.map fun entry => (entry.1, f entry.1 entry.2), by
    rw [pairwise_map]
    exact map.sorted⟩

/-- Rewrites the value under `key`. -/
def modify (map : OrdMap κ ν) (key : κ) (f : ν → ν) : OrdMap κ ν :=
  map.mapValues fun key' value => if key' = key then f value else value

/-! ### What an operation does to `get?` -/

@[simp] theorem get?_empty (key : κ) : (empty : OrdMap κ ν).get? key = none := rfl

omit [Key κ] in
theorem lookupEntry_eq_some (h : lookupEntry key entries = some value) : (key, value) ∈ entries := by
  induction entries with
  | nil => exact absurd h (by simp [lookupEntry])
  | cons entry entries ih =>
    rw [lookupEntry] at h
    split_ifs at h with heq
    · obtain ⟨_, _⟩ := entry
      cases h
      cases heq
      exact mem_cons_self
    · exact mem_cons_of_mem _ (ih h)

theorem lookupEntry_of_mem (hsorted : entries.Pairwise fun first second => Key.rank first.1 < Key.rank second.1)
    (h : (key, value) ∈ entries) : lookupEntry key entries = some value := by
  induction entries with
  | nil => exact absurd h not_mem_nil
  | cons entry entries ih =>
    obtain ⟨hhead, htail⟩ := pairwise_cons.1 hsorted
    rw [lookupEntry]
    rcases mem_cons.1 h with rfl | h
    · rw [if_pos rfl]
    · rw [if_neg, ih htail h]
      intro heq
      have := hhead _ h
      rw [heq] at this
      exact lt_irrefl _ this

theorem mem_entries_iff (key : κ) (value : ν) : (key, value) ∈ map.entries ↔ map.get? key = some value :=
  ⟨lookupEntry_of_mem map.sorted, lookupEntry_eq_some⟩

theorem mem_values_iff (value : ν) : value ∈ map.values ↔ ∃ key, map.get? key = some value := by
  simp only [values, List.mem_map, Prod.exists, exists_eq_right, mem_entries_iff]

omit [DecidableEq κ] in
theorem nodup_keys : map.keys.Nodup := by
  rw [keys, List.Nodup, pairwise_map]
  refine map.sorted.imp fun hlt heq => ?_
  rw [heq] at hlt
  exact lt_irrefl _ hlt

theorem lookupEntry_insertEntry (key key' : κ) (value : ν) (entries : List (κ × ν)) :
    lookupEntry key' (insertEntry key value entries) = if key' = key then some value else lookupEntry key' entries := by
  induction entries with
  | nil => simp [insertEntry, lookupEntry, eq_comm]
  | cons entry entries ih =>
    rw [insertEntry]
    by_cases hother : key' = key
    · rw [if_pos hother]
      split_ifs with hlt heq
      · rw [lookupEntry, if_pos hother.symm]
      · rw [lookupEntry, if_pos hother.symm]
      · rw [lookupEntry, if_neg fun h => heq (h.trans hother), ih, if_pos hother]
    · rw [if_neg hother]
      split_ifs with hlt heq
      · rw [lookupEntry, if_neg (Ne.symm hother)]
      · rw [lookupEntry, lookupEntry, if_neg (Ne.symm hother), if_neg fun h => hother (h.symm.trans heq)]
      · rw [lookupEntry, lookupEntry, ih, if_neg hother]

@[simp] theorem get?_insert (key key' : κ) (value : ν) :
    (map.insert key value).get? key' = if key' = key then some value else map.get? key' :=
  lookupEntry_insertEntry key key' value map.entries

theorem get?_filter (keeps : κ → ν → Bool) (key : κ) :
    (map.filter keeps).get? key = (map.get? key).filter (keeps key) := by
  ext value
  rw [← mem_entries_iff, filter, mem_filter, mem_entries_iff, filter_eq_some_iff]

@[simp] theorem get?_erase (key key' : κ) : (map.erase key).get? key' = if key' = key then none else map.get? key' := by
  rw [erase, get?_filter]
  split_ifs with h <;> cases map.get? key' <;> simp [h]

@[simp] theorem get?_mapValues (f : κ → ν → ω) (key : κ) : (map.mapValues f).get? key = (map.get? key).map (f key) := by
  unfold get? mapValues
  simp only
  generalize map.entries = entries
  induction entries with
  | nil => rfl
  | cons entry entries ih =>
    rw [map_cons, lookupEntry, lookupEntry]
    split_ifs with h
    · rw [← h]
      rfl
    · exact ih

@[simp] theorem get?_modify (key key' : κ) (f : ν → ν) :
    (map.modify key f).get? key' = if key' = key then (map.get? key).map f else map.get? key' := by
  rw [modify, get?_mapValues]
  split_ifs with h
  · rw [h]
  · exact Option.map_id'

@[simp] theorem contains_eq_true_iff (key : κ) :
    map.contains key = true ↔ ∃ value, map.get? key = some value := isSome_iff_exists

theorem contains_eq_false_iff (key : κ) : map.contains key = false ↔ map.get? key = none := by
  simp [contains]

/-! ### Maps as lists -/

theorem size_eq_zero_iff : map.size = 0 ↔ ∀ key, map.get? key = none := by
  constructor
  · intro h key
    rw [get?, length_eq_zero_iff.1 h]
    rfl
  · intro h
    refine length_eq_zero_iff.2 (eq_nil_iff_forall_not_mem.2 fun entry hmem => ?_)
    have := (mem_entries_iff map entry.1 entry.2).1 hmem
    rw [h] at this
    exact some_ne_none _ this.symm

/-- Inserting a new key adds one entry. -/
theorem perm_insert (value : ν) (h : map.get? key = none) :
    (map.insert key value).entries.Perm ((key, value) :: map.entries) := by
  obtain ⟨entries, hsorted⟩ := map
  simp only [get?] at h
  simp only [insert]
  clear hsorted
  induction entries with
  | nil => exact List.Perm.refl _
  | cons entry entries ih =>
    rw [lookupEntry] at h
    split_ifs at h with heq
    rw [insertEntry, if_neg heq]
    split_ifs
    · exact List.Perm.refl _
    · exact ((ih h).cons entry).trans (List.Perm.swap ..)

/-- The entries are the erased one and the rest. -/
theorem perm_erase (h : map.get? key = some value) : map.entries.Perm ((key, value) :: (map.erase key).entries) := by
  have hnodup : map.entries.Nodup := List.Nodup.of_map _ map.nodup_keys
  refine (perm_ext_iff_of_nodup hnodup (nodup_cons.2 ⟨fun hmem => ?_, ?_⟩)).2 fun entry => ?_
  · exact absurd (mem_filter.1 hmem).2 (by simp)
  · exact hnodup.filter _
  · obtain ⟨key', otherValue⟩ := entry
    rw [mem_cons, mem_entries_iff, mem_entries_iff, get?_erase, Prod.mk.injEq]
    constructor
    · intro hother
      by_cases hkey : key' = key
      · refine Or.inl ⟨hkey, ?_⟩
        rw [hkey, h] at hother
        exact (Option.some.inj hother).symm
      · exact Or.inr (by rwa [if_neg hkey])
    · rintro (⟨rfl, rfl⟩ | hother)
      · exact h
      · split_ifs at hother
        exact hother

theorem size_erase (h : map.get? key = some value) :
    (map.erase key).size + 1 = map.size := (map.perm_erase h).length_eq.symm

/-- Two maps that find the same values are equal. -/
theorem ext_get? {first second : OrdMap κ ν} (h : ∀ key, first.get? key = second.get? key) : first = second := by
  have hperm : first.entries.Perm second.entries := by
    refine (perm_ext_iff_of_nodup (List.Nodup.of_map _ first.nodup_keys)
      (List.Nodup.of_map _ second.nodup_keys)).2 fun entry => ?_
    obtain ⟨key, value⟩ := entry
    rw [mem_entries_iff, mem_entries_iff, h]
  have heq := hperm.eq_of_pairwise (fun _ _ _ _ hlt hgt => absurd (hlt.trans hgt) (lt_irrefl _))
    first.sorted second.sorted
  obtain ⟨_, _⟩ := first
  obtain ⟨_, _⟩ := second
  simpa using heq

/-! ### Grouping -/

/-- Appends `value` to the values under `key`, as `entry(key).or_default().push(value)` does. -/
def push (map : OrdMap κ (List ν)) (key : κ) (value : ν) : OrdMap κ (List ν) :=
  map.insert key ((map.get? key).getD [] ++ [value])

/-- The values of each key, in the order they are listed. -/
def groupEntries (entries : List (κ × ν)) : OrdMap κ (List ν) :=
  entries.foldl (fun map entry => map.push entry.1 entry.2) empty

theorem getD_get?_push (map : OrdMap κ (List ν)) (key key' : κ) (value : ν) :
    ((map.push key value).get? key').getD [] = (map.get? key').getD [] ++ if key = key' then [value] else [] := by
  rw [push, get?_insert]
  by_cases h : key' = key
  · rw [if_pos h, if_pos h.symm, h]
    rfl
  · rw [if_neg h, if_neg (Ne.symm h), append_nil]

theorem getD_get?_groupEntries (entries : List (κ × ν)) (key : κ) :
    ((groupEntries entries).get? key).getD [] = (entries.filter (·.1 = key)).map (·.2) := by
  have hfold : ∀ (entries : List (κ × ν)) (map : OrdMap κ (List ν)),
      ((entries.foldl (fun map entry => map.push entry.1 entry.2) map).get? key).getD [] =
        (map.get? key).getD [] ++ (entries.filter (·.1 = key)).map (·.2) := by
    intro entries
    induction entries with
    | nil => simp
    | cons entry entries ih =>
      intro map
      rw [foldl_cons, ih, getD_get?_push, filter_cons]
      by_cases h : entry.1 = key <;> simp [h]
  exact hfold entries empty

theorem contains_groupEntries (entries : List (κ × ν)) (key : κ) :
    (groupEntries entries).contains key = true ↔ key ∈ entries.map (·.1) := by
  have hfold : ∀ (entries : List (κ × ν)) (map : OrdMap κ (List ν)),
      (entries.foldl (fun map entry => map.push entry.1 entry.2) map).contains key = true ↔
        map.contains key = true ∨ key ∈ entries.map (·.1) := by
    intro entries
    induction entries with
    | nil => simp
    | cons entry entries ih =>
      intro map
      rw [foldl_cons, ih, map_cons, mem_cons, contains, push, get?_insert]
      by_cases h : key = entry.1 <;> simp [h, contains]
  exact (hfold entries empty).trans (by simp [contains])

/-- No key is listed twice exactly when every group has at most one value. -/
theorem nodup_iff_groupEntries (entries : List (κ × ν)) :
    (entries.map (·.1)).Nodup ↔ ∀ group ∈ (groupEntries entries).entries, group.2.length ≤ 1 := by
  have hcount : ∀ key, ((groupEntries entries).get? key |>.getD []).length = (entries.map (·.1)).count key := by
    intro key
    rw [getD_get?_groupEntries, length_map, List.count, countP_map, countP_eq_length_filter]
    congr 2
  rw [nodup_iff_count_le_one]
  constructor
  · intro h group hgroup
    have hget := (mem_entries_iff _ group.1 group.2).1 hgroup
    have hlen := hcount group.1
    rw [hget] at hlen
    exact (le_of_eq hlen).trans (h group.1)
  · intro h key
    rw [← hcount key]
    cases hget : (groupEntries entries).get? key with
    | none => exact Nat.zero_le 1
    | some values => exact h (key, values) ((mem_entries_iff _ key values).2 hget)

end OrdMap

/-- Natural numbers are their own rank. -/
instance : Key Nat := ⟨id, Function.injective_id⟩

end Koshi.Base
