import Mathlib.Tactic

/-!
# Loops over keyed entries

A loop over the entries of a map, watched at one key: where every step leaves what is watched alone unless the
entry is under that key, the loop does what the step does at the one entry there is, or nothing.
-/

namespace Koshi.Base

open Std List Option

variable {ω ε : Type}

theorem foldl_eq_self {step : ω → ε → ω} {entries : List ε} (h : ∀ entry ∈ entries, ∀ w, step w entry = w) (w : ω) :
    entries.foldl step w = w := by
  induction entries with
  | nil => rfl
  | cons entry entries ih =>
    rw [foldl_cons, h entry mem_cons_self]
    exact ih fun other hother => h other (mem_cons_of_mem _ hother)

theorem foldl_eq_step {step : ω → ε → ω} {before after : List ε} {entry : ε}
    (hbefore : ∀ other ∈ before, ∀ w, step w other = w) (hafter : ∀ other ∈ after, ∀ w, step w other = w) (w : ω) :
    (before ++ entry :: after).foldl step w = step w entry := by
  rw [List.foldl_append, foldl_eq_self hbefore, foldl_cons, foldl_eq_self hafter]

section Maps

variable {κ ν : Type} [Ord κ] [TransOrd κ] [LawfulEqOrd κ]

/-- The loop over a map's entries, watched at one key. -/
theorem foldl_toList_at (map : ExtTreeMap κ ν) {step : ω → κ × ν → ω} (key : κ)
    (hother : ∀ w entry, entry.1 ≠ key → step w entry = w) (w : ω) :
    map.toList.foldl step w = (map[key]?.map fun value => step w (key, value)).getD w := by
  cases hget : map[key]? with
  | none =>
    refine foldl_eq_self (fun entry hentry w => hother w entry ?_) w
    rintro rfl
    rw [ExtTreeMap.mem_toList_iff_getElem?_eq_some.1 hentry] at hget
    exact absurd hget (some_ne_none _)
  | some value =>
    have hmem : (key, value) ∈ map.toList := ExtTreeMap.mem_toList_iff_getElem?_eq_some.2 hget
    obtain ⟨before, after, hsplit⟩ := append_of_mem hmem
    have hdistinct := ExtTreeMap.distinct_keys_toList (t := map)
    rw [hsplit, pairwise_append, pairwise_cons] at hdistinct
    obtain ⟨_, ⟨hafter, _⟩, hbefore⟩ := hdistinct
    rw [hsplit, map_some, getD_some]
    refine foldl_eq_step (fun entry hentry w => hother w entry ?_) (fun entry hentry w => hother w entry ?_) w
    · rintro rfl
      exact hbefore entry hentry _ mem_cons_self ReflOrd.compare_self
    · rintro rfl
      exact hafter entry hentry ReflOrd.compare_self

/-- **A loop over a map's entries, read at one key**: where a step changes what is read only for an entry under
that key, the loop updates it by the entry the map holds there, or not at all. -/
theorem read_foldl_toList {σ : Type} (map : ExtTreeMap κ ν) {step : σ → κ × ν → σ} (read : σ → ω) (key : κ)
    (update : ω → ν → ω) (hown : ∀ s value, read (step s (key, value)) = update (read s) value)
    (hother : ∀ s entry, entry.1 ≠ key → read (step s entry) = read s) (s : σ) :
    read (map.toList.foldl step s) = (map[key]?.map (update (read s))).getD (read s) := by
  classical
  have hhom : map.toList.foldl (fun w entry => if entry.1 = key then update w entry.2 else w) (read s) =
      read (map.toList.foldl step s) := by
    refine foldl_hom read fun s entry => ?_
    split_ifs with hkey
    · obtain ⟨_, value⟩ := entry
      obtain rfl : _ = key := hkey
      exact (hown s value).symm
    · exact (hother s entry hkey).symm
  rw [← hhom, foldl_toList_at map key fun w entry hentry => if_neg hentry]
  simp only [if_true]

end Maps

end Koshi.Base
