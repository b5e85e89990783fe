import Mathlib.Tactic
import Mathlib.Data.List.Nodup
import Mathlib.Logic.Function.Basic

/-!
# Exclusive ownership

Areas that hold items, each item in one area and there once. An edit of one area is a `Function.update`; it
keeps exclusive ownership when no item of the new list is held by another area.
-/

namespace Koshi.Base

open Function

variable {α β : Type} {areas : α → Option (List β)} {area other : α} {items : List β} {item : β}

def Holds (areas : α → Option (List β)) (area : α) (item : β) : Prop := ∃ items, areas area = some items ∧ item ∈ items

/-- Every item is held once, by one area. -/
structure Owned (areas : α → Option (List β)) : Prop where
  nodup : ∀ {area items}, areas area = some items → items.Nodup
  unique : ∀ {area other item}, Holds areas area item → Holds areas other item → area = other

theorem holds_of_mem (h : areas area = some items) (hmem : item ∈ items) : Holds areas area item := ⟨items, h, hmem⟩

theorem holds_iff (h : areas area = some items) : Holds areas area item ↔ item ∈ items := by
  constructor
  · rintro ⟨held, hheld, hmem⟩
    rw [h] at hheld
    rwa [Option.some.inj hheld]
  · exact holds_of_mem h

theorem not_holds_of_none (h : areas area = none) : ¬ Holds areas area item := by
  rintro ⟨held, hheld, -⟩
  rw [h] at hheld
  exact Option.some_ne_none held hheld.symm

/-- When the lists of all areas together hold no item twice, an item is in one list. -/
theorem eq_of_mem_of_nodup_flatMap {owners : List α} {listItems : α → List β}
    (hnodup : (owners.flatMap listItems).Nodup) (hfirst : area ∈ owners) (hsecond : other ∈ owners)
    (hmemFirst : item ∈ listItems area) (hmemSecond : item ∈ listItems other) : area = other := by
  have : Std.Symm (Function.onFun List.Disjoint listItems) := ⟨fun _ _ h => List.Disjoint.symm h⟩
  by_contra hne
  exact ((List.nodup_flatMap.1 hnodup).2.forall hfirst hsecond hne) hmemFirst hmemSecond

variable [DecidableEq α]

theorem holds_update_self_some : Holds (update areas area (some items)) area item ↔ item ∈ items :=
  holds_iff (update_self ..)

theorem holds_update_of_ne (h : other ≠ area) (held : Option (List β)) :
    Holds (update areas area held) other item ↔ Holds areas other item := by
  rw [Holds, update_of_ne h, Holds]

theorem holds_update_some :
    Holds (update areas area (some items)) other item ↔
      (other = area ∧ item ∈ items) ∨ (other ≠ area ∧ Holds areas other item) := by
  by_cases h : other = area
  · rw [h, holds_update_self_some]
    simp
  · rw [holds_update_of_ne h]
    simp [h]

theorem holds_update_none : Holds (update areas area none) other item ↔ other ≠ area ∧ Holds areas other item := by
  by_cases h : other = area
  · rw [h]
    exact ⟨fun hholds => absurd hholds (not_holds_of_none (update_self ..)), fun hholds => absurd rfl hholds.1⟩
  · rw [holds_update_of_ne h]
    simp [h]

end Koshi.Base
