import Mathlib.Data.List.Basic

/-!
# Lists with superseded entries left out

`Thins p given kept`: `kept` is `given` less entries that may give way to the entry right after them. A list grows at
its end, by a new entry or by one that takes the place of the last.
-/

namespace Koshi.Base

open List

variable {α : Type} {p : α → α → Prop} {given kept : List α} {a b : α}

inductive Thins (p : α → α → Prop) : List α → List α → Prop where
  | nil : Thins p [] []
  | keep {given kept : List α} (a : α) (h : Thins p given kept) : Thins p (a :: given) (a :: kept)
  | leave {given kept : List α} {a b : α} (hp : p a b) (h : Thins p (b :: given) kept) : Thins p (a :: b :: given) kept

namespace Thins

theorem append_singleton (h : Thins p given kept) (a : α) : Thins p (given ++ [a]) (kept ++ [a]) := by
  induction h with
  | nil => exact .keep a .nil
  | keep b h ih => exact .keep b ih
  | leave hp h ih => exact .leave hp ih

theorem eq_nil (h : Thins p given []) : given = [] := by
  generalize hl : ([] : List α) = l at h
  induction h with
  | nil => rfl
  | keep => cases hl
  | leave hp h ih => subst hl; cases ih rfl

/-- The last entry gives way to a new one. -/
theorem replace_last (h : Thins p given (kept ++ [a])) (hp : p a b) : Thins p (given ++ [b]) (kept ++ [b]) := by
  generalize hl : kept ++ [a] = l at h
  induction h generalizing kept with
  | nil => simp at hl
  | @keep given rest c h ih =>
    cases kept with
    | nil =>
      obtain ⟨rfl, rfl⟩ := cons.inj hl
      rw [h.eq_nil]
      exact .leave hp (.keep b .nil)
    | cons d kept =>
      obtain ⟨rfl, hrest⟩ := cons.inj hl
      exact .keep d (ih hrest)
  | leave hq h ih => exact .leave hq (ih hl)

end Thins

end Koshi.Base
