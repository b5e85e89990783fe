import Mathlib.Tactic

/-!
# Readers that undo a writer

A reader takes a value off the front of its input and leaves the rest. It reads a text back when the text in front
of any rest gives the value and exactly that rest; such readers compose.
-/

namespace Koshi.Base

open List

theorem bind_eq_ok {ε α β : Type} {first : Except ε α} {second : α → Except ε β} {result : β}
    (h : (first >>= second) = .ok result) : ∃ value, first = .ok value ∧ second value = .ok result := by
  cases first with
  | error reason => exact absurd h (by simp [bind, Except.bind])
  | ok value => exact ⟨value, rfl, h⟩

/-- A reader over a list of symbols that can fail. -/
abbrev Reader (ε σ : Type) := StateT (List σ) (Except ε)

variable {ε σ α β : Type}

variable {second : α → Reader ε σ β}

/-- `reader` takes `written` off any input that starts with it, and gives `value`. -/
def ReadsBack (reader : Reader ε σ α) (written : List σ) (value : α) : Prop :=
  ∀ suffix, reader.run (written ++ suffix) = .ok (value, suffix)

theorem ReadsBack.pure (value : α) : ReadsBack (Pure.pure value : Reader ε σ α) [] value := fun _ => rfl

variable {firstValue : α}

theorem ReadsBack.bind {first : Reader ε σ α} {firstWritten secondWritten : List σ} {secondValue : β}
    (hfirst : ReadsBack first firstWritten firstValue)
    (hsecond : ReadsBack (second firstValue) secondWritten secondValue) :
    ReadsBack (first >>= second) (firstWritten ++ secondWritten) secondValue := by
  intro suffix
  rw [append_assoc, StateT.run_bind, hfirst]
  exact hsecond suffix

variable {written : List σ}

theorem ReadsBack.bind_pure {first : Reader ε σ α} {value : β} (hfirst : ReadsBack first written firstValue)
    (hsecond : ReadsBack (second firstValue) [] value) :
    ReadsBack (first >>= second) written value := by
  have hbind := hfirst.bind hsecond
  rwa [append_nil] at hbind

theorem ReadsBack.pure_bind {value : β} (h : ReadsBack (second firstValue) written value) :
    ReadsBack (Pure.pure firstValue >>= second) written value :=
  (ReadsBack.pure firstValue).bind h

theorem ReadsBack.map {reader : Reader ε σ α} {value : α} (h : ReadsBack reader written value) (f : α → β) :
    ReadsBack (f <$> reader) written (f value) := by
  intro suffix
  rw [StateT.run_map, h]
  rfl

/-- Runs `reader` as often as said. -/
def readMany (reader : Reader ε σ α) : Nat → Reader ε σ (List α)
  | 0 => Pure.pure []
  | count + 1 => do
    let value ← reader
    let values ← readMany reader count
    Pure.pure (value :: values)

theorem ReadsBack.readMany {reader : Reader ε σ α} {write : α → List σ} {values : List α}
    (h : ∀ value ∈ values, ReadsBack reader (write value) value) :
    ReadsBack (Base.readMany reader values.length) (values.flatMap write) values := by
  induction values with
  | nil => exact .pure []
  | cons value values ih =>
    rw [flatMap_cons]
    refine (h value mem_cons_self).bind (ReadsBack.bind_pure ?_ (.pure _))
    exact ih fun other hother => h other (mem_cons_of_mem value hother)

end Koshi.Base
