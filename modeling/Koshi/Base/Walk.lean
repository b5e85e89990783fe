import Mathlib.Order.Lattice

/-!
# Walks

A walk goes through places one step at a time, each step to a place of lower rank, so that it ends. `find` is the first
place behind the start that is accepted, `last` is the last place that is reached over kept ones. Two walks undo each
other where a step of the one leads back over a step of the other; then so do the walks over the accepted places alone,
and the stretches of places of one class that the two walks cut out agree at each of their places.
-/

namespace Koshi.Base

open Option

structure Walk (α : Type) where
  step : α → Option α
  rank : α → Nat
  rank_lt : ∀ {a b}, step a = some b → rank b < rank a

namespace Walk

variable {α β γ : Type}

/-- The first accepted place behind `a`. -/
def find (w : Walk α) (accepts : α → Bool) (a : α) : Option α :=
  match _ : w.step a with
  | none => none
  | some b => if accepts b then some b else w.find accepts b
termination_by w.rank a
decreasing_by exact w.rank_lt ‹_›

/-- The last place the walk from `a` reaches before one that is not kept. -/
def last (w : Walk α) (keeps : α → Bool) (a : α) : α :=
  match _ : w.step a with
  | none => a
  | some b => if keeps b then w.last keeps b else a
termination_by w.rank a
decreasing_by exact w.rank_lt ‹_›

section

variable {w : Walk α} {accepts keeps : α → Bool} {a b : α}

theorem find_of_step_none (h : w.step a = none) : w.find accepts a = none := by
  rw [find]
  split
  · rfl
  · rename_i c hc
    exact absurd (h.symm.trans hc) nofun

theorem find_of_step (h : w.step a = some b) : w.find accepts a = if accepts b then some b else w.find accepts b := by
  rw [find]
  split
  · rename_i hc
    exact absurd (h.symm.trans hc) nofun
  · rename_i c hc
    rw [some_inj.1 (h.symm.trans hc)]

theorem last_of_step_none (h : w.step a = none) : w.last keeps a = a := by
  rw [last]
  split
  · rfl
  · rename_i c hc
    exact absurd (h.symm.trans hc) nofun

theorem last_of_step (h : w.step a = some b) : w.last keeps a = if keeps b then w.last keeps b else a := by
  rw [last]
  split
  · rename_i hc
    exact absurd (h.symm.trans hc) nofun
  · rename_i c hc
    rw [some_inj.1 (h.symm.trans hc)]

/-- A walk's induction: from the places behind to the place itself. -/
theorem induction (w : Walk α) {P : α → Prop} (hnone : ∀ a, w.step a = none → P a)
    (hstep : ∀ a b, w.step a = some b → P b → P a) (a : α) : P a := by
  induction h : w.rank a using Nat.strongRecOn generalizing a with
  | ind n ih =>
    cases hw : w.step a with
    | none => exact hnone a hw
    | some b => exact hstep a b hw (ih _ (h ▸ w.rank_lt hw) b rfl)

theorem accepts_of_find (h : w.find accepts a = some b) : accepts b = true := by
  induction a using w.induction with
  | hnone a hnone => exact absurd (h.symm.trans (find_of_step_none hnone)) nofun
  | hstep a c hstep ih =>
    rw [find_of_step hstep] at h
    by_cases hc : accepts c = true
    · rw [if_pos hc] at h
      rwa [← some_inj.1 h]
    · rw [if_neg hc] at h
      exact ih h

theorem rank_find (h : w.find accepts a = some b) : w.rank b < w.rank a := by
  induction a using w.induction with
  | hnone a hnone => exact absurd (h.symm.trans (find_of_step_none hnone)) nofun
  | hstep a c hstep ih =>
    have hlt := w.rank_lt hstep
    rw [find_of_step hstep] at h
    by_cases hc : accepts c = true
    · rw [if_pos hc] at h
      rwa [← some_inj.1 h]
    · rw [if_neg hc] at h
      exact Nat.lt_trans (ih h) hlt

end

/-- The walk over the accepted places. -/
def accepting (w : Walk α) (accepts : α → Bool) : Walk α where
  step := w.find accepts
  rank := w.rank
  rank_lt := rank_find

/-- Inside a set of places that `w` does not leave, `v` goes back over each step of `w`. -/
def Undoes (v w : Walk α) (inside : α → Prop) : Prop :=
  ∀ {a b}, inside a → w.step a = some b → inside b ∧ v.step b = some a

/-- Each step of the walk goes up, and over no place of the set. -/
def StepsUp [LT β] (w : Walk α) (place : α → β) (inside : α → Prop) : Prop :=
  ∀ {a b}, inside a → w.step a = some b → place a < place b ∧ ∀ c, inside c → place a < place c → ¬place c < place b

section Undoing

variable {v w : Walk α} {inside : α → Prop} {accepts : α → Bool} {a b : α}

theorem Undoes.find (h : v.Undoes w inside) (ha : inside a) (hfind : w.find accepts a = some b) :
    inside b ∧ v.find accepts b = if accepts a then some a else v.find accepts a := by
  induction a using w.induction with
  | hnone a hnone => exact absurd (hfind.symm.trans (find_of_step_none hnone)) nofun
  | hstep a c hstep ih =>
    obtain ⟨hc, hback⟩ := h ha hstep
    rw [find_of_step hstep] at hfind
    by_cases hcc : accepts c = true
    · rw [if_pos hcc] at hfind
      obtain rfl := some_inj.1 hfind
      exact ⟨hc, find_of_step hback⟩
    · rw [if_neg hcc] at hfind
      obtain ⟨hb, heq⟩ := ih hc hfind
      rw [if_neg hcc] at heq
      exact ⟨hb, heq.trans (find_of_step hback)⟩

/-- **Walks that undo each other do so over the accepted places as well.** -/
theorem Undoes.accepting (h : v.Undoes w inside) :
    (v.accepting accepts).Undoes (w.accepting accepts) fun a => inside a ∧ accepts a = true := by
  intro a b ha hstep
  obtain ⟨hb, hback⟩ := h.find ha.1 hstep
  rw [if_pos ha.2] at hback
  exact ⟨⟨hb, accepts_of_find hstep⟩, hback⟩

theorem StepsUp.find [LinearOrder β] {place : α → β} (hup : w.StepsUp place inside) (hundo : v.Undoes w inside)
    (hinj : Function.Injective place) (ha : inside a) (hfind : w.find accepts a = some b) :
    place a < place b ∧ ∀ c, inside c → accepts c = true → place a < place c → ¬place c < place b := by
  induction a using w.induction with
  | hnone a hnone => exact absurd (hfind.symm.trans (find_of_step_none hnone)) nofun
  | hstep a c hstep ih =>
    obtain ⟨hlt, hnear⟩ := hup ha hstep
    rw [find_of_step hstep] at hfind
    by_cases hcc : accepts c = true
    · rw [if_pos hcc] at hfind
      obtain rfl := some_inj.1 hfind
      exact ⟨hlt, fun d hd _ => hnear d hd⟩
    · rw [if_neg hcc] at hfind
      obtain ⟨hcb, hnearer⟩ := ih (hundo ha hstep).1 hfind
      refine ⟨hlt.trans hcb, fun d hd hdd had hdb => ?_⟩
      rcases lt_trichotomy (place d) (place c) with hdc | hdc | hdc
      · exact hnear d hd had hdc
      · exact hcc (hinj hdc ▸ hdd)
      · exact hnearer d hd hdd hdc hdb

theorem StepsUp.accepting [LinearOrder β] {place : α → β} (hup : w.StepsUp place inside) (hundo : v.Undoes w inside)
    (hinj : Function.Injective place) :
    (w.accepting accepts).StepsUp place fun a => inside a ∧ accepts a = true := by
  intro a b ha hfind
  obtain ⟨hlt, hnear⟩ := hup.find hundo hinj ha.1 hfind
  exact ⟨hlt, fun c hc => hnear c hc.1 hc.2⟩

end Undoing

/-! ### Stretches of one class -/

/-- What is kept for the class of a place are the places of that class. -/
def KeepsClass (keeps : γ → α → Bool) (classOf : α → γ) (inside : α → Prop) : Prop :=
  ∀ {a b}, inside a → inside b → (keeps (classOf a) b = true ↔ classOf b = classOf a)

/-- The walks end in the same two places from `b` as from `a`, each over the places of its start's class. -/
def SameStretch (v w : Walk α) (keeps : γ → α → Bool) (classOf : α → γ) (a b : α) : Prop :=
  v.last (keeps (classOf b)) b = v.last (keeps (classOf a)) a ∧
    w.last (keeps (classOf b)) b = w.last (keeps (classOf a)) a

section Stretch

variable {v w : Walk α} {inside : α → Prop} {classOf : α → γ} {keeps : γ → α → Bool} {a b c : α}

theorem SameStretch.trans (hab : SameStretch v w keeps classOf a b) (hbc : SameStretch v w keeps classOf b c) :
    SameStretch v w keeps classOf a c :=
  ⟨hbc.1.trans hab.1, hbc.2.trans hab.2⟩

theorem sameStretch_of_step (hundo : v.Undoes w inside) (hkeeps : KeepsClass keeps classOf inside) (ha : inside a)
    (hstep : w.step a = some b) (hclass : classOf b = classOf a) : SameStretch v w keeps classOf a b := by
  obtain ⟨hb, hback⟩ := hundo ha hstep
  refine ⟨?_, ?_⟩
  · rw [last_of_step hback, if_pos ((hkeeps hb ha).2 hclass.symm), hclass]
  · rw [last_of_step hstep, if_pos ((hkeeps ha hb).2 hclass), hclass]

theorem sameStretch_last (hundo : v.Undoes w inside) (hkeeps : KeepsClass keeps classOf inside) (ha : inside a) :
    inside (w.last (keeps (classOf a)) a) ∧ SameStretch v w keeps classOf a (w.last (keeps (classOf a)) a) := by
  induction a using w.induction with
  | hnone a hnone =>
    rw [last_of_step_none hnone]
    exact ⟨ha, rfl, rfl⟩
  | hstep a b hstep ih =>
    have hb := (hundo ha hstep).1
    rw [last_of_step hstep]
    by_cases hkept : keeps (classOf a) b = true
    · have hclass := (hkeeps ha hb).1 hkept
      obtain ⟨hlast, hsame⟩ := ih hb
      rw [if_pos hkept, ← hclass]
      exact ⟨hlast, (sameStretch_of_step hundo hkeeps ha hstep hclass).trans hsame⟩
    · rw [if_neg hkept]
      exact ⟨ha, rfl, rfl⟩

variable [LinearOrder β] {place : α → β} {kept : α → Bool}

theorem le_last (hundo : v.Undoes w inside) (hup : w.StepsUp place inside) (ha : inside a) :
    place a ≤ place (w.last kept a) := by
  induction a using w.induction with
  | hnone a hnone => rw [last_of_step_none hnone]
  | hstep a b hstep ih =>
    rw [last_of_step hstep]
    split
    · exact (hup ha hstep).1.le.trans (ih (hundo ha hstep).1)
    · rfl

theorem last_le (hundo : w.Undoes v inside) (hup : w.StepsUp place inside) (ha : inside a) :
    place (v.last kept a) ≤ place a := by
  induction a using v.induction with
  | hnone a hnone => rw [last_of_step_none hnone]
  | hstep a b hstep ih =>
    obtain ⟨hb, hon⟩ := hundo ha hstep
    rw [last_of_step hstep]
    split
    · exact (ih hb).trans (hup hb hon).1.le
    · rfl

theorem sameStretch_of_le (hundo : v.Undoes w inside) (hup : w.StepsUp place inside)
    (hkeeps : KeepsClass keeps classOf inside) (hinj : Function.Injective place) (ha : inside a) (hc : inside c)
    (hac : place a ≤ place c) (hlast : place c ≤ place (w.last (keeps (classOf a)) a)) :
    SameStretch v w keeps classOf a c := by
  rcases hac.eq_or_lt with heq | hlt
  · rw [hinj heq]
    exact ⟨rfl, rfl⟩
  · induction a using w.induction with
    | hnone a hnone =>
      rw [last_of_step_none hnone] at hlast
      exact absurd hlt hlast.not_gt
    | hstep a b hstep ih =>
      have hb := (hundo ha hstep).1
      rw [last_of_step hstep] at hlast
      by_cases hkept : keeps (classOf a) b = true
      · have hclass := (hkeeps ha hb).1 hkept
        rw [if_pos hkept, ← hclass] at hlast
        have hsame := sameStretch_of_step hundo hkeeps ha hstep hclass
        have hbc := not_lt.1 ((hup ha hstep).2 c hc hlt)
        rcases hbc.eq_or_lt with heq | hblt
        · rwa [← hinj heq]
        · exact hsame.trans (ih hb hbc hlast hblt)
      · rw [if_neg hkept] at hlast
        exact absurd hlt hlast.not_gt

/-- **The stretches of one class part the places.** A place lies between the two ends of its stretch, and every place
between them has the same ends. -/
theorem stretches_partition (hvw : v.Undoes w inside) (hwv : w.Undoes v inside) (hup : w.StepsUp place inside)
    (hkeeps : KeepsClass keeps classOf inside) (hinj : Function.Injective place) (ha : inside a) :
    place (v.last (keeps (classOf a)) a) ≤ place a ∧ place a ≤ place (w.last (keeps (classOf a)) a) ∧
      ∀ c, inside c → place (v.last (keeps (classOf a)) a) ≤ place c →
        place c ≤ place (w.last (keeps (classOf a)) a) → SameStretch v w keeps classOf a c := by
  refine ⟨last_le hwv hup ha, le_last hvw hup ha, fun c hc hfirst hlast => ?_⟩
  obtain ⟨hstart, hends⟩ := sameStretch_last hwv hkeeps ha
  have hends : SameStretch v w keeps classOf a (v.last (keeps (classOf a)) a) := hends.symm
  rw [← hends.2] at hlast
  exact hends.trans (sameStretch_of_le hvw hup hkeeps hinj hstart hc hfirst hlast)

end Stretch

end Walk

end Koshi.Base
