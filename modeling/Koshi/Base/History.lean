import Mathlib.Data.List.Basic
import Mathlib.Data.List.Range

/-!
# Append-only histories

A history is a list to which entries are appended. It is justified when each entry, at the moment it was appended,
stood in a given relation to what came before it; one appended entry needs one fact. Where every entry carries the
number of the channel it went to and the numbers never decrease, reading the channels one after the other is reading
the history. A run is the steps of a list of actions, each of which may refuse.
-/

namespace Koshi.Base

open List

variable {α β : Type}

variable {history : List α}

/-- Each entry is in `Allows` with what stands before it. -/
def Justified (Allows : List α → α → Prop) (history : List α) : Prop :=
  ∀ before entry after, history = before ++ entry :: after → Allows before entry

theorem Justified.nil (Allows : List α → α → Prop) : Justified Allows [] := by
  intro before entry after h
  exact absurd h.symm (by simp)

/-- A split of a history that grew by one entry: at the new entry, or in the old history. -/
theorem split_concat {before after : List α} {last entry : α} (h : history ++ [last] = before ++ entry :: after) :
    (before = history ∧ entry = last ∧ after = []) ∨
      ∃ earlierAfter, after = earlierAfter ++ [last] ∧ history = before ++ entry :: earlierAfter := by
  rcases eq_nil_or_concat after with rfl | ⟨earlierAfter, lastAfter, rfl⟩
  · obtain ⟨hhistory, hlast⟩ := append_inj' h rfl
    exact .inl ⟨hhistory.symm, (List.cons.inj hlast).1.symm, rfl⟩
  · rw [concat_eq_append, ← cons_append, ← append_assoc] at h
    obtain ⟨hhistory, hlast⟩ := append_inj' h rfl
    rw [(List.cons.inj hlast).1]
    exact .inr ⟨earlierAfter, concat_eq_append, hhistory⟩

variable {Allows : List α → α → Prop}

theorem Justified.concat {entry : α} (h : Justified Allows history) (hentry : Allows history entry) :
    Justified Allows (history ++ [entry]) := by
  intro before other after hsplit
  rcases split_concat hsplit with ⟨rfl, rfl, -⟩ | ⟨earlierAfter, -, hhistory⟩
  · exact hentry
  · exact h before other earlierAfter hhistory

theorem Justified.append {entries : List α} (h : Justified Allows history)
    (hentries : ∀ before entry after, entries = before ++ entry :: after → Allows (history ++ before) entry) :
    Justified Allows (history ++ entries) := by
  induction entries using List.reverseRecOn with
  | nil => rwa [append_nil]
  | append_singleton entries entry ih =>
    rw [← append_assoc]
    refine Justified.concat (ih fun before other after hsplit => ?_) (hentries entries entry [] rfl)
    refine hentries before other (after ++ [entry]) ?_
    rw [hsplit, append_assoc, cons_append]

/-! ### Channels one after the other -/

def channelEntries (channel : α → Nat) (history : List α) (number : Nat) : List α :=
  history.filter fun entry => decide (channel entry = number)

/-- The channels below `count`, one after the other. -/
def joinChannels (channel : α → Nat) (history : List α) (count : Nat) : List α :=
  (List.range count).flatMap (channelEntries channel history)

theorem joinChannels_nil (channel : α → Nat) (count : Nat) : joinChannels channel [] count = [] := by
  rw [joinChannels, flatMap_eq_nil_iff]
  intro number _
  rfl

theorem joinChannels_concat {channel : α → Nat} {entry : α} {count : Nat} (hcount : channel entry < count)
    (hlast : ∀ earlier ∈ history, channel earlier ≤ channel entry) :
    joinChannels channel (history ++ [entry]) count = joinChannels channel history count ++ [entry] := by
  have hfilter : ∀ number, channelEntries channel (history ++ [entry]) number =
      channelEntries channel history number ++ if channel entry = number then [entry] else [] := by
    intro number
    rw [channelEntries, filter_append, filter_singleton]
    by_cases h : channel entry = number
    · simp [channelEntries, h]
    · simp [channelEntries, h]
  have hlater : ∀ number, channel entry < number → channelEntries channel history number = [] := by
    intro number hnumber
    refine filter_eq_nil_iff.2 fun earlier hmem => ?_
    have := hlast earlier hmem
    simp only [decide_eq_true_eq]
    omega
  induction count with
  | zero => omega
  | succ count ih =>
    have hjoin : ∀ entries : List α, joinChannels channel entries (count + 1) =
        joinChannels channel entries count ++ channelEntries channel entries count := by
      intro entries
      rw [joinChannels, joinChannels, range_succ, flatMap_append, flatMap_singleton]
    rw [hjoin, hjoin, hfilter]
    rcases Nat.lt_succ_iff_lt_or_eq.1 hcount with hlt | heq
    · rw [ih hlt, if_neg (by omega), hlater count hlt, append_nil, append_nil, append_nil]
    · have hsame : joinChannels channel (history ++ [entry]) count = joinChannels channel history count := by
        refine flatMap_congr fun number hnumber => ?_
        have := mem_range.1 hnumber
        rw [hfilter, if_neg (by omega), append_nil]
      rw [hsame, if_pos heq, append_assoc]

/-- **Time order is channel order.** Where the channel numbers never decrease, the channels one after the other are the
history. -/
theorem joinChannels_eq {channel : α → Nat} {count : Nat}
    (hsorted : history.Pairwise fun earlier later => channel earlier ≤ channel later)
    (hbound : ∀ entry ∈ history, channel entry < count) : joinChannels channel history count = history := by
  induction history using List.reverseRecOn with
  | nil => exact joinChannels_nil channel count
  | append_singleton history entry ih =>
    rw [pairwise_append] at hsorted
    obtain ⟨hhistory, -, hlast⟩ := hsorted
    rw [joinChannels_concat (hbound entry (by simp)) fun earlier hmem => hlast earlier hmem entry (by simp),
      ih hhistory fun earlier hmem => hbound earlier (by simp [hmem])]

/-! ### Runs -/

/-- **The invariant rule for a run of partial steps**: what every step keeps, the run keeps. -/
theorem foldlM_invariant {σ : Type} {step : σ → α → Option σ} (P : σ → Prop)
    (hstep : ∀ {s a next}, P s → step s a = some next → P next) {items : List α} {init last : σ} (hinit : P init)
    (hrun : items.foldlM step init = some last) : P last := by
  induction items generalizing init with
  | nil => exact Option.some.inj hrun ▸ hinit
  | cons a items ih =>
    rw [foldlM_cons] at hrun
    obtain ⟨middle, hfirst, hrest⟩ := Option.bind_eq_some_iff.1 hrun
    exact ih (hstep hinit hfirst) hrest

end Koshi.Base
