import Koshi.Base.SteppedScan
import Koshi.Layout.Proof.ResizeMeasure

/-!
# The search of a resize

The candidates stand for every added count, and the search over them finds what a scan over every count would: the
measures of the candidates move by steps while the donor has a cell to spare, so each halving keeps the half that
holds the first match.
-/

namespace Koshi.Layout

open Base Koshi.Core Function

/-! ### Halving a range of candidates -/

section Search

variable {measureCandidate : Int → BorderMeasure} {moved : Nat → Int} {sup : Nat → Nat}
  (hmeasured : ∀ n : Nat, 1 ≤ n → measureCandidate n = ⟨moved n, sup n⟩)
include hmeasured

variable {isFound : BorderMeasure → Bool}

/-- **The halving finds the first match** of a range in which every candidate after a match is one. -/
theorem narrowCandidates_spec (stepBound : Nat) {lowest highest : Nat} (hpos : 1 ≤ lowest) (hle : lowest ≤ highest)
    (hbo : highest - lowest ≤ stepBound)
    (hmono : ∀ j k, lowest ≤ j → j ≤ k → k ≤ highest → isFound ⟨moved j, sup j⟩ = true →
      isFound ⟨moved k, sup k⟩ = true) (hfo : isFound ⟨moved highest, sup highest⟩ = true) :
    ∃ fst : Nat, narrowCandidates measureCandidate isFound stepBound lowest highest ⟨moved highest, sup highest⟩ =
        ((fst : Int), ⟨moved fst, sup fst⟩) ∧ lowest ≤ fst ∧ fst ≤ highest ∧
      isFound ⟨moved fst, sup fst⟩ = true ∧ ∀ j, lowest ≤ j → j < fst → isFound ⟨moved j, sup j⟩ = false := by
  induction stepBound generalizing lowest highest with
  | zero =>
    obtain rfl : lowest = highest := by omega
    exact ⟨lowest, rfl, le_refl _, le_refl _, hfo, fun j h1 h2 => absurd h2 (by omega)⟩
  | succ stepBound ih =>
    rw [narrowCandidates]
    by_cases hlt : lowest < highest
    · have hmiddle : (lowest : Int) + ((highest : Int) - lowest) / 2 =
          ((lowest + (highest - lowest) / 2 : Nat) : Int) := by
        push_cast [Nat.cast_sub hle]
        rfl
      rw [if_pos (by exact_mod_cast hlt)]
      dsimp only
      rw [hmiddle, hmeasured _ (by omega)]
      generalize hmid : lowest + (highest - lowest) / 2 = mid
      by_cases hmatch : isFound ⟨moved mid, sup mid⟩ = true
      · rw [if_pos hmatch]
        obtain ⟨fst, heq, h1, h2, h3, h4⟩ := ih hpos (by omega) (by omega)
          (fun j k hj hjk hk => hmono j k hj hjk (by omega)) hmatch
        exact ⟨fst, heq, h1, by omega, h3, h4⟩
      · rw [if_neg hmatch]
        obtain ⟨fst, heq, h1, h2, h3, h4⟩ := @ih (mid + 1) highest (by omega) (by omega) (by omega)
          (fun j k hj hjk hk => hmono j k (by omega) hjk hk) hfo
        refine ⟨fst, heq, by omega, h2, h3, fun j hj hl => ?_⟩
        by_cases hb : j ≤ mid
        · by_contra hnot
          exact hmatch (hmono j mid hj hb (by omega) (Bool.eq_true_of_not_eq_false hnot))
        · exact h4 j (by omega) hl
    · obtain rfl : lowest = highest := by omega
      rw [if_neg (by omega)]
      exact ⟨lowest, rfl, le_refl _, le_refl _, hfo, fun j h1 h2 => absurd h2 (by omega)⟩

theorem findFirstCandidate_spec {lowest highest : Nat} (hpos : 1 ≤ lowest) (hle : lowest ≤ highest)
    (hmono : ∀ j k, lowest ≤ j → j ≤ k → k ≤ highest → isFound ⟨moved j, sup j⟩ = true →
      isFound ⟨moved k, sup k⟩ = true) (hfo : isFound ⟨moved highest, sup highest⟩ = true) :
    ∃ fst : Nat, findFirstCandidate measureCandidate lowest highest ⟨moved highest, sup highest⟩ isFound =
        ((fst : Int), ⟨moved fst, sup fst⟩) ∧ lowest ≤ fst ∧ fst ≤ highest ∧
      isFound ⟨moved fst, sup fst⟩ = true ∧ ∀ j, lowest ≤ j → j < fst → isFound ⟨moved j, sup j⟩ = false :=
  narrowCandidates_spec hmeasured _ hpos hle (by omega) hmono hfo

/-! ### The candidate at which the move stops -/

variable (hsteps : StepsWhileSupplied moved sup)
include hsteps

omit hmeasured hsteps in
theorem isMoveStopped_iff {requested : Nat} (n : Nat) :
    isMoveStopped requested ⟨moved n, sup n⟩ = true ↔ IsScanStopped moved sup requested n := by
  rw [isMoveStopped, Bool.or_eq_true, decide_eq_true_iff, decide_eq_true_iff, IsScanStopped]

/-- **The stopping candidate** is the first one that stops the move, else the last one. -/
theorem findStoppingCandidate_spec {requested count : Nat} (hasked : 0 < requested) (hc : 0 < count) (hst : sup 0 ≠ 0) :
    ∃ stop : Nat, findStoppingCandidate measureCandidate requested count = ((stop : Int), ⟨moved stop, sup stop⟩) ∧
      stop ≤ count ∧ (∀ n < stop, ¬IsScanStopped moved sup requested n) ∧
      (IsScanStopped moved sup requested stop ∨ stop = count) := by
  have hf : ¬IsScanStopped moved sup requested 0 := by
    rintro (hreached | hspent)
    · rw [hsteps.start] at hreached
      omega
    · exact hst hspent
  have hmono : ∀ j k, j ≤ k → isMoveStopped requested ⟨moved j, sup j⟩ = true →
      isMoveStopped requested ⟨moved k, sup k⟩ = true := by
    intro j k hjk hj
    rw [isMoveStopped_iff] at hj ⊢
    exact hsteps.stopped_of_le hjk hj
  have hmin : min (requested : Int) (count : Int) = ((min requested count : Nat) : Int) := by push_cast; rfl
  unfold findStoppingCandidate
  dsimp only
  rw [hmin, hmeasured (min requested count) (by omega), hmeasured count hc]
  generalize hprobed : min requested count = probed
  by_cases hstop : isMoveStopped requested ⟨moved probed, sup probed⟩ = true
  · rw [if_pos hstop]
    by_cases hspare : 0 < sup probed
    · rw [if_pos hspare]
      refine ⟨probed, rfl, by omega, fun n hn => ?_, .inl ((isMoveStopped_iff probed).1 hstop)⟩
      -- with cells to spare the border moved at most one cell a candidate, so none before moved it as far
      have hsup : ∀ k < probed, sup k ≠ 0 := fun k hk hz => by
        have hspent := hsteps.spent_of_le hk.le hz
        omega
      rintro (hreached | hspent)
      · have hmoved := hsteps.moved_le (n := n) fun k hk => hsup k (by omega)
        omega
      · exact hsup n hn hspent
    · rw [if_neg hspare]
      obtain ⟨stop, heq, h1, h2, h3, h4⟩ := findFirstCandidate_spec hmeasured (le_refl 1) (by omega : 1 ≤ probed)
        (fun j k _ hjk _ => hmono j k hjk) hstop
      refine ⟨stop, heq, by omega, fun n hn => ?_, .inl ((isMoveStopped_iff stop).1 h3)⟩
      obtain rfl | hpos := Nat.eq_zero_or_pos n
      · exact hf
      · rw [← isMoveStopped_iff, h4 n hpos hn]
        decide
  · rw [if_neg hstop]
    have hb : ∀ n ≤ probed, ¬IsScanStopped moved sup requested n := by
      intro n hn hscan
      exact hstop ((isMoveStopped_iff probed).2 (hsteps.stopped_of_le hn hscan))
    by_cases hl : (probed : Int) = count
    · rw [if_pos hl]
      obtain rfl : probed = count := by exact_mod_cast hl
      exact ⟨probed, rfl, le_refl _, fun n hn => hb n hn.le, .inr rfl⟩
    · rw [if_neg hl]
      by_cases hen : isMoveStopped requested ⟨moved count, sup count⟩ = true
      · rw [if_pos hen]
        obtain ⟨stop, heq, h1, h2, h3, h4⟩ := @findFirstCandidate_spec _ _ _ hmeasured _ (probed + 1) count (by omega)
          (by omega) (fun j k _ hjk _ => hmono j k hjk) hen
        refine ⟨stop, by exact_mod_cast heq, h2, fun n hn => ?_, .inl ((isMoveStopped_iff stop).1 h3)⟩
        by_cases hle : n ≤ probed
        · exact hb n hle
        · rw [← isMoveStopped_iff, h4 n (by omega) hn]
          decide
      · rw [if_neg hen]
        refine ⟨count, rfl, le_refl _, fun n hn hscan => ?_, .inr rfl⟩
        exact hen ((isMoveStopped_iff count).2 (hsteps.stopped_of_le hn.le hscan))

end Search

/-! ### The candidates stand for every added count -/

namespace ResizeBorder

section Candidates

variable (border : ResizeBorder)

def movedAt (added : Nat) : Int := (border.measureAddedCellCount added).movedCellCount

def supplyAt (added : Nat) : Nat := (border.measureAddedCellCount added).spareCellCount

/-- The added count of a candidate; candidate `0` is the split before the resize. -/
def candidateAt (candidate : Nat) : Nat :=
  if candidate = 0 then 0 else (border.getAddedCellCount candidate).toNat

theorem one_le_windows : 1 ≤ border.firstOffsetWindow.firstCount ∧
    border.firstOffsetWindow.firstCount ≤ border.secondOffsetWindow.firstCount := by
  have hgets : 1 ≤ border.receivingOffsetWindow.firstCount := le_max_right _ _
  have hdon : 1 ≤ border.donatingOffsetWindow.firstCount := le_max_right _ _
  unfold firstOffsetWindow secondOffsetWindow
  split_ifs with h
  · exact ⟨hgets, h⟩
  · exact ⟨hdon, (not_le.1 h).le⟩

theorem contains_windows_iff (d : Int) :
    border.firstOffsetWindow.Contains d ∨ border.secondOffsetWindow.Contains d ↔
      border.receivingOffsetWindow.Contains d ∨ border.donatingOffsetWindow.Contains d := by
  unfold firstOffsetWindow secondOffsetWindow
  split_ifs
  · exact Iff.rfl
  · exact or_comm

theorem one_le_getAddedCount {candidate : Nat} (hpos : 1 ≤ candidate) : 1 ≤ border.getAddedCellCount candidate := by
  have hwindows := border.one_le_windows
  unfold getAddedCellCount secondWindowStart
  split_ifs <;> omega

theorem natCast_candidateAt {candidate : Nat} (hpos : 1 ≤ candidate) :
    (border.candidateAt candidate : Int) = border.getAddedCellCount candidate := by
  have hone := border.one_le_getAddedCount hpos
  rw [candidateAt, if_neg (by omega), Int.toNat_of_nonneg (by omega)]

theorem getAddedCount_lt_succ (candidate : Nat) :
    border.getAddedCellCount candidate < border.getAddedCellCount (candidate + 1 : Nat) := by
  have hwindows := border.one_le_windows
  unfold getAddedCellCount secondWindowStart firstWindowLength
  push_cast
  split_ifs <;> omega

theorem strictMono_candidateAt : StrictMono border.candidateAt := by
  refine strictMono_nat_of_lt_succ fun candidate => ?_
  have hnx := border.natCast_candidateAt (Nat.le_add_left 1 candidate)
  obtain rfl | hpos := Nat.eq_zero_or_pos candidate
  · have hone := border.one_le_getAddedCount (le_refl 1)
    rw [candidateAt, if_pos rfl]
    simp only [Nat.zero_add] at hnx ⊢
    omega
  · have hthis := border.natCast_candidateAt hpos
    have hlt := border.getAddedCount_lt_succ candidate
    omega

/-- **Every count of a window is a candidate.** -/
theorem exists_candidateAt_eq {d : Nat}
    (hcontains : border.receivingOffsetWindow.Contains d ∨ border.donatingOffsetWindow.Contains d) :
    ∃ candidate ≤ border.candidateCount.toNat, border.candidateAt candidate = d := by
  rw [← contains_windows_iff] at hcontains
  have hwindows := border.one_le_windows
  have hgiven : ∃ candidate : Nat, 1 ≤ candidate ∧ candidate ≤ border.candidateCount.toNat ∧
      border.getAddedCellCount candidate = d := by
    unfold OffsetWindow.Contains at hcontains
    by_cases hf : (d : Int) ≤ border.firstOffsetWindow.lastCount ∧ border.firstOffsetWindow.firstCount ≤ d
    · refine ⟨(d - border.firstOffsetWindow.firstCount + 1).toNat, ?_, ?_, ?_⟩
      · omega
      · unfold candidateCount firstWindowLength secondWindowLength
        omega
      · unfold getAddedCellCount firstWindowLength
        rw [if_pos (by omega)]
        omega
    · refine ⟨(d - border.secondWindowStart + 1 + border.firstWindowLength).toNat, ?_, ?_, ?_⟩ <;>
        unfold secondWindowStart firstWindowLength
      · omega
      · unfold candidateCount firstWindowLength secondWindowLength secondWindowStart
        omega
      · unfold getAddedCellCount secondWindowStart firstWindowLength
        rw [if_neg (by omega)]
        omega
  obtain ⟨candidate, hpos, hle, heq⟩ := hgiven
  refine ⟨candidate, hle, ?_⟩
  have hcast := border.natCast_candidateAt hpos
  omega

theorem candidateAt_candidateCount_le {bound : Nat} (hgets : border.receivingOffsetWindow.lastCount ≤ bound)
    (hdon : border.donatingOffsetWindow.lastCount ≤ bound) :
    border.candidateAt border.candidateCount.toNat ≤ bound := by
  have hl : border.firstOffsetWindow.lastCount ≤ bound ∧ border.secondOffsetWindow.lastCount ≤ bound := by
    unfold firstOffsetWindow secondOffsetWindow
    split_ifs
    · exact ⟨hgets, hdon⟩
    · exact ⟨hdon, hgets⟩
  obtain hz | hpos := Nat.eq_zero_or_pos border.candidateCount.toNat
  · rw [hz, candidateAt, if_pos rfl]
    exact Nat.zero_le _
  · have hcast := border.natCast_candidateAt hpos
    have hc : ((border.candidateCount.toNat : Nat) : Int) = border.candidateCount := by omega
    rw [hc] at hcast
    have hle : border.getAddedCellCount border.candidateCount ≤ bound := by
      have hwindows := border.one_le_windows
      unfold getAddedCellCount candidateCount secondWindowLength firstWindowLength
      unfold candidateCount secondWindowLength firstWindowLength at hpos
      split_ifs <;> omega
    omega

end Candidates

variable {border : ResizeBorder} (hwell : border.WellFormed)

variable (want : Nat)
include hwell

theorem stepsWhileSupplied : StepsWhileSupplied border.movedAt border.supplyAt := by
  refine ⟨?_, fun d hspare => ?_, fun d hspent => ?_⟩
  · rw [movedAt, Nat.cast_zero, measureAddedCount_zero hwell]
  · have hstep := measureAddedCount_succ hwell hspare
    rw [movedAt, movedAt, Nat.cast_succ]
    exact hstep
  · have hkt := measureAddedCount_spent hwell hspent
    rw [supplyAt, Nat.cast_succ]
    exact hkt

/-- **The candidates stand for every added count.** -/
theorem samples_candidateAt :
    Samples border.movedAt border.supplyAt border.candidateAt border.candidateCount.toNat := by
  refine Samples.of_unchanged rfl border.strictMono_candidateAt fun d hnone => ?_
  have houtside : ¬(border.receivingOffsetWindow.Contains ((d + 1 : Nat) : Int) ∨
      border.donatingOffsetWindow.Contains ((d + 1 : Nat) : Int)) := by
    intro hcontains
    obtain ⟨candidate, hle, heq⟩ := border.exists_candidateAt_eq hcontains
    exact hnone candidate hle heq
  obtain ⟨hgets, hdon⟩ := not_or.1 houtside
  rw [Nat.cast_succ] at hgets hdon
  have hs := measureAddedCount_outside hwell (Int.natCast_nonneg d) hgets hdon
  rw [movedAt, movedAt, supplyAt, supplyAt, Nat.cast_succ, hs]
  exact ⟨rfl, rfl⟩

/-! ### What the resize keeps -/

omit hwell in
theorem borderCellAt_le (d : Int) : border.borderCellAt d ≤ u16Max := by
  unfold borderCellAt
  split_ifs
  · exact Nat.min_le_right _ _
  · exact Nat.zero_le _

theorem movedAt_le (d : Nat) : border.movedAt d ≤ u16Max := by
  have hle := @borderCellAt_le border d
  have hle' := @borderCellAt_le border 0
  rw [movedAt, measureAddedCount_eq hwell]
  dsimp only
  split_ifs <;> omega

/-- **The search keeps what the scan over the candidates selects.** -/
theorem selectAddedCount_candidate :
    ∃ kept : Nat, border.selectAddedCellCount want =
        ((border.candidateAt kept : Int), (border.movedAt (border.candidateAt kept)).toNat) ∧
      Selects (border.movedAt ∘ border.candidateAt) (border.supplyAt ∘ border.candidateAt) want
        border.candidateCount.toNat kept (border.movedAt (border.candidateAt kept)) := by
  have hsteps := (samples_candidateAt hwell).steps (stepsWhileSupplied hwell)
  have hst : border.movedAt (border.candidateAt 0) = 0 := hsteps.start
  have hz : ((border.candidateAt 0 : Int), (border.movedAt (border.candidateAt 0)).toNat) = ((0 : Int), 0) := by
    rw [hst]
    rfl
  have hspare : (border.measureBorder border.splitNode).2 = border.supplyAt (border.candidateAt 0) := by
    rw [measureBorder_splitNode hwell, supplyAt]
    change _ = (border.measureAddedCellCount 0).spareCellCount
    rw [measureAddedCount_zero hwell]
  have hmeasured : ∀ n : Nat, 1 ≤ n → border.measureCandidate n =
      ⟨(border.movedAt ∘ border.candidateAt) n, (border.supplyAt ∘ border.candidateAt) n⟩ := by
    intro n hn
    simp only [measureCandidate, comp_apply, movedAt, supplyAt, border.natCast_candidateAt hn]
  unfold selectAddedCellCount
  dsimp only
  rw [hspare]
  by_cases hop : 0 < want ∧ 0 < border.supplyAt (border.candidateAt 0) ∧ 0 < border.candidateCount
  · rw [if_pos hop]
    obtain ⟨hasked, hsup, hc⟩ := hop
    obtain ⟨stop, heq, hle, hb, hen⟩ := findStoppingCandidate_spec hmeasured hsteps hasked
      (by omega : 0 < border.candidateCount.toNat) hsup.ne'
    rw [Int.toNat_of_nonneg hc.le] at heq
    rw [heq]
    dsimp only
    have hlasts : ∀ k < stop, (border.supplyAt ∘ border.candidateAt) k ≠ 0 := fun k hk => (not_or.1 (hb k hk)).2
    by_cases hmoved : 0 < (border.movedAt ∘ border.candidateAt) stop
    · rw [if_pos hmoved]
      have hbo := hsteps.moved_le hlasts
      have hmono : ∀ j k : Nat, ((border.movedAt ∘ border.candidateAt) stop).toNat ≤ j → j ≤ k → k ≤ stop →
          decide ((border.movedAt ∘ border.candidateAt) stop ≤ (border.movedAt ∘ border.candidateAt) j) = true →
          decide ((border.movedAt ∘ border.candidateAt) stop ≤ (border.movedAt ∘ border.candidateAt) k) = true := by
        intro j k _ hjk hk hj
        rw [decide_eq_true_iff] at hj ⊢
        exact hj.trans (hsteps.moved_le_moved hjk fun i hi => hlasts i (by omega))
      obtain ⟨kept, hkt, hlow, hhigh, hfo, hf⟩ := @findFirstCandidate_spec border.measureCandidate _ _ hmeasured
        (fun borderMeasured => decide ((border.movedAt ∘ border.candidateAt) stop ≤ borderMeasured.movedCellCount))
        ((border.movedAt ∘ border.candidateAt) stop).toNat stop (by omega) (by omega) hmono
        (decide_eq_true (le_refl _))
      rw [Int.toNat_of_nonneg hmoved.le] at hkt
      rw [hkt]
      dsimp only
      have hreached := of_decide_eq_true hfo
      have hs : (border.movedAt ∘ border.candidateAt) kept = (border.movedAt ∘ border.candidateAt) stop :=
        le_antisymm (hsteps.moved_le_moved hhigh hlasts) hreached
      have hpos : 1 ≤ kept := by omega
      refine ⟨kept, ?_, stop, hle, hb, hen, hs.symm, hhigh, le_refl _, fun n hn => ?_⟩
      · have hw := movedAt_le hwell (border.candidateAt stop)
        rw [border.natCast_candidateAt hpos, Prod.mk.injEq]
        refine ⟨rfl, ?_⟩
        rw [asU16_of_le (by simp only [comp_apply]; omega), ← hs]
        rfl
      · change _ < (border.movedAt ∘ border.candidateAt) kept
        rw [hs]
        by_cases hbelow : ((border.movedAt ∘ border.candidateAt) stop).toNat ≤ n
        · exact lt_of_not_ge (of_decide_eq_false (hf n hbelow hn))
        · have hfew := hsteps.moved_le (n := n) fun k hk => hlasts k (by omega)
          omega
    · rw [if_neg hmoved, ← hz]
      have hnonneg := hsteps.moved_nonneg hlasts
      refine ⟨0, rfl, stop, hle, hb, hen, ?_, Nat.zero_le _, le_refl _, fun n hn => absurd hn (Nat.not_lt_zero n)⟩
      rw [hst]
      omega
  · rw [if_neg hop, ← hz]
    refine ⟨0, rfl, 0, Nat.zero_le _, fun n hn => absurd hn (Nat.not_lt_zero n), ?_, rfl, le_refl _, le_refl _,
      fun n hn => absurd hn (Nat.not_lt_zero n)⟩
    have hnone : want = 0 ∨ border.supplyAt (border.candidateAt 0) = 0 ∨ border.candidateCount ≤ 0 := by
      omega
    obtain hasked | hspent | hem := hnone
    · refine .inl (.inl ?_)
      rw [comp_apply, hst, hasked]
      rfl
    · exact .inl (.inr hspent)
    · exact .inr (by omega)

/-- **The search keeps what a scan over every added count selects**, whatever count past both windows the scan goes
to. -/
theorem selectAddedCount_selects {bound : Nat} (hgets : border.receivingOffsetWindow.lastCount ≤ bound)
    (hdon : border.donatingOffsetWindow.lastCount ≤ bound) :
    ∃ kept : Nat, border.selectAddedCellCount want = ((kept : Int), (border.movedAt kept).toNat) ∧
      Selects border.movedAt border.supplyAt want bound kept (border.movedAt kept) := by
  obtain ⟨kept, heq, hselects⟩ := selectAddedCount_candidate hwell want
  exact ⟨border.candidateAt kept, heq, (samples_candidateAt hwell).selects
    (border.candidateAt_candidateCount_le hgets hdon) hselects⟩

theorem selectAddedCount_eq_linearScan {bound : Nat} (hgets : border.receivingOffsetWindow.lastCount ≤ bound)
    (hdon : border.donatingOffsetWindow.lastCount ≤ bound) :
    border.selectAddedCellCount want =
      (((linearScan border.movedAt border.supplyAt want bound).1 : Int),
        (linearScan border.movedAt border.supplyAt want bound).2.toNat) := by
  obtain ⟨kept, heq, hselects⟩ := selectAddedCount_selects hwell want hgets hdon
  obtain ⟨hkt, hmoved⟩ := hselects.unique selects_linearScan
  rw [heq, ← hmoved, ← hkt]

/-! ### The layouts outside the windows -/

/-- **A count outside both windows** has the child rects of the split before the resize or of a last count of a
window. -/
theorem exists_sameRects_of_outside (d : Nat) (hgets : ¬border.receivingOffsetWindow.Contains d)
    (hdon : ¬border.donatingOffsetWindow.Contains d) :
    ∃ edgeCount : Int, (edgeCount = 0 ∨ edgeCount = border.receivingOffsetWindow.lastCount ∨
        edgeCount = border.donatingOffsetWindow.lastCount) ∧ 0 ≤ edgeCount ∧ edgeCount ≤ d ∧
      computeDirectionalChildRects (border.setAddedCellCount d) border.splitRect border.paneSizing =
        computeDirectionalChildRects (border.setAddedCellCount edgeCount) border.splitRect border.paneSizing := by
  induction d with
  | zero => exact ⟨0, .inl rfl, le_refl _, le_refl _, rfl⟩
  | succ d ih =>
    rw [Nat.cast_succ] at hgets hdon ⊢
    have hs := directionalRects_outside hwell (Int.natCast_nonneg d) hgets hdon
    have hone : 1 ≤ border.receivingOffsetWindow.firstCount := le_max_right _ _
    have hone' : 1 ≤ border.donatingOffsetWindow.firstCount := le_max_right _ _
    unfold OffsetWindow.Contains at hgets hdon ih
    by_cases hlastReceiving : border.receivingOffsetWindow.firstCount ≤ d ∧
        (d : Int) ≤ border.receivingOffsetWindow.lastCount
    · have hl : (d : Int) = border.receivingOffsetWindow.lastCount := by omega
      exact ⟨d, .inr (.inl hl), by omega, by omega, hs⟩
    · by_cases hlastDonating : border.donatingOffsetWindow.firstCount ≤ d ∧
          (d : Int) ≤ border.donatingOffsetWindow.lastCount
      · have hl : (d : Int) = border.donatingOffsetWindow.lastCount := by omega
        exact ⟨d, .inr (.inr hl), by omega, by omega, hs⟩
      · obtain ⟨edgeCount, hedge, hnonneg, hle, heq⟩ := ih hlastReceiving hlastDonating
        exact ⟨edgeCount, hedge, hnonneg, by omega, hs.trans heq⟩

end ResizeBorder

end Koshi.Layout
