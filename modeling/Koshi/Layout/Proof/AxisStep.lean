import Koshi.Layout.Proof.AxisFill

/-!
# One offset cell through the distribution

One more cell of offset for a receiver and one less for a donor. Clamping may swallow either of the two. As long as the
donor ends above its floor, no other child ends with fewer cells than before and the donor ends with at most one cell
less; a donor that ends at its floor stays there.
-/

namespace Koshi.Layout

open Base Koshi.Core Finset

/-- The adjusted counts before and after one cell of offset: the donor lost a cell unless its clamp held it, the
receiver gained one or none. -/
structure OffsetStep (room : Nat) (moved next : List Nat) (donor receiver : Nat) : Prop where
  length_eq : next.length = moved.length
  donor_lt : donor < moved.length
  receiver_ne : receiver ≠ donor
  other : ∀ j, j ≠ donor → j ≠ receiver → next.getD j 0 = moved.getD j 0
  donor_step : moved.getD donor 0 = next.getD donor 0 + 1 ∨ (next.getD donor 0 = moved.getD donor 0 ∧
    (moved.getD donor 0 = 0 ∨ moved.getD donor 0 = room))
  receiver_step : next.getD receiver 0 = moved.getD receiver 0 ∨ next.getD receiver 0 = moved.getD receiver 0 + 1

/-- The counts after the repair and the floor pass. -/
def settleCounts (weights : List SizeWeight) (floors : List Nat) (room : Nat) (moved : List Nat) : List Nat :=
  clampCellCountsToFloors (repairCellCountSum moved room) weights floors room

section Step

variable {room donor receiver : Nat} {moved next : List Nat} (hstep : OffsetStep room moved next donor receiver)
include hstep

/-! ### The capacities of the sum repair -/

theorem openLast_step (j : Nat) :
    openLast next room j + (if j = donor then openLast moved room donor - openLast next room donor else 0) =
      openLast moved room j + if j = receiver then openLast next room receiver - openLast moved room receiver
        else 0 := by
  obtain ⟨hlen, hdonor, hne, ho, hdonorStep, hreceiverStep⟩ := hstep
  unfold openLast
  rw [hlen]
  by_cases hjd : j = donor
  · subst hjd
    rw [if_pos rfl, if_neg hne.symm]
    split_ifs <;> omega
  · rw [if_neg hjd]
    by_cases hjr : j = receiver
    · subst hjr
      rw [if_pos rfl]
      split_ifs <;> omega
    · rw [if_neg hjr]
      have hs := ho j hjd hjr
      split_ifs <;> omega

theorem sum_openLast_step (places : Finset Nat) :
    ∑ j ∈ places, openLast next room j + (if donor ∈ places then openLast moved room donor - openLast next room donor
        else 0) =
      ∑ j ∈ places, openLast moved room j +
        if receiver ∈ places then
          openLast next room receiver - openLast moved room receiver
        else 0 := by
  have hsum := sum_congr (rfl : places = places) fun j _ => openLast_step hstep j
  rw [sum_add_distrib, sum_add_distrib, sum_ite_eq', sum_ite_eq'] at hsum
  exact hsum

theorem openLast_donor :
    openLast moved room donor = openLast next room donor + 1 ∨
      (openLast next room donor = openLast moved room donor ∧
        (openLast moved room donor = 0 ∨ openLast moved room donor = room)) := by
  have hdonorStep := hstep.donor_step
  unfold openLast
  rw [hstep.length_eq]
  split_ifs
  · exact .inr ⟨rfl, .inr rfl⟩
  · exact hdonorStep

theorem openLast_receiver_le :
    openLast moved room receiver ≤ openLast next room receiver ∧
      openLast next room receiver ≤ openLast moved room receiver + 1 := by
  have hreceiverStep := hstep.receiver_step
  unfold openLast
  rw [hstep.length_eq]
  split_ifs <;> omega

/-! ### The repaired counts -/

variable (hav : room ≤ u16Max)
include hav

/-- A donor that keeps a cell through the repair: the others lose nothing, and it loses at most one. -/
theorem repair_step (hgives : 0 < (repairCellCountSum moved room).getD donor 0) :
    (∀ j < moved.length, j ≠ donor → (repairCellCountSum moved room).getD j 0 ≤
      (repairCellCountSum next room).getD j 0) ∧
    (repairCellCountSum moved room).getD donor 0 ≤ (repairCellCountSum next room).getD donor 0 + 1 := by
  have hdonorMem := mem_range.mpr hstep.donor_lt
  have hfill := fun j (hj : j < moved.length) => @getD_repairCountSum _ moved hav j hj
  have hfillNext := fun j (hj : j < moved.length) => @getD_repairCountSum _ next hav j (hstep.length_eq ▸ hj)
  rw [hstep.length_eq] at hfillNext
  have hdonor := openLast_donor hstep
  have hto := openLast_receiver_le hstep
  have hshift : ∀ places : Finset Nat, ∑ j ∈ places, openLast next room j ≤
      ∑ j ∈ places, openLast moved room j + 1 := by
    intro places
    have hsum := sum_openLast_step hstep places
    split_ifs at hsum <;> omega
  rw [hfill donor hstep.donor_lt] at hgives
  constructor
  · intro j hj hne
    rw [hfill j hj, hfillNext j hj]
    refine fill_le_fill_of_shift Function.injective_id.injOn hdonorMem hgives ?_ (fun i _ => hshift _) ?_
      (mem_range.mpr hj) hne
    · intro i _ hi
      have hpoint := openLast_step hstep i
      rw [if_neg hi] at hpoint
      omega
    · intro i _ hlr
      have hm : donor ∈ placesBefore (range moved.length) id i := mem_placesBefore.mpr ⟨hdonorMem, hlr⟩
      have hsum := sum_openLast_step hstep (placesBefore (range moved.length) id i)
      rw [if_pos hm] at hsum
      obtain hlost | ⟨hk, hz | hall⟩ := hdonor
      · left
        split_ifs at hsum <;> omega
      · unfold fill at hgives
        omega
      · right
        have hle := single_le_sum (f := openLast moved room) (fun _ _ => Nat.zero_le _) hm
        omega
  · rw [hfill donor hstep.donor_lt, hfillNext donor hstep.donor_lt]
    apply fill_donor_le _ (hshift _)
    omega

theorem repair_donor_le : (repairCellCountSum next room).getD donor 0 ≤
    (repairCellCountSum moved room).getD donor 0 := by
  have hfillNext := @getD_repairCountSum _ next hav donor (hstep.length_eq ▸ hstep.donor_lt)
  rw [hstep.length_eq] at hfillNext
  rw [getD_repairCountSum hav hstep.donor_lt, hfillNext]
  have hsum := sum_openLast_step hstep (placesBefore (range moved.length) id donor)
  have hnot : donor ∉ placesBefore (range moved.length) id donor := by
    rw [mem_placesBefore]
    exact fun h => lt_irrefl _ h.2
  have hdonor := openLast_donor hstep
  rw [if_neg hnot] at hsum
  unfold fill
  split_ifs at hsum <;> omega

/-! ### The counts of the children -/

variable {weights : List SizeWeight} {floors : List Nat} (hfl : floors.length = moved.length)
include hfl

theorem repair_axis :
    AxisCounts floors.length room (repairCellCountSum moved room) ∧
      AxisCounts floors.length room (repairCellCountSum next room) := by
  have hlt := hstep.donor_lt
  have hlen := hstep.length_eq
  refine ⟨⟨?_, ?_⟩, ⟨?_, ?_⟩⟩
  · rw [length_repairCountSum, hfl]
  · exact sum_repairCellCountSum _ _ (List.ne_nil_of_length_pos (by omega)) hav
  · rw [length_repairCountSum, hfl, hlen]
  · exact sum_repairCellCountSum _ _ (List.ne_nil_of_length_pos (by omega)) hav

theorem surplus_step (habove : floors.getD donor 0 < (repairCellCountSum moved room).getD donor 0) {places : Finset Nat}
    (hplaces : places ⊆ range floors.length) :
    ∑ j ∈ places, ((repairCellCountSum next room).getD j 0 - floors.getD j 0) ≤
        ∑ j ∈ places, ((repairCellCountSum moved room).getD j 0 - floors.getD j 0) + 1 ∧
      (donor ∈ places →
        ∑ j ∈ places, ((repairCellCountSum next room).getD j 0 - floors.getD j 0) ≤
          ∑ j ∈ places, ((repairCellCountSum moved room).getD j 0 - floors.getD j 0)) := by
  obtain ⟨haxis, haxisNext⟩ := repair_axis hstep hav hfl
  obtain ⟨hraise, hdonor⟩ := repair_step hstep hav (by omega)
  have hsum := sum_range_getD (repairCellCountSum moved room)
  have hsumNext := sum_range_getD (repairCellCountSum next room)
  rw [haxis.length_eq, haxis.sum_eq] at hsum
  rw [haxisNext.length_eq, haxisNext.sum_eq] at hsumNext
  rw [hfl] at hplaces hsum hsumNext
  exact @sum_tsub_le_of_shift _ _ _ _ (fun j => floors.getD j 0) _ (fun j hj => hraise j (mem_range.mp hj)) hdonor
    (hsum.trans hsumNext.symm) habove (mem_range.mpr hstep.donor_lt) _ hplaces

/-- **One offset cell while the donor ends above its floor**: no other child ends with fewer cells, and the donor ends
with at most one less. -/
theorem settle_step (habove : floors.getD donor 0 < (settleCounts weights floors room moved).getD donor 0) :
    (∀ j < moved.length, j ≠ donor → (settleCounts weights floors room moved).getD j 0 ≤
      (settleCounts weights floors room next).getD j 0) ∧
    (settleCounts weights floors room moved).getD donor 0 ≤
      (settleCounts weights floors room next).getD donor 0 + 1 := by
  have hlt := hstep.donor_lt
  by_cases hfit : floors.sum ≤ room
  · obtain ⟨haxis, haxisNext⟩ := repair_axis hstep hav hfl
    have hfill := fun j (hj : j < floors.length) => @getD_clampCountsToFloors _ weights _ _ hfit haxis j hj
    have hfillNext := fun j (hj : j < floors.length) => @getD_clampCountsToFloors _ weights _ _ hfit haxisNext j hj
    unfold settleCounts at habove ⊢
    rw [hfill donor (by omega)] at habove
    have hroom : floors.getD donor 0 < (repairCellCountSum moved room).getD donor 0 := by
      simp only [fill] at habove
      omega
    obtain ⟨hraise, hdonor⟩ := repair_step hstep hav (by omega)
    have hb := fun i => filter_subset (fun other => protectionKey weights other < protectionKey weights i)
      (range floors.length)
    constructor
    · intro j hj hne
      rw [hfill j (by omega), hfillNext j (by omega), Nat.add_le_add_iff_left]
      apply fill_le_fill_of_shift (protectionKey_injective weights).injOn (mem_range.mpr (hfl ▸ hlt))
        (by omega) ?_ (fun i _ => (surplus_step hstep hav hfl hroom (hb i)).1) ?_
        (mem_range.mpr (hfl ▸ hj)) hne
      · intro i hi hne
        have hi := hraise i (hfl ▸ mem_range.mp hi) hne
        omega
      · intro i _ hlr
        left
        apply (surplus_step hstep hav hfl hroom (hb i)).2
        exact mem_placesBefore.mpr ⟨mem_range.mpr (hfl ▸ hlt), hlr⟩
    · rw [hfill donor (by omega), hfillNext donor (by omega), Nat.add_assoc, Nat.add_le_add_iff_left]
      apply fill_donor_le
      · omega
      · exact (surplus_step hstep hav hfl hroom (hb donor)).1
  · simp only [settleCounts, clampCellCountsToFloors, if_pos (Nat.lt_of_not_le hfit)] at habove ⊢
    exact repair_step hstep hav (by omega)

/-- **A donor at its floor stays there.** -/
theorem settle_spent (hspent : (settleCounts weights floors room moved).getD donor 0 ≤ floors.getD donor 0) :
    (settleCounts weights floors room next).getD donor 0 ≤ floors.getD donor 0 := by
  have hlt := hstep.donor_lt
  have hdonor := repair_donor_le hstep hav
  by_cases hfit : floors.sum ≤ room
  · obtain ⟨haxis, haxisNext⟩ := repair_axis hstep hav hfl
    unfold settleCounts at hspent ⊢
    rw [getD_clampCountsToFloors hfit haxis (by omega)] at hspent
    rw [getD_clampCountsToFloors hfit haxisNext (by omega)]
    by_cases hroom : floors.getD donor 0 < (repairCellCountSum moved room).getD donor 0
    · obtain ⟨hraise, -⟩ := repair_step hstep hav (by omega)
      have hb : ∑ j ∈ placesBefore (range floors.length) (protectionKey weights) donor,
            ((repairCellCountSum moved room).getD j 0 - floors.getD j 0) ≤
          ∑ j ∈ placesBefore (range floors.length) (protectionKey weights) donor,
            ((repairCellCountSum next room).getD j 0 - floors.getD j 0) := by
        apply sum_le_sum
        intro j hj
        obtain ⟨hm, hkey⟩ := mem_placesBefore.mp hj
        have hle := hraise j (hfl ▸ mem_range.mp hm) (by
          rintro rfl
          exact lt_irrefl _ hkey)
        omega
      simp only [fill] at hspent ⊢
      omega
    · simp only [fill]
      omega
  · simp only [settleCounts, clampCellCountsToFloors, if_pos (Nat.lt_of_not_le hfit)] at hspent ⊢
    omega

theorem settle_axis :
    AxisCounts floors.length room (settleCounts weights floors room moved) ∧
      AxisCounts floors.length room (settleCounts weights floors room next) := by
  obtain ⟨haxis, haxisNext⟩ := repair_axis hstep hav hfl
  exact ⟨(clampCountsToFloors_axis haxis).1, (clampCountsToFloors_axis haxisNext).1⟩

def sumBefore (counts : List Nat) (place : Nat) : Nat := ∑ j ∈ range place, counts.getD j 0

def RisesByAtMostOne (low high : Nat) : Prop := low ≤ high ∧ high ≤ low + 1

/-- **The cells before a place** change by at most one: they can only grow when the donor stands at the place or
behind it, and only shrink when it stands before. -/
theorem sumBefore_settle_step (habove : floors.getD donor 0 < (settleCounts weights floors room moved).getD donor 0)
    {place : Nat} (hpc : place ≤ moved.length) :
    (place ≤ donor → RisesByAtMostOne (sumBefore (settleCounts weights floors room moved) place)
      (sumBefore (settleCounts weights floors room next) place)) ∧
    (donor < place → RisesByAtMostOne (sumBefore (settleCounts weights floors room next) place)
      (sumBefore (settleCounts weights floors room moved) place)) := by
  obtain ⟨haxis, haxisNext⟩ := @settle_axis _ _ _ _ _ hstep hav weights _ hfl
  obtain ⟨hraise, hdonor⟩ := settle_step hstep hav hfl habove
  generalize settleCounts weights floors room moved = counts at *
  generalize settleCounts weights floors room next = nextCounts at *
  unfold RisesByAtMostOne sumBefore
  have hsum := sum_range_getD counts
  have hsumNext := sum_range_getD nextCounts
  rw [haxis.length_eq, haxis.sum_eq, hfl] at hsum
  rw [haxisNext.length_eq, haxisNext.sum_eq, hfl] at hsumNext
  have hsub : range place ⊆ range moved.length := range_subset_range.mpr hpc
  have hsp := sum_sdiff (f := fun j => counts.getD j 0) hsub
  have hsplitNext := sum_sdiff (f := fun j => nextCounts.getD j 0) hsub
  have hraise : ∀ j ∈ range moved.length, j ≠ donor → counts.getD j 0 ≤ nextCounts.getD j 0 :=
    fun j hj => hraise j (mem_range.mp hj)
  constructor
  · intro hb
    have hgrow : ∑ j ∈ range place, counts.getD j 0 ≤ ∑ j ∈ range place, nextCounts.getD j 0 := by
      apply sum_le_sum
      intro j hj
      have hlt := mem_range.mp hj
      exact hraise j (hsub hj) (by omega)
    have hr := sum_le_sum_add_one hraise hdonor (sdiff_subset (s := range moved.length) (t := range place))
    omega
  · intro haf
    have hshrink : ∑ j ∈ range moved.length \ range place, counts.getD j 0 ≤
        ∑ j ∈ range moved.length \ range place, nextCounts.getD j 0 := by
      apply sum_le_sum
      intro j hj
      obtain ⟨hm, hnot⟩ := mem_sdiff.mp hj
      rw [mem_range] at hnot
      exact hraise j hm (by omega)
    have hlost := sum_le_sum_add_one hraise hdonor hsub
    omega

end Step

end Koshi.Layout
