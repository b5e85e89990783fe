import Mathlib.Data.Prod.Lex
import Mathlib.Data.List.GetD
import Koshi.Base.Fill
import Koshi.Layout.Proof.Distribute

/-!
# The last two passes as fills

The sum repair hands the axis out in child order, each child taking its adjusted count and the last one whatever is
left. The floor pass hands out the cells above all floors: the rigid children keep theirs first, then the flexible
ones, each group in child order, because donors are drawn from the other end.
-/

namespace Koshi.Layout

open Base Koshi.Core List

variable {index : Nat} {weights : List SizeWeight}

theorem sum_range_getD (counts : List Nat) :
    ∑ index ∈ Finset.range counts.length, counts.getD index 0 = counts.sum := by
  induction counts with
  | nil => rfl
  | cons count counts ih =>
    rw [length_cons, Finset.sum_range_succ', sum_cons, Nat.add_comm, ← ih]
    rfl

/-! ### The sum repair -/

theorem trimCellCounts_zero (counts : List Nat) : trimCellCounts counts 0 = counts := by
  cases counts with
  | nil => rfl
  | cons cellCount counts => simp [trimCellCounts]

theorem getD_trimCellCounts (counts : List Nat) (excess i : Nat) :
    (trimCellCounts counts excess).getD i 0 ≤ counts.getD i 0 ∧
      ((trimCellCounts counts excess).getD i 0 < counts.getD i 0 → ∀ j < i,
        (trimCellCounts counts excess).getD j 0 = 0) := by
  induction counts generalizing excess i with
  | nil => simp [trimCellCounts]
  | cons cellCount counts ih =>
    have hr : trimCellCounts (cellCount :: counts) excess =
        (cellCount - min excess cellCount) :: trimCellCounts counts (excess - min excess cellCount) := by
      simp only [trimCellCounts]
      split_ifs with hdone
      · rw [hdone, trimCellCounts_zero]
      · rfl
    rw [hr]
    obtain _ | i := i
    · simp
    · obtain ⟨hle, hb⟩ := ih (excess - min excess cellCount) i
      simp only [getD_cons_succ]
      refine ⟨hle, fun hlt j hj => ?_⟩
      obtain _ | j := j
      · -- something behind was trimmed, so the first entry did not cover the excess
        have hmore : excess - min excess cellCount ≠ 0 := by
          intro hz
          rw [hz, trimCellCounts_zero] at hlt
          omega
        simp only [getD_cons_zero]
        omega
      · simp only [getD_cons_succ]
        exact hb hlt j (by omega)

theorem getD_reverse_trim {counts : List Nat} {excess i : Nat} (hlt : i < counts.length) :
    (trimCellCounts counts.reverse excess).reverse.getD i 0 =
      (trimCellCounts counts.reverse excess).getD (counts.length - 1 - i) 0 := by
  have hln := length_trimCellCounts counts.reverse excess
  rw [length_reverse] at hln
  rw [getD_reverse i (by omega), hln]

def openLast (moved : List Nat) (room index : Nat) : Nat :=
  if index + 1 = moved.length then room else moved.getD index 0

variable {room : Nat}

/-- **The sum repair as a fill** in child order. -/
theorem getD_repairCountSum {moved : List Nat} (hav : room ≤ u16Max) {index : Nat} (hlt : index < moved.length) :
    (repairCellCountSum moved room).getD index 0 =
      fill (Finset.range moved.length) id (openLast moved room) room
        index := by
  have hne : moved ≠ [] := ne_nil_of_length_pos (by omega)
  have hsum := sum_repairCellCountSum moved room hne hav
  have hln := length_repairCountSum moved room
  have htot := sum_range_getD (repairCellCountSum moved room)
  rw [hln, hsum] at htot
  -- a child other than the last is at most its adjusted count, and below it only when nothing is behind
  have ho : ∀ i, i + 1 < moved.length →
      (repairCellCountSum moved room).getD i 0 ≤ moved.getD i 0 ∧
      ((repairCellCountSum moved room).getD i 0 < moved.getD i 0 →
        ∀ j < moved.length, i < j → (repairCellCountSum moved room).getD j 0 = 0) := by
    intro i hi
    simp only [repairCellCountSum]
    split_ifs with hshort hexcess
    · rw [getD_modify _ _ _ _ (by omega), if_neg (by omega)]
      exact ⟨le_refl _, fun h => absurd h (lt_irrefl _)⟩
    · have htrim := getD_trimCellCounts moved.reverse (moved.sum - room) (moved.length - 1 - i)
      rw [getD_reverse (moved.length - 1 - i) (by omega),
        show moved.length - 1 - (moved.length - 1 - i) = i by omega] at htrim
      rw [getD_reverse_trim (by omega)]
      refine ⟨htrim.1, fun hless j hj hij => ?_⟩
      rw [getD_reverse_trim hj]
      exact htrim.2 hless _ (by omega)
    · exact ⟨le_refl _, fun h => absurd h (lt_irrefl _)⟩
  refine fill_unique (Function.injective_id.injOn) ?_ htot ?_ (Finset.mem_range.mpr hlt)
  · intro i hi
    have hi := Finset.mem_range.mp hi
    unfold openLast
    split_ifs with hl
    · have hle := getD_le_sum (repairCellCountSum moved room) i
      omega
    · exact (ho i (by omega)).1
  · intro i hi hless j hj hij
    have hi := Finset.mem_range.mp hi
    have hj := Finset.mem_range.mp hj
    have hij : i < j := hij
    unfold openLast at hless
    rw [if_neg (by omega)] at hless
    exact (ho i (by omega)).2 hless j hj hij

/-! ### Donors in order -/

/-- The order in which the floor pass protects children: rigid ones before flexible ones, then by index. -/
def protectionKey (weights : List SizeWeight) (index : Nat) : Bool ×ₗ Nat :=
  toLex (isFlexible (weights.getD index .default), index)

theorem protectionKey_injective (weights : List SizeWeight) : Function.Injective (protectionKey weights) := by
  intro i j h
  exact congrArg Prod.snd (toLex.injective h)

/-- One donor gives what it can spare of what is still needed. -/
def giveStep (floors : List Nat) (needed : Nat) (state : List Nat × Nat) (index : Nat) : List Nat × Nat :=
  if state.2 = needed then state
  else
    let givenCellCount :=
      min (state.1.getD index 0 - floors.getD index 0) (needed - state.2)
    (state.1.modify index (· - givenCellCount), state.2 + givenCellCount)

/-- The donors of one pass, trailing first. -/
def listDonors (weights : List SizeWeight) (childCount skipped : Nat) (flexible : Bool) : List Nat :=
  (List.range childCount).reverse.filter fun index =>
    index ≠ skipped ∧ isFlexible (weights.getD index .default) = flexible

theorem foldl_takeDonorStep (weights : List SizeWeight) (floors : List Nat) (needed skipped cc : Nat) (flex : Bool)
    (st : List Nat × Nat) :
    (List.range cc).reverse.foldl (takeDonorStep weights floors needed skipped flex) st =
      (listDonors weights cc skipped flex).foldl (giveStep floors needed)
        st := by
  rw [listDonors, foldl_filter]
  congr 1
  funext st index
  obtain ⟨counts, taken⟩ := st
  simp only [takeDonorStep, giveStep, decide_eq_true_eq]
  by_cases hdone : taken = needed
  · simp [hdone]
  · by_cases hskip : index = skipped
    · simp [hdone, hskip]
    · by_cases hki : isFlexible (weights.getD index .default) = flex
      · rw [if_neg hdone, if_neg (by tauto), if_pos ⟨hskip, hki⟩, if_neg hdone]
      · rw [if_neg hdone, if_pos (.inr hki), if_neg fun h => hki h.2]

variable (floors : List Nat) (needed : Nat)

theorem giveStep_done (counts donors : List Nat) :
    donors.foldl (giveStep floors needed) (counts, needed) = (counts, needed) := by
  induction donors with
  | nil => rfl
  | cons donor donors ih =>
    rw [foldl_cons, giveStep, if_pos rfl]
    exact ih

theorem getD_foldl_giveStep {donors : List Nat} (hnot : index ∉ donors) (st : List Nat × Nat)
    (hdonors : ∀ donor ∈ donors, donor < st.1.length) :
    (donors.foldl (giveStep floors needed) st).1.getD index 0 = st.1.getD index 0 := by
  induction donors generalizing st with
  | nil => rfl
  | cons donor donors ih =>
    rw [mem_cons, not_or] at hnot
    have hlt := hdonors donor mem_cons_self
    have hr := fun other ho => hdonors other (mem_cons_of_mem _ ho)
    rw [foldl_cons]
    by_cases hdone : st.2 = needed
    · rw [giveStep, if_pos hdone]
      exact ih hnot.2 st hr
    · rw [ih hnot.2 _ (by simpa [giveStep, hdone] using hr), giveStep, if_neg hdone]
      dsimp only
      rw [getD_modify _ _ _ _ hlt, if_neg hnot.1]

/-- **A donor gives only once every donor before it has nothing left to spare.** -/
theorem pairwise_foldl_giveStep {donors : List Nat} (hnd : donors.Nodup) (st : List Nat × Nat)
    (hdonors : ∀ donor ∈ donors, donor < st.1.length) (htk : st.2 ≤ needed) :
    donors.Pairwise fun earlier donor =>
      (donors.foldl (giveStep floors needed) st).1.getD donor 0 < st.1.getD donor 0 →
      (donors.foldl (giveStep floors needed) st).1.getD earlier 0 ≤ floors.getD earlier 0 := by
  induction donors generalizing st with
  | nil => exact List.Pairwise.nil
  | cons fst donors ih =>
    obtain ⟨counts, taken⟩ := st
    obtain ⟨hf, hnd⟩ := nodup_cons.mp hnd
    have hlt := hdonors fst mem_cons_self
    have hr := fun other ho => hdonors other (mem_cons_of_mem _ ho)
    dsimp only at hlt hr htk ⊢
    rw [foldl_cons]
    by_cases hdone : taken = needed
    · subst hdone
      have hk := giveStep_done floors taken counts (fst :: donors)
      rw [foldl_cons] at hk
      rw [hk]
      exact pairwise_of_forall fun _ _ h => absurd h (lt_irrefl _)
    · have hstep : giveStep floors needed (counts, taken) fst =
          (counts.modify fst (· - min (counts.getD fst 0 - floors.getD fst 0) (needed - taken)),
            taken + min (counts.getD fst 0 - floors.getD fst 0) (needed - taken)) := if_neg hdone
      rw [hstep]
      have hc := fun i => getD_modify counts
        (· - min (counts.getD fst 0 - floors.getD fst 0) (needed - taken)) fst i hlt
      generalize hgiven : min (counts.getD fst 0 - floors.getD fst 0) (needed - taken) = given at hc ⊢
      have hlr := ih hnd (counts.modify fst (· - given), taken + given) (by simpa using hr) (by dsimp only; omega)
      have hkeptFst := getD_foldl_giveStep floors needed hf
        (counts.modify fst (· - given), taken + given) (by simpa using hr)
      have hdone' : taken + given = needed → donors.foldl (giveStep floors needed)
          (counts.modify fst (· - given), taken + given) = (counts.modify fst (· - given), taken + given) := by
        intro heq
        rw [heq]
        exact giveStep_done floors needed _ donors
      generalize donors.foldl (giveStep floors needed) (counts.modify fst (· - given), taken + given) =
        final at hlr hkeptFst hdone' ⊢
      dsimp only at hlr hkeptFst
      have ho : ∀ donor ∈ donors, (counts.modify fst (· - given)).getD donor 0 = counts.getD donor 0 := by
        intro donor hdonor
        rw [hc, if_neg]
        rintro rfl
        exact hf hdonor
      refine pairwise_cons.mpr ⟨fun donor hdonor hless => ?_, ?_⟩
      · have hspent : taken + given ≠ needed := by
          intro heq
          rw [hdone' heq, ho donor hdonor] at hless
          exact lt_irrefl _ hless
        rw [hkeptFst, hc, if_pos rfl]
        omega
      · refine hlr.imp_of_mem fun her hdonor himp hless => himp ?_
        rw [ho _ hdonor]
        exact hless

/-- The donors of both passes, in the order they give. -/
def listAllDonors (weights : List SizeWeight) (childCount skipped : Nat) : List Nat :=
  listDonors weights childCount skipped true ++ listDonors weights childCount skipped false

theorem mem_listDonors {cc skipped : Nat} {flexible : Bool} :
    index ∈ listDonors weights cc skipped flexible ↔
      index < cc ∧ index ≠ skipped ∧ isFlexible (weights.getD index .default) = flexible := by
  rw [listDonors, mem_filter, mem_reverse, mem_range, decide_eq_true_eq]

theorem mem_listAllDonors {cc skipped : Nat} :
    index ∈ listAllDonors weights cc skipped ↔ index < cc ∧ index ≠ skipped := by
  rw [listAllDonors, mem_append, mem_listDonors, mem_listDonors]
  cases isFlexible (weights.getD index .default) <;> simp

theorem pairwise_listAllDonors (weights : List SizeWeight) (cc skipped : Nat) :
    (listAllDonors weights cc skipped).Pairwise fun earlier donor =>
      protectionKey weights donor < protectionKey weights earlier := by
  have hrng : (List.range cc).reverse.Pairwise (· > ·) :=
    pairwise_reverse.mpr pairwise_lt_range
  have hpass : ∀ flex,
      (listDonors weights cc skipped flex).Pairwise fun earlier donor =>
        protectionKey weights donor < protectionKey weights earlier := by
    intro flex
    refine (hrng.filter _).imp_of_mem fun her hdonor hlt => ?_
    have hearlierKind := (mem_listDonors.mp her).2.2
    have hdonorKind := (mem_listDonors.mp hdonor).2.2
    rw [protectionKey, protectionKey, Prod.Lex.toLex_lt_toLex, hearlierKind, hdonorKind]
    exact .inr ⟨rfl, hlt⟩
  refine pairwise_append.mpr ⟨hpass true, hpass false, fun earlier her donor hdonor => ?_⟩
  have hearlierKind := (mem_listDonors.mp her).2.2
  have hdonorKind := (mem_listDonors.mp hdonor).2.2
  rw [protectionKey, protectionKey, Prod.Lex.toLex_lt_toLex, hearlierKind, hdonorKind]
  exact .inl Bool.false_lt_true

theorem takeDonorCount_all_eq (counts : List Nat) (weights : List SizeWeight) (floors : List Nat)
    (needed skipped : Nat) :
    takeDonorCellCount counts weights floors needed skipped .allChildren =
      (listAllDonors weights counts.length skipped).foldl (giveStep floors needed) (counts, 0) := by
  simp only [takeDonorCellCount, foldl_takeDonorStep]
  rw [if_neg (by decide), listAllDonors, List.foldl_append]

theorem takeDonorCount_order {counts : List Nat} (weights : List SizeWeight) (floors : List Nat) (needed : Nat)
    {skipped kept' other' : Nat} (hprotected : kept' < counts.length) (ho : other' < counts.length)
    (hne : other' ≠ skipped) (hkey : protectionKey weights kept' < protectionKey weights other')
    (hgave : (takeDonorCellCount counts weights floors needed skipped .allChildren).1.getD
      kept' 0 < counts.getD kept' 0) :
    (takeDonorCellCount counts weights floors needed skipped .allChildren).1.getD other' 0 ≤ floors.getD other' 0 := by
  have hord := pairwise_listAllDonors weights counts.length skipped
  have hnd : (listAllDonors weights counts.length skipped).Nodup := by
    refine hord.imp ?_
    rintro earlier _ hlt rfl
    exact lt_irrefl _ hlt
  have hpairs := pairwise_foldl_giveStep floors needed hnd (counts, 0)
    (fun donor hdonor => (mem_listAllDonors.mp hdonor).1) (Nat.zero_le _)
  rw [← takeDonorCount_all_eq] at hpairs
  have hskipped : kept' ≠ skipped := by
    rintro rfl
    have hk := (@takeDonorCellCount_inv counts weights floors needed kept' .allChildren).skipped_eq
    omega
  obtain ⟨i, hi, hotherAt⟩ := mem_iff_getElem.mp (mem_listAllDonors.mpr ⟨ho, hne⟩)
  obtain ⟨j, hj, hprotectedAt⟩ := mem_iff_getElem.mp (mem_listAllDonors.mpr ⟨hprotected, hskipped⟩)
  obtain hlt | rfl | hlt := Nat.lt_trichotomy i j
  · have hpr := pairwise_iff_getElem.mp hpairs i j hi hj hlt
    rw [hotherAt, hprotectedAt] at hpr
    exact hpr hgave
  · rw [hotherAt] at hprotectedAt
    rw [hprotectedAt] at hkey
    exact absurd hkey (lt_irrefl _)
  · have hpr := pairwise_iff_getElem.mp hord j i hj hi hlt
    rw [hotherAt, hprotectedAt] at hpr
    exact absurd hkey (lt_asymm hpr)

/-! ### The floor pass -/

/-- The floor pass against the counts it started from: a child is raised to its floor and never past it, gives down to
it and no further, and gave only where no less protected child can spare a cell. -/
structure FloorOrder (weights : List SizeWeight) (floors starts counts : List Nat) : Prop where
  upper : ∀ j, counts.getD j 0 ≤ max (starts.getD j 0) (floors.getD j 0)
  lower : ∀ j, min (starts.getD j 0) (floors.getD j 0) ≤ counts.getD j 0
  order : ∀ i < starts.length, ∀ j < starts.length, protectionKey weights i < protectionKey weights j →
    counts.getD i 0 < starts.getD i 0 → counts.getD j 0 ≤ floors.getD j 0

theorem clampCountToFloor_order {floors starts counts : List Nat} (hfit : floors.sum ≤ room)
    (hln : starts.length = floors.length) (haxis : AxisCounts floors.length room counts) (hlt : index < floors.length)
    (hord : FloorOrder weights floors starts counts) :
    FloorOrder weights floors starts (clampCellCountToFloor weights floors counts index) := by
  obtain ⟨hlen, hsum⟩ := haxis
  simp only [clampCellCountToFloor]
  split_ifs with hbelow
  · have htk := @takeDonorCellCount_all _ weights _ index hlen.symm (by omega) (by omega)
    have hdonor := @takeDonorCellCount_inv counts weights floors
      (floors.getD index 0 - counts.getD index 0) index .allChildren
    have hgave := fun i hi j hj hne hkey => @takeDonorCount_order counts weights floors
      (floors.getD index 0 - counts.getD index 0) index i j hi hj hne hkey
    generalize takeDonorCellCount counts weights floors
      (floors.getD index 0 - counts.getD index 0) index .allChildren = result at htk hdonor hgave ⊢
    obtain ⟨taken, takenCellCount⟩ := result
    obtain ⟨hlen', -, -, hskip, hlower, hupper⟩ := hdonor
    dsimp only at hlen' hskip hlower hupper htk hgave ⊢
    have hg := fun j => getD_modify taken (· + takenCellCount) index j (by omega)
    have hraised : taken.getD index 0 + takenCellCount = floors.getD index 0 := by omega
    refine ⟨fun j => ?_, fun j => ?_, fun i hi j hj hkey hless => ?_⟩
    · rw [hg]
      split_ifs with hj
      · subst hj
        omega
      · exact le_trans (hupper j) (hord.upper j)
    · rw [hg]
      have hst := hord.lower j
      split_ifs with hj
      · subst hj
        omega
      · have hk := hlower j
        omega
    · rw [hg] at hless ⊢
      have hst := hord.lower i
      by_cases hji : j = index
      · rw [if_pos hji, hraised, hji]
      · rw [if_neg hji]
        by_cases hichild : i = index
        · subst hichild
          rw [if_pos rfl] at hless
          omega
        · rw [if_neg hichild] at hless
          by_cases halready : counts.getD i 0 < starts.getD i 0
          · exact le_trans (hupper j) (hord.order i hi j hj hkey halready)
          · exact hgave i (by omega) j (by omega) hji hkey (by omega)
  · exact hord

/-- **The floor pass as a fill** of the cells above the floors, the least protected child last. -/
theorem getD_clampCountsToFloors {weights : List SizeWeight} {floors starts : List Nat} (hfit : floors.sum ≤ room)
    (haxis : AxisCounts floors.length room starts) {index : Nat} (hlt : index < floors.length) :
    (clampCellCountsToFloors starts weights floors room).getD index 0 =
      floors.getD index 0 + fill (Finset.range floors.length) (protectionKey weights)
        (fun i => starts.getD i 0 - floors.getD i 0) (room - floors.sum) index := by
  have hclamped := @clampCountsToFloors_axis _ weights floors _ haxis
  obtain ⟨⟨hlen, hsum⟩, hfloor⟩ := hclamped
  have hfloor := hfloor hfit
  have hord : FloorOrder weights floors starts (clampCellCountsToFloors starts weights floors room) := by
    simp only [clampCellCountsToFloors, if_neg (Nat.not_lt.mpr hfit)]
    refine (@foldl_range_keeps _ (fun doneCount counts => ClampInv floors room doneCount counts ∧
      FloorOrder weights floors starts counts) (clampCellCountToFloor weights floors) starts.length
      starts ⟨⟨haxis, fun j hj => absurd hj (Nat.not_lt_zero j)⟩, ?_⟩ ?_).2
    · exact ⟨fun j => le_max_left _ _, fun j => min_le_left _ _, fun i _ j _ _ hless => absurd hless (lt_irrefl _)⟩
    · rintro i counts hi ⟨hiv, hcn⟩
      have hi : i < floors.length := haxis.length_eq ▸ hi
      exact ⟨clampCountToFloor_inv hfit hi hiv, clampCountToFloor_order hfit haxis.length_eq hiv.axis hi hcn⟩
  generalize clampCellCountsToFloors starts weights floors room = counts at hlen hsum hfloor hord ⊢
  have hstartLen := haxis.length_eq
  have htot := sum_range_getD counts
  have hfl := sum_range_getD floors
  rw [hlen] at htot
  have hspare : ∑ i ∈ Finset.range floors.length, (counts.getD i 0 - floors.getD i 0) = room - floors.sum := by
    rw [← hsum, ← htot, ← hfl]
    exact Finset.sum_tsub_distrib _ fun i _ => hfloor i
  have hunique := @fill_unique _ _ _ (Finset.range floors.length) (protectionKey weights)
    (protectionKey_injective weights).injOn (fun i => starts.getD i 0 - floors.getD i 0)
    (fun i => counts.getD i 0 - floors.getD i 0) _ (fun i _ => by
      have hupper := hord.upper i
      have hfloor := hfloor i
      omega) hspare (fun i hi hless j hj hkey => by
      have hnone := hord.order i (by rw [hstartLen]; exact Finset.mem_range.mp hi) j
        (by rw [hstartLen]; exact Finset.mem_range.mp hj) hkey (by have := hfloor i; omega)
      omega) index (Finset.mem_range.mpr hlt)
  have hfloor := hfloor index
  omega

end Koshi.Layout
