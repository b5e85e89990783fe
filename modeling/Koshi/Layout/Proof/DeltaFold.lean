import Mathlib.Data.List.GetD
import Koshi.Base.Transfer
import Koshi.Layout.Proof.CheckedDistribute
import Koshi.Layout.Path
import Koshi.Layout.Proof.DeltaConversion

/-!
# The fold of preferred resize deltas

Where no limit is met, a preferred target moves a child's cells to its receiver, the sum repair evens out on the last
child, and a resize delta is added as it stands: both orders are linear passes over the counts. Their difference is
the sum of the deltas times what the preferred pass does to one cell of the last child. So the folded split solves to
the earlier sizes exactly when the deltas sum to zero, or the last child is not itself folded.
-/

namespace Koshi.Layout

open Base Koshi.Core List Option SizeWeight

variable {sizes : List Nat} (weights : List SizeWeight) {room index cc : Nat} (sp : SplitNode LayoutNode)

/-- The counts of an axis as signed amounts. -/
def countsAt (counts : List Nat) : Nat → Int := fun index => counts.getD index 0

/-- The resize deltas of an axis. -/
def deltasAt (weights : List SizeWeight) : Nat → Int := fun index => (weights.getD index .default).resizeDelta

variable (counts : List Nat)

theorem sum_countsAt : ∑ index ∈ Finset.range counts.length, countsAt counts index = counts.sum := by
  induction counts with
  | nil => rfl
  | cons cellCount counts ih =>
    rw [length_cons, Finset.sum_range_succ', sum_cons, Nat.cast_add, ← ih, add_comm]
    rfl

theorem ext_countsAt {otherCounts : List Nat} (hlen : sizes.length = otherCounts.length)
    (h : ∀ index < sizes.length, countsAt sizes index = countsAt otherCounts index) :
    sizes = otherCounts := by
  refine ext_getElem hlen fun index hlt hlt' => ?_
  have hc := h index hlt
  simpa [countsAt, hlt, hlt'] using hc

/-! ### The shares never exceed the axis -/

theorem sum_set_le (i value : Nat) : (counts.set i value).sum ≤ counts.sum + value := by
  induction counts generalizing i with
  | nil => simp
  | cons count counts ih =>
    cases i with
    | zero =>
      rw [set_cons_zero, sum_cons, sum_cons]
      omega
    | succ i =>
      have := ih i
      rw [set_cons_succ, sum_cons, sum_cons]
      omega

theorem sum_claimFixedStep_le (claims : List Nat × Nat) (weightAt : SizeWeight × Nat) :
    (claimFixedStep claims weightAt).1.sum + (claimFixedStep claims weightAt).2 ≤ claims.1.sum + claims.2 := by
  obtain ⟨sizes, rest⟩ := claims
  obtain ⟨wt, index⟩ := weightAt
  simp only [claimFixedStep]
  cases wt.primaryConstraint with
  | fixed fixedCellCount =>
    have := sum_set_le sizes index (min fixedCellCount rest)
    dsimp only
    omega
  | flex _ | percent _ | minimum _ | preferred _ => exact Nat.le_refl _

theorem sum_claimPercentStep_le (room : Nat) (claims : List Nat × Nat) (weightAt : SizeWeight × Nat) :
    (claimPercentStep room claims weightAt).1.sum +
      (claimPercentStep room claims weightAt).2 ≤ claims.1.sum + claims.2 := by
  obtain ⟨sizes, rest⟩ := claims
  obtain ⟨wt, index⟩ := weightAt
  simp only [claimPercentStep]
  cases wt.primaryConstraint with
  | percent percentValue =>
    have := sum_set_le sizes index (min (computePercentCellCount room percentValue) rest)
    dsimp only
    omega
  | flex _ | fixed _ | minimum _ | preferred _ => exact Nat.le_refl _

/-- The loop of the flexible shares: the counts grew by no more than was assigned, and no more was assigned than the
shares so far. -/
theorem foldl_shareFlexibleStep_le (pool total : Nat) (pairs : List (Nat × Nat)) (st : List Nat × Nat) :
    let next := pairs.foldl (shareFlexibleStep pool total) st
    next.1.sum + st.2 ≤ st.1.sum + next.2 ∧ next.2 ≤ st.2 + (pairs.map fun pair => pool * pair.2 / total).sum := by
  induction pairs generalizing st with
  | nil => exact ⟨Nat.le_refl _, Nat.le_refl _⟩
  | cons pair pairs ih =>
    obtain ⟨hsum, hassigned⟩ := ih (shareFlexibleStep pool total st pair)
    have hcast : asU16 (pool * pair.2 / total) ≤ pool * pair.2 / total := Nat.mod_le _ _
    have hset := sum_set_le st.1 pair.1 (asU16 (pool * pair.2 / total))
    simp only [shareFlexibleStep] at hsum hassigned
    simp only [foldl_cons, map_cons, sum_cons, shareFlexibleStep]
    omega

theorem sum_foldl_addLeftoverStep_le (pairs : List (Nat × Nat)) (counts : List Nat) :
    (pairs.foldl addLeftoverStep counts).sum ≤ counts.sum + pairs.length := by
  induction pairs generalizing counts with
  | nil => exact Nat.le_refl _
  | cons pair pairs ih =>
    have hstep : (addLeftoverStep counts pair).sum ≤ counts.sum + 1 := by
      rw [addLeftoverStep, ← set_getD_eq_modify counts (· + 1)]
      rcases Nat.lt_or_ge pair.1 counts.length with hlt | hge
      · have := sum_modify counts (· + 1) pair.1 hlt
        rw [set_getD_eq_modify counts (· + 1)]
        omega
      · rw [set_eq_of_length_le hge]
        exact Nat.le_succ _
    have := ih (addLeftoverStep counts pair)
    rw [foldl_cons, length_cons]
    omega

/-- **The shares sum to at most the axis.** -/
theorem sum_shareCounts_le (room : Nat) : (computeShareCellCounts weights room).sum ≤ room := by
  have hclaims : (weights.zipIdx.foldl (claimPercentStep room) (weights.zipIdx.foldl claimFixedStep
      (List.replicate weights.length 0, room))).1.sum + (weights.zipIdx.foldl
        (claimPercentStep room) (weights.zipIdx.foldl claimFixedStep
          (List.replicate weights.length 0, room))).2 ≤ room := by
    refine foldl_keeps (fun claims : List Nat × Nat => claims.1.sum + claims.2 ≤ room) ?_
      fun claims hclaims weightAt _ => le_trans (sum_claimPercentStep_le _ _ _) hclaims
    exact foldl_keeps (fun claims : List Nat × Nat => claims.1.sum + claims.2 ≤ room) (by simp)
      fun claims hclaims weightAt _ => le_trans (sum_claimFixedStep_le _ _) hclaims
  simp only [computeShareCellCounts]
  generalize weights.zipIdx.foldl (claimPercentStep room) (weights.zipIdx.foldl claimFixedStep
    (List.replicate weights.length 0, room)) = claims at hclaims ⊢
  obtain ⟨claimed, rest⟩ := claims
  dsimp only at hclaims ⊢
  split_ifs
  · omega
  · generalize listFlexibleChildWeightPairs weights = pairs
    obtain ⟨hsum, hassigned⟩ := foldl_shareFlexibleStep_le rest (pairs.map (·.2)).sum pairs (claimed, 0)
    have hpool := sum_shares_le_pool rest (pairs.map (·.2))
    rw [List.map_map, Function.comp_def] at hpool
    generalize pairs.foldl (shareFlexibleStep rest (pairs.map (·.2)).sum) (claimed, 0) = sh at hsum hassigned ⊢
    have hleftover := sum_foldl_addLeftoverStep_le (pairs.reverse.take (rest - sh.2)) sh.1
    rw [length_take] at hleftover
    dsimp only at hsum hassigned hleftover ⊢
    omega

/-! ### The repair, on the last child -/

theorem modify_last (lastCount : Nat) (f : Nat → Nat) :
    (counts ++ [lastCount]).modify counts.length f = counts ++ [f lastCount] := by
  induction counts with
  | nil => rfl
  | cons count counts ih => exact congrArg (count :: ·) ih

theorem repairCountSum_eq_modify (hav : room ≤ u16Max) (hexcess : sizes.sum ≤ room + sizes.getD (sizes.length - 1) 0) :
    repairCellCountSum sizes room = sizes.modify (sizes.length - 1) (· + room - sizes.sum) := by
  rcases eq_nil_or_concat sizes with rfl | ⟨counts, lastCount, rfl⟩
  · exact eq_nil_of_length_eq_zero (length_repairCountSum [] room)
  have hmodify : ∀ f : Nat → Nat, (counts.concat lastCount).modify ((counts.concat lastCount).length - 1) f =
      counts ++ [f lastCount] := by
    intro f
    rw [concat_eq_append, length_append, length_singleton, Nat.add_sub_cancel, modify_last]
  have hl : (counts.concat lastCount).getD ((counts.concat lastCount).length - 1) 0 = lastCount := by simp
  rw [hl] at hexcess
  rw [hmodify, repairCellCountSum]
  generalize htot : (counts.concat lastCount).sum = totalCellCount at hexcess ⊢
  split_ifs with hshort hover
  · rw [hmodify, asU16_of_le (by omega), Nat.add_sub_assoc (by omega)]
  · rw [concat_eq_append, reverse_append, reverse_singleton, singleton_append, trimCellCounts,
      Nat.min_eq_left (by omega), Nat.sub_self, if_pos rfl, reverse_cons, reverse_reverse]
    congr 2
    omega
  · rw [concat_eq_append]
    congr 2
    omega

/-- The repair in closed form: what is missing or left over falls on the last child. -/
theorem countsAt_repairCountSum (hne : sizes ≠ []) (hav : room ≤ u16Max)
    (hexcess : sizes.sum ≤ room + sizes.getD (sizes.length - 1) 0) :
    countsAt (repairCellCountSum sizes room) = countsAt sizes -
      ((sizes.sum : Int) - room) • Pi.single (sizes.length - 1) 1 := by
  have hlen := length_pos_iff.2 hne
  rw [repairCountSum_eq_modify hav hexcess]
  funext index
  rw [countsAt, getD_modify _ _ _ _ (by omega)]
  simp only [countsAt, Pi.sub_apply, Pi.smul_apply, Pi.single_apply, smul_eq_mul]
  split_ifs with h
  · subst h
    push_cast [Nat.cast_sub (by omega : sizes.sum ≤ sizes.getD (sizes.length - 1) 0 + room)]
    ring
  · ring

/-! ### Targets reached without a limit -/

/-- Where the preferred pass takes a child's cells: to its receiver when it has a target. -/
def receiverRoute (weights : List SizeWeight) : Nat → Option Nat := fun index =>
  if (getPreferredCellCount (weights.getD index .default)).isSome then findSurplusReceiver weights index
  else none

/-- The preferred step of one child meets no floor: a surplus goes down to the target, and the receiver alone can
give a deficit. -/
def StepWithoutLimit (weights : List SizeWeight) (floors counts : List Nat) (index : Nat) : Prop :=
  ∀ goal ∈ getPreferredCellCount (weights.getD index .default),
    ∀ receiver ∈ findSurplusReceiver weights index,
      (goal < counts.getD index 0 → floors.getD index 0 ≤ goal) ∧
      (counts.getD index 0 < goal → floors.getD receiver 0 + goal ≤ counts.getD receiver 0 + counts.getD index 0)

section Donor

variable {weights : List SizeWeight} {floors : List Nat} {needed skipped : Nat}

theorem foldl_takeDonorStep_skip {donors : List Nat} (st : List Nat × Nat)
    (h : ∀ index ∈ donors, ¬ (index ≠ skipped ∧ isFlexible (weights.getD index .default) = true)) :
    donors.foldl (takeDonorStep weights floors needed skipped true) st = st := by
  refine foldl_keeps (· = st) rfl fun next hn index hm => ?_
  obtain ⟨counts, taken⟩ := next
  have hskip := h index hm
  rw [← hn, takeDonorStep]
  split_ifs with hdone hskipped
  · rfl
  · rfl
  · rw [not_or, not_not] at hskipped
    exact absurd hskipped hskip

theorem foldl_takeDonorStep_done (donors : List Nat) (counts : List Nat) :
    donors.foldl (takeDonorStep weights floors needed skipped true) (counts, needed) = (counts, needed) :=
  foldl_keeps (· = (counts, needed)) rfl fun next hn index _ => by
    rw [hn, takeDonorStep, if_pos rfl]

theorem takeDonorCount_first {counts : List Nat} (hlen : counts.length = weights.length) {donor : Nat}
    (hdonor : findSurplusReceiver weights skipped = some donor) (hneeded : 0 < needed)
    (hspare : needed ≤ counts.getD donor 0 - floors.getD donor 0) :
    takeDonorCellCount counts weights floors needed skipped .flexibleOnly =
      (counts.modify donor (· - needed), needed) := by
  rw [findSurplusReceiver, ← hlen, List.find?_eq_some_iff_append] at hdonor
  obtain ⟨hfo, before, after, hsp, hb⟩ := hdonor
  rw [Bool.and_eq_true, decide_eq_true_eq] at hfo
  have hskip := @foldl_takeDonorStep_skip weights floors needed skipped before (counts, 0)
    fun index hm hsibling => by
      have hnot := hb index hm
      rw [hsibling.2, decide_eq_true hsibling.1] at hnot
      cases hnot
  have hgive : takeDonorStep weights floors needed skipped true (counts, 0) donor =
      (counts.modify donor (· - needed), needed) := by
    rw [takeDonorStep, if_neg (by omega), if_neg (not_or.2 ⟨hfo.1, not_not.2 hfo.2⟩)]
    dsimp only
    rw [Nat.sub_zero, Nat.min_eq_right hspare, Nat.zero_add]
  rw [takeDonorCellCount, hsp, if_pos rfl, List.foldl_append, foldl_cons, hskip, hgive]
  exact foldl_takeDonorStep_done after _

theorem takeDonorCount_none {counts : List Nat} (hlen : counts.length = weights.length)
    (hdonor : findSurplusReceiver weights skipped = none) :
    takeDonorCellCount counts weights floors needed skipped .flexibleOnly = (counts, 0) := by
  rw [findSurplusReceiver, ← hlen, List.find?_eq_none] at hdonor
  rw [takeDonorCellCount, if_pos rfl]
  refine foldl_takeDonorStep_skip _ fun index hm => ?_
  simpa using hdonor index hm

end Donor

/-- A child's target as a signed amount; `0` without one. -/
def targetAt (weights : List SizeWeight) (index : Nat) : Int :=
  (getPreferredCellCount (weights.getD index .default)).getD 0

theorem transfer_to_target (goal : Nat) {receiver : Nat} (hne : receiver ≠ index) (place : Nat) :
    (transfer index receiver (countsAt counts - (goal : Int) • Pi.single index 1) +
      (goal : Int) • Pi.single index 1 : Nat → Int) place =
    if place = index then (goal : Int)
    else if place = receiver then (counts.getD receiver 0 : Int) + counts.getD index 0 - goal
    else counts.getD place 0 := by
  simp only [transfer, countsAt, Pi.add_apply, Pi.sub_apply, Pi.smul_apply, Pi.single_apply, smul_eq_mul, if_true]
  by_cases hpc : place = index
  · subst hpc
    simp [hne.symm]
  · by_cases ho : place = receiver
    · subst ho
      simp only [hpc, if_true, if_false]
      ring
    · simp [hpc, ho]

/-- **The preferred step in closed form**: what a child holds beyond its target goes to its receiver. -/
theorem countsAt_applyPreferredCount {weights : List SizeWeight} {floors : List Nat}
    (hlen : sizes.length = weights.length) (hsum : sizes.sum ≤ u16Max) (hlt : index < weights.length)
    (hstep : StepWithoutLimit weights floors sizes index) :
    countsAt (applyPreferredCellCount weights floors sizes index) =
      transferStep (receiverRoute weights) (countsAt sizes - targetAt weights index • Pi.single index 1) index +
        targetAt weights index • Pi.single index 1 := by
  rw [applyPreferredCellCount, transferStep, receiverRoute, targetAt]
  unfold StepWithoutLimit at hstep
  cases htgt : getPreferredCellCount (weights.getD index .default) with
  | none =>
    rw [isSome_none, if_neg Bool.false_ne_true]
    exact (sub_add_cancel _ _).symm
  | some goal =>
    have hown := getD_le_sum sizes index
    dsimp only
    rw [isSome_some, if_pos rfl]
    cases hto : findSurplusReceiver weights index with
    | none =>
      rw [sub_add_cancel, takeDonorCount_none hlen hto]
      dsimp only
      split_ifs
      · rfl
      · funext place
        rw [countsAt, getD_modify _ _ _ _ (by omega), satAdd16_of_le (by omega), countsAt]
        split_ifs with hpc
        · rw [hpc, Nat.add_zero]
        · rfl
      · rfl
    | some receiver =>
      obtain ⟨hrlt, hrne⟩ := findSurplusReceiver_spec hto
      obtain ⟨hsurplus, hdeficit⟩ := hstep goal htgt receiver hto
      have hboth := getD_add_getD_le_sum sizes receiver index hrne
      dsimp only
      rw [getD_some]
      funext place
      rw [transfer_to_target _ _ hrne, countsAt]
      rcases Nat.lt_trichotomy goal (sizes.getD index 0) with hover | hequal | hunder
      · rw [if_pos hover, Nat.max_eq_left (hsurplus hover), getD_modify _ _ _ _ (by simp; omega),
          getD_modify _ _ _ _ (by omega), getD_modify _ _ _ _ (by omega), if_neg hrne, satAdd16_of_le (by omega)]
        split_ifs <;> omega
      · rw [if_neg (by omega), if_neg (by omega)]
        split_ifs with hpc ho
        · rw [hpc, hequal]
        · rw [ho]
          omega
        · rfl
      · have hgive := hdeficit hunder
        rw [if_neg (by omega), if_pos hunder, takeDonorCount_first hlen hto (by omega) (by omega)]
        dsimp only
        rw [getD_modify _ _ _ _ (by simp; omega), getD_modify _ _ _ _ (by omega), getD_modify _ _ _ _ (by omega),
          if_neg hrne.symm, satAdd16_of_le (by omega)]
        split_ifs <;> omega

/-! ### Runs without a limit -/

/-- The preferred pass meets no floor at any of its steps. -/
def TargetsWithoutLimit (weights : List SizeWeight) (floors counts : List Nat) : Prop :=
  ∀ index < weights.length, StepWithoutLimit weights floors
    ((List.range index).foldl (applyPreferredCellCount weights floors) counts) index

/-- The resize pass clamps no count, and its sum repair trims no more than the last child holds. -/
structure DeltasWithoutLimit (weights : List SizeWeight) (counts : List Nat) (room : Nat) :
    Prop where
  within : ∀ index < weights.length, 0 ≤ countsAt counts index + deltasAt weights index ∧
    countsAt counts index + deltasAt weights index ≤ room
  excess : (counts.sum : Int) + ∑ index ∈ Finset.range weights.length, deltasAt weights index ≤
    room + (countsAt counts (weights.length - 1) + deltasAt weights (weights.length - 1))

/-- The earlier distribution meets no floor and clamps nothing. -/
structure EarlierWithoutLimit (weights : List SizeWeight) (floors : List Nat) (room : Nat) : Prop where
  deltas : DeltasWithoutLimit weights (computeShareCellCounts weights room) room
  targets : TargetsWithoutLimit weights floors (applyResizeDeltas (computeShareCellCounts weights room) weights room)
  floors_le : ∀ index < weights.length, floors.getD index 0 ≤ (applyPreferredCellCounts (applyResizeDeltas
    (computeShareCellCounts weights room) weights room) weights floors).getD index 0

/-- The current distribution meets no floor and clamps nothing. -/
structure CurrentWithoutLimit (weights : List SizeWeight) (floors : List Nat) (room : Nat) : Prop where
  targets : TargetsWithoutLimit weights floors (repairCellCountSum (computeShareCellCounts weights room) room)
  deltas : DeltasWithoutLimit weights (computeTargetCellCounts weights floors room) room
  floors_le : ∀ index < weights.length, floors.getD index 0 ≤ (applyResizeDeltas (computeTargetCellCounts
    weights floors room) weights room).getD index 0

section Runs

variable {weights : List SizeWeight} {floors : List Nat} {room : Nat}

variable {sizes : List Nat}

theorem floors_le_of_lt (hlen : floors.length = weights.length)
    (h : ∀ index < weights.length, floors.getD index 0 ≤ sizes.getD index 0) (index : Nat) :
    floors.getD index 0 ≤ sizes.getD index 0 := by
  rcases Nat.lt_or_ge index weights.length with hlt | hge
  · exact h index hlt
  · rw [getD_of_length_le (by omega)]
    exact Nat.zero_le _

theorem countsAt_of_length_le {index : Nat} (h : sizes.length ≤ index) : countsAt sizes index = 0 := by
  rw [countsAt, getD_of_length_le h]
  rfl

theorem deltasAt_of_length_le {index : Nat} (h : weights.length ≤ index) : deltasAt weights index = 0 := by
  rw [deltasAt, getD_eq_getElem?_getD, List.getElem?_eq_none h]
  rfl

/-- **The resize pass in closed form** where it meets no limit. -/
theorem countsAt_applyDeltas (hav : room ≤ u16Max) (hne : weights ≠ []) (hlen : sizes.length = weights.length)
    (hdeltas : DeltasWithoutLimit weights sizes room) :
    countsAt (applyResizeDeltas sizes weights room) =
      countsAt sizes + deltasAt weights - ((sizes.sum : Int) +
        ∑ index ∈ Finset.range weights.length, deltasAt weights index - room) • Pi.single (weights.length - 1) 1 := by
  have hpos := length_pos_iff.2 hne
  generalize hadded : List.zipWith (addClampedDelta room) sizes weights = addedCellCounts
  have hln : addedCellCounts.length = weights.length := by simp [← hadded, hlen]
  have hcn : countsAt addedCellCounts = countsAt sizes + deltasAt weights := by
    funext index
    rw [Pi.add_apply]
    rcases Nat.lt_or_ge index weights.length with hlt | hge
    · have hw := hdeltas.within index hlt
      rw [countsAt, deltasAt, getD_eq_getElem _ _ (by omega), getD_eq_getElem _ _ hlt] at hw
      rw [countsAt, countsAt, deltasAt, getD_eq_getElem _ _ (by omega), getD_eq_getElem _ _ (by omega),
        getD_eq_getElem _ _ hlt]
      simp only [← hadded, getElem_zipWith, addClampedDelta]
      omega
    · rw [countsAt_of_length_le (by omega), countsAt_of_length_le (by omega), deltasAt_of_length_le hge, add_zero]
  have hsum : (addedCellCounts.sum : Int) = sizes.sum +
      ∑ index ∈ Finset.range weights.length, deltasAt weights index := by
    rw [← sum_countsAt, ← sum_countsAt, hln, hlen, ← Finset.sum_add_distrib, hcn]
    rfl
  have hl : ((addedCellCounts.getD (addedCellCounts.length - 1) 0 : Nat) : Int) =
      countsAt sizes (weights.length - 1) + deltasAt weights (weights.length - 1) := by
    rw [hln]
    exact congrFun hcn _
  have hexcess := hdeltas.excess
  rw [applyResizeDeltas_eq _ hlen, hadded, countsAt_repairCountSum _ hav (by omega), hcn, hsum, hln]
  intro hnil
  rw [hnil] at hln
  exact absurd hln (by simp; omega)

/-- **Two runs of the preferred pass differ by the pass over their difference.** -/
theorem countsAt_applyPreferredCounts_sub {oldCounts nextCounts : List Nat} (hav : room ≤ u16Max)
    (hf : AxisCounts weights.length room oldCounts) (hse : AxisCounts weights.length room nextCounts)
    (hfstTargets : TargetsWithoutLimit weights floors oldCounts)
    (hsndTargets : TargetsWithoutLimit weights floors nextCounts) :
    countsAt (applyPreferredCellCounts oldCounts weights floors) -
        countsAt (applyPreferredCellCounts nextCounts weights floors) =
      transferPass (receiverRoute weights) weights.length (countsAt oldCounts - countsAt nextCounts) := by
  have hrun : ∀ k ≤ weights.length,
      AxisCounts weights.length room ((List.range k).foldl (applyPreferredCellCount weights floors) oldCounts) ∧
      AxisCounts weights.length room ((List.range k).foldl (applyPreferredCellCount weights floors) nextCounts) ∧
      countsAt ((List.range k).foldl (applyPreferredCellCount weights floors) oldCounts) -
          countsAt ((List.range k).foldl (applyPreferredCellCount weights floors) nextCounts) =
        transferPass (receiverRoute weights) k (countsAt oldCounts - countsAt nextCounts) := by
    intro k hk
    induction k with
    | zero => exact ⟨hf, hse, rfl⟩
    | succ k ih =>
      obtain ⟨hfstAxis, hsndAxis, hdifference⟩ := ih (by omega)
      have hfstStep := countsAt_applyPreferredCount hfstAxis.length_eq (hfstAxis.sum_eq ▸ hav) (by omega)
        (hfstTargets k (by omega))
      have hsndStep := countsAt_applyPreferredCount hsndAxis.length_eq (hsndAxis.sum_eq ▸ hav) (by omega)
        (hsndTargets k (by omega))
      rw [range_succ, List.foldl_append, List.foldl_append, transferPass_succ, ← hdifference]
      refine ⟨applyPreferredCount_axis hav hfstAxis (by omega), applyPreferredCount_axis hav hsndAxis (by omega), ?_⟩
      rw [foldl_cons, foldl_nil, foldl_cons, foldl_nil, hfstStep, hsndStep,
        add_sub_add_right_eq_sub, ← transferStep_sub, sub_sub_sub_cancel_right]
  exact (hrun weights.length (le_refl _)).2.2

theorem lt_of_receiverRoute (src target : Nat) (h : receiverRoute weights src = some target) :
    target < weights.length := by
  rw [receiverRoute] at h
  split_ifs at h
  exact (findSurplusReceiver_spec h).1

theorem targetsWithoutLimit_withoutDelta :
    TargetsWithoutLimit (weights.map withoutDelta) floors counts ↔ TargetsWithoutLimit weights floors counts := by
  simp only [TargetsWithoutLimit, StepWithoutLimit, applyPreferredCount_withoutDelta, getD_map_withoutDelta,
    getPreferredCount_withoutDelta, findSurplusReceiver_withoutDelta, length_map]

variable {folded' : List SizeWeight}

/-- One axis folded: the deltas are sent along the preferred pass, and neither order meets a limit. -/
structure IsFoldedAxis (weights folded' : List SizeWeight) (floors : List Nat) (room : Nat) : Prop where
  room_le : room ≤ u16Max
  weights_ne : weights ≠ []
  floors_length : floors.length = weights.length
  sameButDeltas : folded'.map withoutDelta = weights.map withoutDelta
  deltas : ∀ index < weights.length, deltasAt folded' index =
    transferPass (receiverRoute weights) weights.length (deltasAt weights) index
  earlier : EarlierWithoutLimit weights floors room
  current : CurrentWithoutLimit folded' floors room

/-- **What parts the two orders on one axis**: the sum of the deltas, times the move of one cell of the last child. -/
theorem distributeAxisCells_folded_sub (h : IsFoldedAxis weights folded' floors room) {index : Nat}
    (hlt : index < weights.length) :
    countsAt (distributeAxisCellsEarlier weights floors room) index -
        countsAt (distributeAxisCells folded' floors room) index =
      (∑ index ∈ Finset.range weights.length, deltasAt weights index) *
        ((Pi.single (weights.length - 1) 1 : Nat → Int) index -
          transferPass (receiverRoute weights) weights.length (Pi.single (weights.length - 1) 1) index) := by
  obtain ⟨hav, hne, hlen, hs, hdeltas, her, hcur⟩ := h
  have hpos := length_pos_iff.2 hne
  have hlen' : folded'.length = weights.length := by simpa using congrArg List.length hs
  have hshareLen := length_shareCounts weights room
  have htargetLen := length_targetCounts weights floors room
  have hshareNe : computeShareCellCounts weights room ≠ [] :=
    length_pos_iff.1 (hshareLen ▸ hpos)
  have hshareSum := sum_shareCounts_le weights room
  have hsameShares : computeShareCellCounts folded' room = computeShareCellCounts weights room := by
    rw [← shareCounts_withoutDelta folded', hs, shareCounts_withoutDelta]
  obtain ⟨htargets, hcurrentDeltas, hcurrentFloors⟩ := hcur
  obtain ⟨hearlierDeltas, hearlierTargets, hearlierFloors⟩ := her
  rw [hsameShares, ← targetsWithoutLimit_withoutDelta, hs, targetsWithoutLimit_withoutDelta] at htargets
  -- both floor passes find nothing to do
  rw [distributeAxisCells_eq, distributeAxisCellsEarlier,
    clampCountsToFloors_of_floors _ fun _ => floors_le_of_lt (hlen.trans hlen'.symm) hcurrentFloors,
    clampCountsToFloors_of_floors _ fun _ => floors_le_of_lt hlen hearlierFloors, targetCounts_congr hs]
  rw [targetCounts_congr hs] at hcurrentDeltas
  have hearlierAxis := @applyResizeDeltas_axis _ _ _ hav hne hshareLen
  have hrepairedAxis : AxisCounts weights.length room (repairCellCountSum (computeShareCellCounts weights room) room) :=
    ⟨by simp, sum_repairCellCountSum _ _ hshareNe hav⟩
  have htargetAxis := @applyPreferredCounts_axis _ _ floors _ hav hrepairedAxis
  -- the runs of the preferred pass start one resize pass apart
  have hruns := countsAt_applyPreferredCounts_sub hav hearlierAxis hrepairedAxis hearlierTargets htargets
  have hstarts : countsAt (applyResizeDeltas (computeShareCellCounts weights room) weights
      room) - countsAt (repairCellCountSum (computeShareCellCounts weights room)
        room) = deltasAt weights - (∑ index ∈ Finset.range weights.length,
          deltasAt weights index) • Pi.single (weights.length - 1) 1 := by
    rw [countsAt_applyDeltas hav hne hshareLen hearlierDeltas,
      countsAt_repairCountSum hshareNe hav (by omega), hshareLen]
    module
  rw [hstarts, transferPass_sub_smul] at hruns
  have hfinal := countsAt_applyDeltas hav (length_pos_iff.1 (hlen' ▸ hpos))
    (htargetLen.trans hlen'.symm) hcurrentDeltas
  have htot : ∑ index ∈ Finset.range weights.length, deltasAt folded' index =
      ∑ index ∈ Finset.range weights.length, deltasAt weights index := by
    rw [← sum_transferPass lt_of_receiverRoute (deltasAt weights) (le_refl _)]
    exact Finset.sum_congr rfl fun index hm => hdeltas index (Finset.mem_range.1 hm)
  have hrunsAt := congrFun hruns index
  have hfinalAt := congrFun hfinal index
  have htargetSum : (computeTargetCellCounts weights floors room).sum = room :=
    htargetAxis.sum_eq
  rw [hlen', htot, htargetSum] at hfinalAt
  simp only [Pi.sub_apply, Pi.add_apply, Pi.smul_apply, smul_eq_mul, hdeltas index hlt] at hrunsAt hfinalAt
  rw [hfinalAt, computeTargetCellCounts]
  linear_combination hrunsAt

/-- **The two orders on one axis.** With the deltas sent along the preferred pass and no limit met, the current order
gives the earlier sizes exactly when the deltas sum to zero or the last child has no receiver. -/
theorem distributeAxisCells_folded_iff (h : IsFoldedAxis weights folded' floors room) :
    distributeAxisCells folded' floors room = distributeAxisCellsEarlier weights floors room ↔
      ∑ index ∈ Finset.range weights.length, deltasAt weights index = 0 ∨
        receiverRoute weights (weights.length - 1) = none := by
  have hsub := fun index hlt => @distributeAxisCells_folded_sub weights floors _ _ h index hlt
  obtain ⟨hav, hne, hlen, hs, -, -, -⟩ := h
  have hpos := length_pos_iff.2 hne
  have hlen' : folded'.length = weights.length := by simpa using congrArg List.length hs
  have hearlierLength := (distributeAxisCellsEarlier_axis hav hne hlen).1.length_eq
  have hcurrentLength := (distributeAxisCells_axis hav (length_pos_iff.1 (hlen' ▸ hpos))
    (hlen.trans hlen'.symm)).1.length_eq
  obtain ⟨last, hl⟩ : ∃ last, weights.length = last + 1 := ⟨weights.length - 1, by omega⟩
  rw [hl, Nat.add_sub_cancel] at hsub ⊢
  rw [transferPass_single] at hsub
  constructor
  · intro heq
    cases hroute : receiverRoute weights last with
    | none => exact Or.inr rfl
    | some receiver =>
      left
      have hrne : receiver ≠ last := by
        rw [receiverRoute] at hroute
        split_ifs at hroute
        exact (findSurplusReceiver_spec hroute).2
      have hat := hsub last (Nat.lt_succ_self last)
      rw [heq, sub_self, hroute] at hat
      simpa [transfer, hrne.symm] using hat.symm
  · intro hcond
    refine ext_countsAt (by omega) fun index hlt => ?_
    have hat := hsub index (by omega)
    rcases hcond with hz | hroute
    · rw [hz, zero_mul] at hat
      exact (sub_eq_zero.1 hat).symm
    · rw [hroute, sub_self, mul_zero] at hat
      exact (sub_eq_zero.1 hat).symm

end Runs

/-! ### The fold of one split -/

theorem listWeightsAt_map_withoutDelta {weights weights' : List SizeWeight}
    (h : ∀ index, (weights.getD index .default).withoutDelta =
      (weights'.getD index .default).withoutDelta) (childIndexes : List Nat) :
    (listWeightsAt weights childIndexes).map withoutDelta = (listWeightsAt weights' childIndexes).map withoutDelta := by
  rw [listWeightsAt, listWeightsAt, List.map_map, List.map_map]
  exact map_congr_left fun index _ => h index

theorem receiverRoute_withoutDelta : receiverRoute (weights.map withoutDelta) = receiverRoute weights := by
  funext index
  simp only [receiverRoute, getD_map_withoutDelta, getPreferredCount_withoutDelta, findSurplusReceiver_withoutDelta]

theorem getD_listWeightsAt_range (hlt : index < cc) :
    (listWeightsAt weights (List.range cc)).getD index .default = weights.getD index .default := by
  rw [listWeightsAt, getD_eq_getElem _ _ (by simpa using hlt), getElem_map, getElem_range]

/-- The receiver the fold looks for is the one the solve of all the children uses. -/
theorem findSurplusReceiver_listWeightsAt (cc index : Nat) :
    findSurplusReceiver (listWeightsAt weights (List.range cc)) index =
      (List.range cc).reverse.find? fun sibling =>
        sibling ≠ index && isFlexible (weights.getD sibling .default) := by
  rw [findSurplusReceiver, show (listWeightsAt weights (List.range cc)).length = cc by
    simp [listWeightsAt]]
  refine List.find?_congr fun sibling hm => ?_
  rw [getD_listWeightsAt_range weights (by simpa using hm)]

theorem getD_padded (cc receiver index : Nat) :
    (if weights.length ≤ receiver then padWeights weights cc else weights).getD index .default =
      weights.getD index .default := by
  split_ifs
  · exact getD_padWeights weights cc index
  · rfl

theorem length_padded {receiver : Nat} (hlt : receiver < cc) :
    weights.length ≤ (if weights.length ≤ receiver then padWeights weights cc else weights).length ∧
      receiver < (if weights.length ≤ receiver then padWeights weights cc else weights).length := by
  split_ifs
  · rw [length_padWeights]
    omega
  · omega

theorem foldChildDelta_withoutDelta (cc : Nat) (weights : List SizeWeight) (index place : Nat) :
    ((foldChildResizeDelta cc weights index).getD place .default).withoutDelta =
      (weights.getD place .default).withoutDelta := by
  rw [foldChildResizeDelta]
  cases weights[index]? with
  | none => rfl
  | some weight' =>
    dsimp only
    split_ifs
    · rfl
    · split
      · rfl
      · rename_i receiver _
        have hpadded := getD_padded weights cc receiver place
        generalize (if weights.length ≤ receiver then padWeights weights cc else weights) = padded
          at hpadded ⊢
        rw [getD_modify_weight, getD_modify_weight, ← hpadded]
        split_ifs <;> rfl

/-- **The fold of one child moves its delta along the preferred pass.** -/
theorem deltasAt_foldChildDelta {weights : List SizeWeight} (hlt : index < cc)
    (hbo : ∑ place ∈ Finset.range cc, |deltasAt weights place| ≤ 2 ^ 29) :
    deltasAt (foldChildResizeDelta cc weights index) =
      transferStep (receiverRoute (listWeightsAt weights (List.range cc))) (deltasAt weights) index := by
  rw [foldChildResizeDelta, transferStep, receiverRoute, getD_listWeightsAt_range weights hlt,
    findSurplusReceiver_listWeightsAt]
  cases hwt : weights[index]? with
  | none =>
    rw [getD_eq_getElem?_getD, hwt]
    rfl
  | some weight' =>
    have hown : weights.getD index .default = weight' := by
      rw [getD_eq_getElem?_getD, hwt]
      rfl
    rw [hown]
    dsimp only
    cases htgt : getPreferredCellCount weight' with
    | none => rfl
    | some goal =>
      rw [isNone_some, if_neg Bool.false_ne_true, isSome_some, if_pos rfl]
      cases hto : (List.range cc).reverse.find? fun sibling =>
          sibling ≠ index && isFlexible (weights.getD sibling .default) with
      | none => rfl
      | some receiver =>
        have hspec := findSurplusReceiver_spec ((findSurplusReceiver_listWeightsAt weights cc index).trans hto)
        have hrlt : receiver < cc := by simpa [listWeightsAt] using hspec.1
        obtain ⟨hlong, hroom⟩ := length_padded weights hrlt
        have hchildLt := (List.getElem?_eq_some_iff.1 hwt).1
        -- the sum of two deltas stays far within `i32`
        have hexact : satAddI32 (weights.getD receiver .default).resizeDelta weight'.resizeDelta =
            (weights.getD receiver .default).resizeDelta + weight'.resizeDelta := by
          have hone := fun place hpc => Finset.single_le_sum (f := fun place => |deltasAt weights place|)
            (fun place _ => abs_nonneg _) (Finset.mem_range.2 (hpc : place < cc))
          have hch := abs_le.1 (le_trans (hone index hlt) hbo)
          have ho := abs_le.1 (le_trans (hone receiver hrlt) hbo)
          rw [deltasAt, hown] at hch
          rw [deltasAt] at ho
          rw [satAddI32, clampI32_of_within] <;> omega
        funext place
        have hpadded := getD_padded weights cc receiver
        dsimp only
        generalize (if weights.length ≤ receiver then padWeights weights cc else weights) = padded
          at hpadded hlong hroom ⊢
        rw [deltasAt, getD_modify_weight, getD_modify_weight, length_modify, hpadded, transfer]
        by_cases hpc : place = index
        · subst hpc
          rw [if_neg (fun hand => hspec.2 hand.1), if_pos ⟨rfl, by omega⟩]
          simp [deltasAt, hspec.2.symm]
        · rw [if_neg (fun hand : index = place ∧ _ => hpc hand.1.symm)]
          by_cases ho : place = receiver
          · subst ho
            rw [if_pos ⟨rfl, hroom⟩]
            simp only [hexact, deltasAt, hown, hpc, if_true, if_false]
            ring
          · rw [if_neg (fun hand => ho hand.1.symm)]
            simp [deltasAt, hpc, ho]

/-- **The fold of a split sends its deltas along the preferred pass**, and changes nothing else. -/
theorem deltasAt_foldSplit {weights : List SizeWeight}
    (hbo : ∑ place ∈ Finset.range cc, |deltasAt weights place| ≤ 2 ^ 29) :
    deltasAt ((List.range cc).foldl (foldChildResizeDelta cc) weights) =
      transferPass (receiverRoute (listWeightsAt weights (List.range cc))) cc (deltasAt weights) := by
  have hroute : ∀ src target, receiverRoute (listWeightsAt weights (List.range cc)) src = some target →
      target < cc := by
    intro src target htgt
    simpa [listWeightsAt] using lt_of_receiverRoute src target htgt
  have hrun : ∀ k ≤ cc,
      (∀ place, (((List.range k).foldl (foldChildResizeDelta cc) weights).getD place .default).withoutDelta =
        (weights.getD place .default).withoutDelta) ∧
      deltasAt ((List.range k).foldl (foldChildResizeDelta cc) weights) =
        transferPass (receiverRoute (listWeightsAt weights (List.range cc))) k (deltasAt weights) := by
    intro k hk
    induction k with
    | zero => exact ⟨fun _ => rfl, rfl⟩
    | succ k ih =>
      obtain ⟨hs, hdeltas⟩ := ih (by omega)
      rw [range_succ, List.foldl_append, foldl_cons, foldl_nil, transferPass_succ, ← hdeltas]
      refine ⟨fun place => (foldChildDelta_withoutDelta _ _ _ _).trans (hs place), ?_⟩
      rw [deltasAt_foldChildDelta (by omega), ← receiverRoute_withoutDelta, listWeightsAt_map_withoutDelta hs,
        receiverRoute_withoutDelta]
      rw [hdeltas]
      exact le_trans (sum_abs_transferPass hroute _ (by omega)) hbo
  exact (hrun cc (le_refl _)).2

theorem foldSplitPreferredDeltas_sameButDeltas : SameButDeltas sp (foldSplitPreferredResizeDeltas sp) := by
  refine ⟨rfl, fun index => ?_⟩
  exact (foldl_keeps (fun weights : List SizeWeight => (weights.getD index .default).withoutDelta =
    (sp.weights.getD index .default).withoutDelta) rfl
    fun weights hws other _ => (foldChildDelta_withoutDelta _ _ _ _).trans hws).symm

theorem sum_abs_deltasAt_le {weights : List SizeWeight} (hav : room ≤ u16Max)
    (hdeltas : DeltasWithoutLimit weights (computeShareCellCounts weights room) room) :
    ∑ place ∈ Finset.range weights.length, |deltasAt weights place| ≤ 2 ^ 29 := by
  obtain ⟨hw, hexcess⟩ := hdeltas
  have hshareSum := sum_shareCounts_le weights room
  have hcn := sum_countsAt (computeShareCellCounts weights room)
  rw [length_shareCounts] at hcn
  have hl : countsAt (computeShareCellCounts weights room) (weights.length - 1) +
      deltasAt weights (weights.length - 1) ≤ room := by
    rcases Nat.eq_zero_or_pos weights.length with hz | hpos
    · rw [countsAt_of_length_le (by simp; omega), deltasAt_of_length_le (by omega)]
      omega
    · exact (hw _ (by omega)).2
  -- a delta is the difference of two counts of the axis
  have hpoint : ∀ place ∈ Finset.range weights.length, |deltasAt weights place| ≤
      2 * countsAt (computeShareCellCounts weights room) place + deltasAt weights place := by
    intro place hm
    have hat := hw place (Finset.mem_range.1 hm)
    have hnonneg : 0 ≤ countsAt (computeShareCellCounts weights room) place := Int.natCast_nonneg _
    rw [abs_le]
    omega
  refine le_trans (Finset.sum_le_sum hpoint) ?_
  rw [Finset.sum_add_distrib, ← Finset.mul_sum, hcn]
  unfold u16Max at hav
  omega

/-! ### One split at one rect -/

/-- The solves of a split and of its folded image at one rect: every child is kept, and neither distribution meets a
floor or clamps a size. -/
structure SolvesWithoutLimit (splitNode folded : SplitNode LayoutNode) (rect : Rect) (sizing : PaneSizing) :
    Prop where
  kept : ∀ isKept ∈ (listKeptChildren splitNode rect sizing).isChildKept, isKept = true
  earlier : EarlierWithoutLimit (listKeptChildren splitNode rect sizing).keptWeights
    (listKeptChildren splitNode rect sizing).keptFloors
    (listKeptChildren splitNode rect sizing).sharedCellCount
  current : CurrentWithoutLimit (listKeptChildren folded rect sizing).keptWeights
    (listKeptChildren folded rect sizing).keptFloors
    (listKeptChildren folded rect sizing).sharedCellCount

/-- The resize deltas of the children of a split, summed; a missing weight counts as the default one. -/
def sumResizeDeltas (splitNode : SplitNode LayoutNode) : Int :=
  ∑ index ∈ Finset.range splitNode.children.length, (splitNode.weights.getD index .default).resizeDelta

/-- The last child of a split has a preferred target and a flexible sibling: the fold moves its delta away. -/
def IsLastChildFolded (splitNode : SplitNode LayoutNode) : Prop :=
  (getPreferredCellCount (splitNode.weights.getD (splitNode.children.length - 1) .default)).isSome ∧
    ∃ sibling < splitNode.children.length - 1, isFlexible (splitNode.weights.getD sibling .default) = true

theorem receiverRoute_last_eq_none (hne : sp.children ≠ []) :
    receiverRoute (listWeightsAt sp.weights (List.range sp.children.length))
      (sp.children.length - 1) = none ↔ ¬ IsLastChildFolded sp := by
  have hpos := length_pos_iff.2 hne
  rw [receiverRoute, getD_listWeightsAt_range _ (by omega), findSurplusReceiver_listWeightsAt, IsLastChildFolded]
  split_ifs with htgt
  · rw [List.find?_eq_none]
    simp only [htgt, true_and, not_exists, not_and, mem_reverse, mem_range, Bool.and_eq_true, decide_eq_true_eq]
    constructor
    · exact fun h sibling hlt => h sibling (by omega) (by omega)
    · exact fun h sibling hlt hsibling => h sibling (by omega)
  · exact iff_of_true rfl fun hand => htgt hand.1

theorem listKeptIndexes_of_all {keeps : List Bool} (h : ∀ isKept ∈ keeps, isKept = true) :
    listKeptIndexes keeps = List.range keeps.length := by
  induction keeps using List.reverseRecOn with
  | nil => rfl
  | append_singleton keeps isKept ih =>
    rw [listKeptIndexes_append, ih fun flag hm => h flag (mem_append_left _ hm),
      h isKept (mem_append_right _ mem_cons_self), if_pos rfl, length_append, length_singleton,
      range_succ]

def axisChildSize (horizontal : Bool) (splitSize : Size) (cellCount : Nat) : Size :=
  if horizontal then ⟨cellCount, splitSize.rowCount⟩ else ⟨splitSize.columnCount, cellCount⟩

theorem axisChildSize_injective (hor : Bool) (splitSize : Size) : Function.Injective (axisChildSize hor splitSize) := by
  intro cellCount otherCellCount heq
  cases hor with
  | true => exact congrArg Size.columnCount heq
  | false => exact congrArg Size.rowCount heq

theorem sizes_layChildRects_of_all {hor : Bool} {r : Rect} {gap : Nat} {keeps : List Bool}
    (hkt : ∀ isKept ∈ keeps, isKept = true) (hlen : sizes.length = keeps.length) (off : Nat) :
    (layChildRects hor r gap keeps sizes off).map Rect.size = sizes.map (axisChildSize hor r.size) := by
  induction keeps generalizing sizes off with
  | nil => rw [eq_nil_of_length_eq_zero hlen, layChildRects, map_nil, map_nil]
  | cons isKept keeps ih =>
    obtain ⟨cellCount, sizes, rfl⟩ := exists_cons_of_length_pos (l := sizes) (by
      rw [hlen]
      exact Nat.zero_lt_succ _)
    rw [hkt isKept mem_cons_self, layChildRects, map_cons, map_cons, tail_cons,
      ih (fun flag hm => hkt flag (mem_cons_of_mem _ hm)) (by simpa using hlen)]
    congr 1
    cases hor <;> rfl

/-- **One split at one rect without limits**: the folded split solves to the earlier sizes exactly when its deltas sum
to zero or its last child is not folded. -/
theorem foldedSplit_sizes_iff {node folded : SplitNode LayoutNode} {r : Rect} {sz : PaneSizing}
    (hw : SizeWithinU16 r.size) (hdir : folded.direction = node.direction)
    (hws : folded.weights = (foldSplitPreferredResizeDeltas node).weights)
    (hroom : List.Forall₂ (SameRoom sz) node.children folded.children) (hlimits : SolvesWithoutLimit node folded r sz) :
    (computeDirectionalChildRects folded r sz).map Rect.size =
        (computeDirectionalChildRectsWith distributeAxisCellsEarlier node r sz).map Rect.size ↔
      sumResizeDeltas node = 0 ∨ ¬ IsLastChildFolded node := by
  have hs : SameButDeltas node folded := ⟨hdir.symm, fun index => hws ▸
    (foldSplitPreferredDeltas_sameButDeltas node).weights_eq index⟩
  obtain ⟨hkt, her, hcur⟩ := hlimits
  obtain ⟨ho, hweights, hflags, hfl⟩ := listKeptChildren_together hs r (minimumSizes_of_sameRoom hroom)
  have hav := @sharedCellCount_le node r sz hw
  rw [computeDirectionalChildRects, computeDirectionalChildRectsWith, ho, hdir]
  rw [ho] at hcur
  generalize listKeptChildren node r sz = keptChildren at *
  obtain ⟨keeps, keptWeights, keptFloors, sharedCellCount⟩ := keptChildren
  dsimp only at hkt her hcur hweights hflags hfl hav ⊢
  rw [listKeptIndexes_of_all hkt, hflags] at hweights hcur ⊢
  have hc : keptWeights.length = node.children.length := by simp [hweights, listWeightsAt]
  by_cases hne : node.children = []
  · have hnil : keeps = [] := eq_nil_of_length_eq_zero (by rw [hflags, hne, length_nil])
    rw [hnil]
    refine iff_of_true rfl (Or.inl ?_)
    rw [sumResizeDeltas, hne]
    rfl
  have hkeptNe : keptWeights ≠ [] := by
    rw [← length_pos_iff, hc]
    exact length_pos_iff.2 hne
  have hdeltasAt : ∀ index < keptWeights.length, deltasAt keptWeights index = deltasAt node.weights index := by
    intro index hlt
    rw [deltasAt, hweights, getD_listWeightsAt_range _ (by omega)]
    rfl
  have hsum : ∑ index ∈ Finset.range keptWeights.length, deltasAt keptWeights index = sumResizeDeltas node := by
    rw [sumResizeDeltas, ← hc]
    exact Finset.sum_congr rfl fun index hm => hdeltasAt index (Finset.mem_range.1 hm)
  have hbo : ∑ place ∈ Finset.range node.children.length, |deltasAt node.weights place| ≤ 2 ^ 29 := by
    refine le_trans (le_of_eq ?_) (sum_abs_deltasAt_le hav her.deltas)
    rw [hc]
    exact Finset.sum_congr rfl fun place hm => by
      rw [hdeltasAt place (by simpa [hc] using hm)]
  have hfolded := deltasAt_foldSplit hbo
  have hroute := receiverRoute_last_eq_none node hne
  have hfoldedSame : (listWeightsAt folded.weights (List.range node.children.length)).map
      withoutDelta = keptWeights.map withoutDelta := by
    rw [hweights]
    exact (listWeightsAt_map_withoutDelta hs.weights_eq _).symm
  have hlen' : (listWeightsAt folded.weights (List.range node.children.length)).length =
      keptWeights.length := by simp [listWeightsAt, hc]
  have hfoldedDeltas : ∀ index < keptWeights.length,
      deltasAt (listWeightsAt folded.weights (List.range node.children.length)) index =
        transferPass (receiverRoute keptWeights) keptWeights.length (deltasAt keptWeights) index := by
    intro index hlt
    rw [transferPass_congr hdeltasAt (le_refl _) hlt,
      hc, hweights, ← hfolded, deltasAt, getD_listWeightsAt_range _ (by omega), hws]
    rfl
  have hiff := distributeAxisCells_folded_iff ⟨hav, hkeptNe, hfl, hfoldedSame, hfoldedDeltas, her, hcur⟩
  rw [hsum, hc, hweights, hroute, ← hweights] at hiff
  rw [← hiff]
  have hearlierLength := (distributeAxisCellsEarlier_axis hav hkeptNe hfl).1.length_eq
  have hcurrentLength := (distributeAxisCells_axis hav (length_pos_iff.1 (hlen' ▸
    length_pos_iff.2 hkeptNe)) (hfl.trans hlen'.symm)).1.length_eq
  rw [sizes_layChildRects_of_all hkt (by omega), sizes_layChildRects_of_all hkt (by omega)]
  exact (axisChildSize_injective _ _).list_map.eq_iff

/-! ### The tree -/

theorem foldChildrenPreferredDeltas_eq (children : List LayoutNode) :
    foldChildrenPreferredResizeDeltas children = children.map foldPreferredResizeDeltas := by
  induction children with
  | nil => rfl
  | cons child children ih => rw [foldChildrenPreferredResizeDeltas, ih, map_cons]

def foldedSplit (splitNode : SplitNode LayoutNode) : SplitNode LayoutNode where
  direction := splitNode.direction
  children := splitNode.children.map foldPreferredResizeDeltas
  weights := if splitNode.direction ≠ .stacked then (foldSplitPreferredResizeDeltas splitNode).weights
    else splitNode.weights
  activeChildIndex := splitNode.activeChildIndex

theorem foldPreferredDeltas_split : foldPreferredResizeDeltas (.split sp) = .split (foldedSplit sp) := by
  obtain ⟨dir, children, weights, active⟩ := sp
  rw [foldPreferredResizeDeltas, foldedSplit, foldChildrenPreferredDeltas_eq]
  dsimp only
  split_ifs <;> rfl

theorem foldedSplit_sameButDeltas : SameButDeltas sp (foldedSplit sp) := by
  refine ⟨rfl, fun index => ?_⟩
  rw [foldedSplit]
  dsimp only
  split_ifs
  · exact (foldSplitPreferredDeltas_sameButDeltas sp).weights_eq index
  · rfl

/-- **The fold keeps the leaves and the room a tree needs.** -/
theorem foldPreferredDeltas_sameRoom (sz : PaneSizing) (nd : LayoutNode) :
    SameRoom sz nd (foldPreferredResizeDeltas nd) := by
  induction nd with
  | pane paneId => exact .refl _
  | split sp ih =>
    rw [foldPreferredDeltas_split]
    refine .split (foldedSplit_sameButDeltas sp) rfl ?_
    rw [foldedSplit, forall₂_map_right_iff, forall₂_same]
    exact ih

theorem getNodeAtPath_foldPreferredDeltas (nd : LayoutNode) (path : List Nat) :
    (foldPreferredResizeDeltas nd).getNodeAtPath path = (nd.getNodeAtPath path).map foldPreferredResizeDeltas := by
  induction path generalizing nd with
  | nil => rfl
  | cons index path ih =>
    cases nd with
    | pane paneId => rfl
    | split sp =>
      rw [foldPreferredDeltas_split, LayoutNode.getNodeAtPath, LayoutNode.getNodeAtPath, foldedSplit]
      dsimp only
      rw [List.getElem?_map]
      cases sp.children[index]? with
      | none => rfl
      | some child => exact ih child

/-- A flexible pane beside one that prefers 20 columns and stands 5 below its share: the earlier solve evened the 5
columns out before the target. -/
def flexibleBesidePreferred : SplitNode LayoutNode :=
  ⟨.horizontal, [.pane ⟨0⟩, .pane ⟨1⟩], [.default, { fromPrimaryConstraint (.preferred 20) with resizeDelta := -5 }], 0⟩

/-- Over 80 columns the earlier solve gave 60 and 20; the folded split solves to 55 and 25, with no size at a floor or
clamped in either solve. -/
theorem foldPreferredResizeDeltas_misses_earlier_sizes :
    foldPreferredResizeDeltas (.split flexibleBesidePreferred) = .split (foldedSplit flexibleBesidePreferred) ∧
    SolvesWithoutLimit flexibleBesidePreferred (foldedSplit flexibleBesidePreferred) (.fromSizeAtOrigin ⟨80, 24⟩)
      .default ∧
    (computeDirectionalChildRects (foldedSplit flexibleBesidePreferred) (.fromSizeAtOrigin ⟨80, 24⟩) .default).map
      Rect.size = [⟨55, 24⟩, ⟨25, 24⟩] ∧
    (computeDirectionalChildRectsWith distributeAxisCellsEarlier flexibleBesidePreferred (.fromSizeAtOrigin ⟨80, 24⟩)
      .default).map Rect.size = [⟨60, 24⟩, ⟨20, 24⟩] := by
  refine ⟨rfl, ⟨by decide +kernel, ⟨⟨by decide +kernel, by decide +kernel⟩, ?_, by decide +kernel⟩,
    ⟨?_, ⟨by decide +kernel, by decide +kernel⟩, by decide +kernel⟩⟩, by decide +kernel, by decide +kernel⟩
  · unfold TargetsWithoutLimit StepWithoutLimit
    decide +kernel
  · unfold TargetsWithoutLimit StepWithoutLimit
    decide +kernel

/-- **Where the fold keeps the earlier sizes.** In a folded tree a stack gives its members the rects it gave, and a
horizontal or vertical split, at any rect where neither solve meets a floor or clamps a size, gives its children the
sizes of the earlier solve of the original exactly when its resize deltas sum to zero or its last child has no target
or no flexible sibling. -/
theorem foldPreferredResizeDeltas_sizes_iff (layoutTree : LayoutNode) (layoutPath : List Nat)
    (splitNode : SplitNode LayoutNode) (hsplit : layoutTree.getNodeAtPath layoutPath = some (.split splitNode)) :
    ∃ folded, (foldPreferredResizeDeltas layoutTree).getNodeAtPath layoutPath = some (.split folded) ∧
      ∀ (splitRect : Rect) (paneSizing : PaneSizing), SizeWithinU16 splitRect.size →
        (splitNode.direction = .stacked → computeStackedChildRects folded splitRect paneSizing =
          computeStackedChildRects splitNode splitRect paneSizing) ∧
        (splitNode.direction ≠ .stacked → SolvesWithoutLimit splitNode folded splitRect paneSizing →
          ((computeDirectionalChildRects folded splitRect paneSizing).map Rect.size =
              (computeDirectionalChildRectsWith distributeAxisCellsEarlier splitNode splitRect paneSizing).map
                Rect.size ↔
            sumResizeDeltas splitNode = 0 ∨ ¬ IsLastChildFolded splitNode)) := by
  refine ⟨foldedSplit splitNode, ?_, fun splitRect paneSizing hwithin => ⟨fun _ => ?_, fun hdirection hlimits => ?_⟩⟩
  · rw [getNodeAtPath_foldPreferredDeltas, hsplit, map_some, foldPreferredDeltas_split]
  · have hsizes : computeMinimumSizes paneSizing (splitNode.children.map foldPreferredResizeDeltas) =
        computeMinimumSizes paneSizing splitNode.children := by
      refine (minimumSizes_of_sameRoom ?_).symm
      rw [forall₂_map_right_iff, forall₂_same]
      exact fun child _ => foldPreferredDeltas_sameRoom paneSizing child
    simp only [computeStackedChildRects, computeStackMinimumSize, computeStackMinimumSizeFrom, foldedSplit,
      SplitNode.getActiveChildIndex, hsizes, length_map]
    rfl
  · refine foldedSplit_sizes_iff hwithin rfl (if_pos hdirection) ?_ hlimits
    rw [foldedSplit, forall₂_map_right_iff, forall₂_same]
    exact fun child _ => foldPreferredDeltas_sameRoom paneSizing child

/-- A split whose two deltas sum to zero: its root solves to the earlier sizes over 80 columns. -/
theorem foldPreferredResizeDeltas_sizes_iff_preferredBesideFlexible :
    ∃ folded, (foldPreferredResizeDeltas preferredBesideFlexible).getNodeAtPath [] = some (.split folded) ∧
      (computeDirectionalChildRects folded (.fromSizeAtOrigin ⟨80, 24⟩) .default).map Rect.size =
        [⟨20, 24⟩, ⟨60, 24⟩] := by
  obtain ⟨folded, hget, hsizes⟩ := foldPreferredResizeDeltas_sizes_iff preferredBesideFlexible []
    ⟨.horizontal, [.pane ⟨0⟩, .pane ⟨1⟩], [{ fromPrimaryConstraint (.preferred 20) with resizeDelta := 10 },
      { default with resizeDelta := -10 }], 0⟩ rfl
  refine ⟨folded, hget, ?_⟩
  rw [((hsizes (.fromSizeAtOrigin ⟨80, 24⟩) .default (by decide)).2 (by decide) ?_).2 (Or.inl (by decide))]
  · decide +kernel
  · rw [preferredBesideFlexible, foldPreferredDeltas_split, LayoutNode.getNodeAtPath, Option.some.injEq,
      LayoutNode.split.injEq] at hget
    rw [← hget]
    refine ⟨by decide +kernel, ⟨⟨by decide +kernel, by decide +kernel⟩, ?_, by decide +kernel⟩,
      ⟨?_, ⟨by decide +kernel, by decide +kernel⟩, by decide +kernel⟩⟩
    · unfold TargetsWithoutLimit StepWithoutLimit
      decide +kernel
    · unfold TargetsWithoutLimit StepWithoutLimit
      decide +kernel

end Koshi.Layout
