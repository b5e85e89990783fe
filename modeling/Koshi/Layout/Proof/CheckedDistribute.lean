import Mathlib.Tactic
import Koshi.Layout.CheckedDistribute
import Koshi.Layout.Proof.Distribute

/-!
# No pass of the distribution overflows

Each checked pass computes what the plain pass does. A child's count stays within the axis after every pass, and the
only sums over the children are those of the flex weights, of the floors and of the counts: they fit `u64` for up to
`2 ^ 32 + 1` children. With one child more the flex weights alone can leave `u64`.
-/

namespace Koshi.Layout

open Base Koshi.Core List Option

variable {sizes floors : List Nat} {n needed : Nat} {state : List Nat × Nat} {weights : List SizeWeight}

/-- The most children for which every sum fits. -/
def maxCheckedChildCount : Nat := 2 ^ 32 + 1

def CountsWithinU16 (sizes : List Nat) : Prop := ∀ cellCount ∈ sizes, cellCount ≤ u16Max

theorem CountsWithinU16.getD (h : CountsWithinU16 sizes) (index : Nat) : sizes.getD index 0 ≤ u16Max := by
  by_cases hlt : index < sizes.length
  · rw [getD_eq_getElem?_getD, List.getElem?_eq_getElem hlt, getD_some]
    exact h _ (getElem_mem hlt)
  · rw [getD_of_length_le (Nat.le_of_not_lt hlt)]
    exact Nat.zero_le _

theorem CountsWithinU16.set (h : CountsWithinU16 sizes) (index : Nat) {cellCount : Nat}
    (hc : cellCount ≤ u16Max) : CountsWithinU16 (sizes.set index cellCount) := by
  intro other hm
  rcases mem_or_eq_of_mem_set hm with hm | rfl
  · exact h other hm
  · exact hc

theorem CountsWithinU16.of_sum (h : sizes.sum ≤ u16Max) : CountsWithinU16 sizes := by
  intro cellCount hm
  exact le_trans (single_le_sum (by simp) _ hm) h

theorem CountsWithinU16.sum_le (h : CountsWithinU16 sizes)
    (hln : sizes.length ≤ maxCheckedChildCount) : sizes.sum ≤ u64Max := by
  have hsum := sum_le_card_nsmul sizes u16Max h
  rw [smul_eq_mul] at hsum
  have hprod := Nat.mul_le_mul_right u16Max hln
  unfold maxCheckedChildCount u16Max at hprod
  unfold u16Max at hsum
  unfold u64Max
  omega

theorem set_getD_eq_modify (counts : List Nat) (f : Nat → Nat) (i : Nat) :
    counts.set i (f (counts.getD i 0)) = counts.modify i f := by
  apply ext_getElem?
  intro j
  rw [List.getElem?_set, List.getElem?_modify]
  by_cases hij : i = j
  · subst hij
    by_cases hlt : i < counts.length
    · simp [hlt]
    · simp [hlt]
  · simp [hij]

/-! ### The sum repair -/

theorem trimCountsChecked_eq {counts : List Nat} (h : CountsWithinU16 counts) (excess : Nat) :
    trimCellCountsChecked counts excess = some (trimCellCounts counts excess) := by
  induction counts generalizing excess with
  | nil => rfl
  | cons cellCount counts ih =>
    have hc := h cellCount mem_cons_self
    have ih := ih fun other hm => h other (mem_cons_of_mem _ hm)
    simp only [trimCellCountsChecked, trimCellCounts, bind_eq_bind]
    rw [checkedCast_of_le (by omega), bind_some,
      checkedSub_of_le (by omega), bind_some, checkedSub_of_le (by omega), bind_some]
    split_ifs
    · rfl
    · rw [ih]
      rfl

theorem repairCountSumChecked_eq (hcn : CountsWithinU16 sizes) (hln : sizes.length ≤ maxCheckedChildCount)
    (hav : n ≤ u16Max) :
    repairCellCountSumChecked sizes n = some (repairCellCountSum sizes n) := by
  simp only [repairCellCountSumChecked, bind_eq_bind]
  rw [checkedSum_of_le (hcn.sum_le hln), bind_some]
  simp only [repairCellCountSum]
  have hl := getD_le_sum sizes (sizes.length - 1)
  split_ifs with hshort hexcess
  · rw [checkedSub_of_le (by omega), bind_some, checkedCast_of_le (by omega), bind_some, checkedAdd_of_le (by omega),
      bind_some,
      asU16_of_le (by omega)]
    exact congrArg some (set_getD_eq_modify _ (· + (n - sizes.sum)) _)
  · rw [checkedSub_of_le (by omega), bind_some, trimCountsChecked_eq fun cellCount hm => hcn cellCount
      (mem_reverse.1 hm)]
    rfl
  · rfl

/-! ### The shares -/

/-- The state of the claiming passes: the counts and the remaining cells stay within `u16`. -/
def ClaimsWithinU16 (room : Nat) (claims : List Nat × Nat) : Prop :=
  CountsWithinU16 claims.1 ∧ claims.2 ≤ room

theorem claimFixedStepChecked_eq (hav : n ≤ u16Max) {claims : List Nat × Nat} (hclaims : ClaimsWithinU16 n claims)
    (weightAt : SizeWeight × Nat) :
    claimFixedStepChecked claims weightAt = some (claimFixedStep claims weightAt) ∧
      ClaimsWithinU16 n (claimFixedStep claims weightAt) := by
  obtain ⟨sizes, remaining⟩ := claims
  obtain ⟨wt, index⟩ := weightAt
  obtain ⟨hcn, hleft⟩ := hclaims
  dsimp only at hcn hleft
  simp only [claimFixedStepChecked, claimFixedStep, bind_eq_bind]
  cases wt.primaryConstraint with
  | fixed fixedCellCount =>
    refine ⟨?_, hcn.set index (by omega), ?_⟩
    · dsimp only
      rw [checkedSub_of_le (Nat.min_le_right _ _), bind_some]
    · dsimp only
      omega
  | flex _ | percent _ | minimum _ | preferred _ => exact ⟨rfl, hcn, hleft⟩

theorem percentCountChecked_eq {axisCellCount : Nat} (haxis : axisCellCount ≤ u16Max) (percent : Nat) :
    computePercentCellCountChecked axisCellCount percent = some (computePercentCellCount axisCellCount percent) := by
  have hprod : axisCellCount * min percent 100 ≤ u16Max * 100 := Nat.mul_le_mul haxis (Nat.min_le_right _ _)
  have hquotient : axisCellCount * min percent 100 / 100 ≤ u16Max := by omega
  simp only [computePercentCellCountChecked, computePercentCellCount, bind_eq_bind]
  rw [asU16_of_le hquotient, checkedMul_of_le, bind_some, checkedCast_of_le hquotient]
  unfold u16Max at hprod
  unfold u32Max
  omega

theorem claimPercentStepChecked_eq (hav : n ≤ u16Max) {claims : List Nat × Nat} (hclaims : ClaimsWithinU16 n claims)
    (weightAt : SizeWeight × Nat) :
    claimPercentStepChecked n claims weightAt = some (claimPercentStep n claims weightAt) ∧
      ClaimsWithinU16 n (claimPercentStep n claims weightAt) := by
  obtain ⟨sizes, remaining⟩ := claims
  obtain ⟨wt, index⟩ := weightAt
  obtain ⟨hcn, hleft⟩ := hclaims
  dsimp only at hcn hleft
  simp only [claimPercentStepChecked, claimPercentStep, bind_eq_bind]
  cases wt.primaryConstraint with
  | percent percentValue =>
    refine ⟨?_, hcn.set index (by omega), ?_⟩
    · dsimp only
      rw [percentCountChecked_eq hav, bind_some, checkedSub_of_le (Nat.min_le_right _ _), bind_some]
    · dsimp only
      omega
  | flex _ | fixed _ | minimum _ | preferred _ => exact ⟨rfl, hcn, hleft⟩

theorem sum_shares_le (pool total : Nat) (flexWeights : List Nat) :
    (flexWeights.map fun flexWeight => pool * flexWeight / total).sum ≤ pool * flexWeights.sum / total := by
  induction flexWeights with
  | nil => simp
  | cons flexWeight flexWeights ih =>
    rw [map_cons, sum_cons, sum_cons, Nat.mul_add]
    exact le_trans (Nat.add_le_add_left ih _) (Nat.div_add_div_le_add_div)

theorem sum_shares_le_pool (pool : Nat) (flexWeights : List Nat) :
    (flexWeights.map fun flexWeight => pool * flexWeight / flexWeights.sum).sum ≤ pool := by
  refine le_trans (sum_shares_le _ _ _) ?_
  rcases Nat.eq_zero_or_pos flexWeights.sum with hz | hpos
  · simp [hz]
  · rw [Nat.mul_div_cancel _ hpos]

/-- The loop of the shares before the children `rest`: the cells assigned and those `rest` will be are within the
pool, and no child that got its share holds more than were assigned. -/
structure SharesInv (pool total : Nat) (allPairs rest : List (Nat × Nat)) (state : List Nat × Nat) : Prop where
  counts : CountsWithinU16 state.1
  assigned_le : state.2 + (rest.map fun pair => pool * pair.2 / total).sum ≤ pool
  shared : ∀ pair ∈ allPairs, pair.1 ∈ rest.map Prod.fst ∨ state.1.getD pair.1 0 ≤ state.2

theorem getD_set_ne {counts : List Nat} {i j : Nat} (h : j ≠ i) (value : Nat) :
    (counts.set i value).getD j 0 = counts.getD j 0 := by
  rw [getD_eq_getElem?_getD, getD_eq_getElem?_getD, List.getElem?_set_ne h.symm]

theorem getD_set_le (counts : List Nat) (i value : Nat) : (counts.set i value).getD i 0 ≤ value := by
  rw [getD_eq_getElem?_getD, List.getElem?_set_self']
  cases counts[i]? <;> simp

theorem shareFlexibleStepChecked_eq {pool total : Nat} {allPairs rest : List (Nat × Nat)} {pair : Nat × Nat}
    (hpool : pool ≤ u16Max) (hwt : pair.2 ≤ u32Max) (hi : SharesInv pool total allPairs (pair :: rest) state) :
    shareFlexibleStepChecked pool total state pair = some (shareFlexibleStep pool total state pair) ∧
      SharesInv pool total allPairs rest (shareFlexibleStep pool total state pair) := by
  obtain ⟨sizes, assigned⟩ := state
  obtain ⟨index, flexWeight⟩ := pair
  obtain ⟨hcn, hassigned, hshr⟩ := hi
  simp only [map_cons, sum_cons] at hcn hassigned hshr hwt
  have hshare : pool * flexWeight / total ≤ u16Max := by omega
  have hprod := Nat.mul_le_mul hpool hwt
  simp only [shareFlexibleStepChecked, shareFlexibleStep, bind_eq_bind]
  rw [asU16_of_le hshare]
  refine ⟨?_, hcn.set index hshare, ?_, ?_⟩
  · rw [checkedMul_of_le, bind_some, checkedCast_of_le hshare, bind_some, checkedAdd_of_le]
    · rfl
    · unfold u16Max at hpool
      unfold u64Max
      omega
    · unfold u16Max u32Max at hprod
      unfold u64Max
      omega
  · dsimp only
    omega
  · intro pair hm
    dsimp only
    by_cases heq : pair.1 = index
    · right
      rw [heq]
      exact le_trans (getD_set_le _ _ _) (Nat.le_add_left _ _)
    · rw [getD_set_ne heq]
      rcases hshr pair hm with hr | hle
      · left
        exact (mem_cons.1 hr).resolve_left heq
      · right
        exact le_trans hle (Nat.le_add_right _ _)

structure LeftoverInv (rest : List (Nat × Nat)) (sizes : List Nat) : Prop where
  counts : CountsWithinU16 sizes
  room : ∀ pair ∈ rest, sizes.getD pair.1 0 < u16Max
  distinct : (rest.map Prod.fst).Nodup

theorem addLeftoverStepChecked_eq {rest : List (Nat × Nat)} {pair : Nat × Nat} (hi : LeftoverInv (pair :: rest) sizes) :
    addLeftoverStepChecked sizes pair = some (addLeftoverStep sizes pair) ∧
      LeftoverInv rest (addLeftoverStep sizes pair) := by
  obtain ⟨hcn, hroom, hdistinct⟩ := hi
  have hpr := hroom pair mem_cons_self
  rw [map_cons, nodup_cons] at hdistinct
  simp only [addLeftoverStepChecked, addLeftoverStep, bind_eq_bind]
  rw [← set_getD_eq_modify sizes (· + 1)]
  refine ⟨?_, hcn.set pair.1 (by omega), ?_, hdistinct.2⟩
  · rw [checkedAdd_of_le (by omega)]
    rfl
  · intro other hm
    rw [getD_set_ne]
    · exact hroom other (mem_cons_of_mem _ hm)
    · intro heq
      exact hdistinct.1 (heq ▸ List.mem_map_of_mem hm)

theorem listFlexiblePairs_sublist (weights : List SizeWeight) :
    ((listFlexibleChildWeightPairs weights).map Prod.fst).Sublist (weights.zipIdx.map Prod.snd) := by
  unfold listFlexibleChildWeightPairs
  generalize weights.zipIdx = slots
  induction slots with
  | nil => exact .slnil
  | cons slot slots ih =>
    rw [filterMap_cons]
    split
    · exact .cons _ ih
    · next pair hpr =>
      have hidx : pair.1 = slot.2 := by
        obtain ⟨sizeWeight, index⟩ := slot
        dsimp only at hpr
        split at hpr <;> cases hpr <;> rfl
      rw [map_cons, map_cons, hidx]
      exact .cons_cons _ ih

theorem listFlexiblePairs_nodup (weights : List SizeWeight) :
    ((listFlexibleChildWeightPairs weights).map Prod.fst).Nodup := by
  refine (listFlexiblePairs_sublist weights).nodup ?_
  rw [zipIdx_map_snd]
  exact nodup_range'

theorem listFlexiblePairs_weight (hws : ∀ weight ∈ weights, weight.WithinTypes) :
    ∀ pair ∈ listFlexibleChildWeightPairs weights, pair.2 ≤ u32Max := by
  intro pair hm
  obtain ⟨⟨sizeWeight, index⟩, hslot, hpr⟩ := mem_filterMap.1 hm
  have hprimary := (hws sizeWeight (fst_mem_of_mem_zipIdx hslot)).primary
  dsimp only at hpr
  split at hpr
  · next flexWeight hflex =>
    rw [hflex] at hprimary
    rw [← Option.some.inj hpr]
    exact hprimary
  · rw [← Option.some.inj hpr]
    exact Nat.le_add_left 1 4294967294
  · rw [← Option.some.inj hpr]
    exact Nat.le_add_left 1 4294967294
  · cases hpr
  · cases hpr

theorem length_listFlexiblePairs_le (weights : List SizeWeight) :
    (listFlexibleChildWeightPairs weights).length ≤ weights.length :=
  le_trans (length_filterMap_le _ _) (by rw [length_zipIdx])

theorem sum_flexWeights_le (hws : ∀ weight ∈ weights, weight.WithinTypes) (hc : weights.length ≤ maxCheckedChildCount) :
    ((listFlexibleChildWeightPairs weights).map (·.2)).sum ≤ u64Max := by
  have hsum := sum_le_card_nsmul ((listFlexibleChildWeightPairs weights).map (·.2)) u32Max fun flexWeight hm => by
    obtain ⟨pair, hpr, rfl⟩ := List.mem_map.1 hm
    exact listFlexiblePairs_weight hws pair hpr
  rw [smul_eq_mul, length_map] at hsum
  have hln := le_trans (length_listFlexiblePairs_le weights) hc
  have hprod := Nat.mul_le_mul_right u32Max hln
  unfold maxCheckedChildCount u32Max at hprod
  unfold u32Max at hsum
  unfold u64Max
  omega

theorem claimsChecked_eq (weights : List SizeWeight) {n : Nat} (hav : n ≤ u16Max) :
    ∃ claims, weights.zipIdx.foldlM claimFixedStepChecked (List.replicate weights.length 0, n) = some claims ∧
      claims = weights.zipIdx.foldl claimFixedStep (List.replicate weights.length 0, n) ∧
      weights.zipIdx.foldlM (claimPercentStepChecked n) claims =
        some (weights.zipIdx.foldl (claimPercentStep n) claims) ∧
      ClaimsWithinU16 n (weights.zipIdx.foldl (claimPercentStep n) claims) := by
  have hinit : ClaimsWithinU16 n (List.replicate weights.length 0, n) := by
    refine ⟨fun cellCount hm => ?_, Nat.le_refl _⟩
    rw [eq_of_mem_replicate hm]
    exact Nat.zero_le _
  obtain ⟨hfixed, hclaims⟩ := @foldlM_eq_some _ _ (fun _ => ClaimsWithinU16 n) claimFixedStepChecked
    claimFixedStep weights.zipIdx _ hinit fun weightAt _ _ hs => claimFixedStepChecked_eq hav hs weightAt
  obtain ⟨hpercent, hen⟩ := @foldlM_eq_some _ _ (fun _ => ClaimsWithinU16 n)
    (claimPercentStepChecked n) (claimPercentStep n) weights.zipIdx _ hclaims
    fun weightAt _ _ hs => claimPercentStepChecked_eq hav hs weightAt
  exact ⟨_, hfixed, rfl, hpercent, hen⟩

theorem shareCountsChecked_eq (hav : n ≤ u16Max) (hws : ∀ weight ∈ weights, weight.WithinTypes)
    (hc : weights.length ≤ maxCheckedChildCount) :
    computeShareCellCountsChecked weights n = some (computeShareCellCounts weights n) ∧
      CountsWithinU16 (computeShareCellCounts weights n) := by
  obtain ⟨claims, hfixed, hclaims, hpercent, hcn, hleft⟩ := claimsChecked_eq weights hav
  simp only [computeShareCellCountsChecked, bind_eq_bind]
  rw [hfixed, bind_some, hpercent, bind_some, checkedSum_of_le (sum_flexWeights_le hws hc), bind_some]
  simp only [computeShareCellCounts, ← hclaims]
  generalize weights.zipIdx.foldl (claimPercentStep n) claims = percentClaims at hcn hleft ⊢
  obtain ⟨sizes, pool⟩ := percentClaims
  dsimp only at hcn hleft ⊢
  split_ifs with hem
  · exact ⟨rfl, hcn⟩
  generalize hpairs : listFlexibleChildWeightPairs weights = flexChildWeightPairs
  have hwt := listFlexiblePairs_weight hws
  have hnd := listFlexiblePairs_nodup weights
  rw [hpairs] at hwt hnd
  generalize htot : (flexChildWeightPairs.map (·.2)).sum = total
  have hpool := sum_shares_le_pool pool (flexChildWeightPairs.map (·.2))
  rw [htot, List.map_map] at hpool
  obtain ⟨hshares, hi⟩ := @foldlM_eq_some _ _
    (fun rest state => (∀ pair ∈ rest, pair.2 ≤ u32Max) ∧ SharesInv pool total flexChildWeightPairs rest state)
    (shareFlexibleStepChecked pool total)
    (shareFlexibleStep pool total) flexChildWeightPairs (sizes, 0)
    ⟨hwt, hcn, by simpa [Function.comp_def] using hpool, fun pair hm => Or.inl (List.mem_map_of_mem hm)⟩
    (fun pair rest state hs => by
      obtain ⟨hstep, hn⟩ := shareFlexibleStepChecked_eq (by omega) (hs.1 pair mem_cons_self) hs.2
      exact ⟨hstep, fun other hm => hs.1 other (mem_cons_of_mem _ hm), hn⟩)
  rw [hshares, bind_some]
  obtain ⟨-, hshareCounts, hassigned, hshr⟩ := hi
  generalize flexChildWeightPairs.foldl (shareFlexibleStep pool total) (sizes, 0) = sh at hshareCounts hassigned hshr ⊢
  obtain ⟨shareCellCounts, assigned⟩ := sh
  simp only [map_nil, sum_nil, not_mem_nil, false_or] at hshareCounts hassigned hshr ⊢
  rw [checkedSub_of_le (by omega), bind_some]
  obtain ⟨hleftover, hen⟩ := @foldlM_eq_some _ _ LeftoverInv addLeftoverStepChecked addLeftoverStep
    (flexChildWeightPairs.reverse.take (pool - assigned)) shareCellCounts
    ⟨hshareCounts, fun pair hm => by
      -- a leftover means that the children hold less than the pool
      have hpr := hshr pair (by simpa using mem_of_mem_take hm)
      have hso : 0 < pool - assigned := by
        apply Nat.pos_of_ne_zero
        intro hz
        rw [hz] at hm
        simp at hm
      omega, by
      refine List.Sublist.nodup ((take_sublist _ _).map _) ?_
      rw [map_reverse]
      exact nodup_reverse.2 hnd⟩
    (fun pair rest counts hs => addLeftoverStepChecked_eq hs)
  exact ⟨hleftover, hen.counts⟩

/-! ### Donors and targets -/

theorem takeDonorStepChecked_eq {starts : List Nat} (weights : List SizeWeight) {skipped : Nat}
    (hneeded : needed ≤ u16Max) (flex : Bool) {index : Nat} (hi : DonorInv starts floors needed skipped state) :
    takeDonorStepChecked weights floors needed skipped flex state index =
      some (takeDonorStep weights floors needed skipped flex state index) := by
  obtain ⟨counts, taken⟩ := state
  have htk := hi.taken_le
  dsimp only at htk
  simp only [takeDonorStepChecked, takeDonorStep, bind_eq_bind]
  split_ifs with hdone hskipped
  · rfl
  · rfl
  · rw [checkedSub_of_le htk, bind_some, checkedSub_of_le (by omega), bind_some, checkedAdd_of_le (by omega), bind_some,
      ← set_getD_eq_modify counts]

theorem donorPassChecked_eq {starts : List Nat} (weights : List SizeWeight) {skipped : Nat} (hneeded : needed ≤ u16Max)
    (flex : Bool) (hi : DonorInv starts floors needed skipped state) :
    (List.range starts.length).reverse.foldlM (takeDonorStepChecked weights floors needed skipped flex) state =
      some ((List.range starts.length).reverse.foldl (takeDonorStep weights floors needed skipped flex) state) :=
  (@foldlM_eq_some _ _ (fun rest state => (∀ index ∈ rest, index < starts.length) ∧
      DonorInv starts floors needed skipped state) _ _ _ _ ⟨by simp, hi⟩
    fun index _ _ hs => ⟨takeDonorStepChecked_eq weights hneeded flex hs.2,
      fun other hm => hs.1 other (mem_cons_of_mem _ hm),
      takeDonorStep_inv flex hs.2 (hs.1 index mem_cons_self)⟩).1

theorem takeDonorCountChecked_eq (starts : List Nat) (weights : List SizeWeight) (floors : List Nat) (skipped : Nat)
    (hneeded : needed ≤ u16Max) (donorPool : DonorPool) :
    takeDonorCellCountChecked starts weights floors needed skipped donorPool =
      some (takeDonorCellCount starts weights floors needed skipped donorPool) := by
  simp only [takeDonorCellCountChecked, takeDonorCellCount, bind_eq_bind]
  rw [donorPassChecked_eq weights hneeded true donorInv_init, bind_some]
  split_ifs
  · rfl
  · exact donorPassChecked_eq weights hneeded false (donorPass_inv true donorInv_init)

theorem getPreferredCount_le {wt : SizeWeight} (hwt : wt.WithinTypes) {target : Nat}
    (h : getPreferredCellCount wt = some target) : target ≤ u16Max := by
  have hprimary := hwt.primary
  unfold getPreferredCellCount at h
  cases hpref : wt.preferredCellCount with
  | some cellCount =>
    rw [hpref] at h
    obtain rfl : cellCount = target := by simpa using h
    exact hwt.preferred cellCount hpref
  | none =>
    rw [hpref] at h
    cases hcons : wt.primaryConstraint with
    | preferred cellCount =>
      rw [hcons] at h hprimary
      obtain rfl : cellCount = target := by simpa using h
      exact hprimary
    | flex => simp [hcons] at h
    | percent => simp [hcons] at h
    | fixed => simp [hcons] at h
    | minimum => simp [hcons] at h

theorem applyPreferredCountChecked_eq (hws : ∀ weight ∈ weights, weight.WithinTypes) {index : Nat}
    (hlt : index < weights.length) :
    applyPreferredCellCountChecked weights floors sizes index =
      some (applyPreferredCellCount weights floors sizes index) := by
  simp only [applyPreferredCellCountChecked, applyPreferredCellCount, bind_eq_bind]
  cases htgt : getPreferredCellCount (weights.getD index .default) with
  | none => rfl
  | some target =>
    have hle : target ≤ u16Max := by
      rw [getD_eq_getElem?_getD, List.getElem?_eq_getElem hlt, getD_some] at htgt
      exact getPreferredCount_le (hws _ (getElem_mem hlt)) htgt
    dsimp only
    split_ifs
    · cases findSurplusReceiver weights index with
      | none => rfl
      | some receiver =>
        dsimp only
        rw [checkedSub_of_le (Nat.sub_le _ _), ← set_getD_eq_modify sizes]
        rfl
    · rw [checkedSub_of_le (by omega), bind_some, takeDonorCountChecked_eq _ _ _ _ (by omega)]
      rfl
    · rfl

/-! ### Resize deltas and floors -/

theorem applyDeltaStepChecked_eq (hav : n ≤ u16Max) (hcn : CountsWithinU16 sizes) {wt : SizeWeight}
    (hwt : wt.WithinTypes) (index : Nat) :
    applyResizeDeltaStepChecked n sizes (wt, index) = some (applyResizeDeltaStep n sizes (wt, index)) ∧
      CountsWithinU16 (applyResizeDeltaStep n sizes (wt, index)) := by
  have hc := hcn.getD index
  obtain ⟨hlow, hhigh⟩ := hwt.resize
  unfold u16Max at hc hav
  simp only [applyResizeDeltaStepChecked, applyResizeDeltaStep, bind_eq_bind]
  rw [checkedAddI64_of_range (by omega), bind_some, checkedCastInt_of_range (by unfold u16Max; omega)]
  refine ⟨rfl, hcn.set index ?_⟩
  unfold u16Max
  omega

theorem applyDeltasChecked_eq (hav : n ≤ u16Max) (hws : ∀ weight ∈ weights, weight.WithinTypes)
    (hcn : CountsWithinU16 sizes) (hln : sizes.length ≤ maxCheckedChildCount) :
    applyResizeDeltasChecked sizes weights n = some (applyResizeDeltas sizes weights n) := by
  obtain ⟨hfold, -, hen, hendLength⟩ := @foldlM_eq_some _ _
    (fun (rest : List (SizeWeight × Nat)) counts => (∀ slot ∈ rest, slot.1.WithinTypes) ∧ CountsWithinU16 counts ∧
      counts.length = sizes.length)
    (applyResizeDeltaStepChecked n) (applyResizeDeltaStep n) weights.zipIdx
    sizes ⟨fun slot hslot => hws slot.1 (fst_mem_of_mem_zipIdx hslot), hcn, rfl⟩
    (fun slot rest counts hs => by
      obtain ⟨hr, hs, hsLen⟩ := hs
      obtain ⟨hstep, hn⟩ := applyDeltaStepChecked_eq hav hs (hr slot mem_cons_self) slot.2
      refine ⟨hstep, fun other hm => hr other (mem_cons_of_mem _ hm), hn, ?_⟩
      simpa [applyResizeDeltaStep] using hsLen)
  simp only [applyResizeDeltasChecked, applyResizeDeltas, bind_eq_bind]
  rw [hfold, bind_some]
  exact repairCountSumChecked_eq hen (by omega) hav

theorem clampCountToFloorChecked_eq (weights : List SizeWeight) (hfl : CountsWithinU16 floors) (sizes : List Nat)
    (index : Nat) :
    clampCellCountToFloorChecked weights floors sizes index =
      some (clampCellCountToFloor weights floors sizes index) := by
  have hfloor := hfl.getD index
  simp only [clampCellCountToFloorChecked, clampCellCountToFloor, bind_eq_bind]
  split_ifs with hbelow
  · have hi := @takeDonorCellCount_inv sizes weights floors
      (floors.getD index 0 - sizes.getD index 0) index .allChildren
    rw [checkedSub_of_le (by omega), bind_some, takeDonorCountChecked_eq _ _ _ _ (by omega), bind_some]
    generalize takeDonorCellCount sizes weights floors
      (floors.getD index 0 - sizes.getD index 0) index .allChildren = result at hi ⊢
    obtain ⟨counts, taken⟩ := result
    have hskip := hi.skipped_eq
    have htk := hi.taken_le
    dsimp only at hskip htk ⊢
    rw [checkedAdd_of_le (by omega), ← set_getD_eq_modify counts]
    rfl
  · rfl

theorem clampCountsToFloorsChecked_eq (weights : List SizeWeight) (hfl : CountsWithinU16 floors)
    (hln : floors.length ≤ maxCheckedChildCount) (sizes : List Nat) (n : Nat) :
    clampCellCountsToFloorsChecked sizes weights floors n = some (clampCellCountsToFloors sizes weights floors n) := by
  simp only [clampCellCountsToFloorsChecked, clampCellCountsToFloors, bind_eq_bind]
  rw [checkedSum_of_le (hfl.sum_le hln), bind_some]
  split_ifs
  · rfl
  · exact (@foldlM_eq_some _ _ (fun _ _ => True) _ (clampCellCountToFloor weights floors) _ _ trivial
      fun index _ counts _ => ⟨clampCountToFloorChecked_eq weights hfl counts index, trivial⟩).1

/-! ### The whole distribution -/

/-- **The distribution of an axis**: for up to `2 ^ 32 + 1` children no operation leaves its type, the sizes sum to
exactly the available cells, and every child is at least its floor when the floors fit. -/
theorem distributeAxisCells_checked (weights : List SizeWeight) (floors : List Nat) (room : Nat) (hne : weights ≠ [])
    (hlength : floors.length = weights.length) (hws : ∀ weight ∈ weights, weight.WithinTypes)
    (hfloors : ∀ floor ∈ floors, floor ≤ u16Max) (havailable : room ≤ u16Max)
    (hcount : weights.length ≤ maxCheckedChildCount) :
    ∃ sizes, distributeAxisCellsChecked weights floors room = some sizes ∧
      sizes = distributeAxisCells weights floors room ∧
      sizes.length = weights.length ∧ sizes.sum = room ∧
      (floors.sum ≤ room → ∀ childIndex, floors.getD childIndex 0 ≤ sizes.getD childIndex 0) := by
  obtain ⟨⟨haxisLength, hsum⟩, hfloor⟩ := distributeAxisCells_axis havailable hne hlength
  refine ⟨_, ?_, rfl, haxisLength, hsum, hfloor⟩
  obtain ⟨hshares, hshareCounts⟩ := shareCountsChecked_eq havailable hws hcount
  have hshareLength := length_shareCounts weights room
  have hrepaired : AxisCounts weights.length room (repairCellCountSum (computeShareCellCounts weights room) room) := by
    refine ⟨by simp, sum_repairCellCountSum _ _ (fun h => hne ?_) havailable⟩
    rw [h] at hshareLength
    exact eq_nil_of_length_eq_zero hshareLength.symm
  have hpref : applyPreferredCellCountsChecked
      (repairCellCountSum (computeShareCellCounts weights room) room) weights floors =
      some (applyPreferredCellCounts (repairCellCountSum (computeShareCellCounts weights room) room) weights floors) :=
    (@foldlM_eq_some _ _ (fun (rest : List Nat) _ => ∀ childIndex ∈ rest, childIndex < weights.length) _
      (applyPreferredCellCount weights floors) _ _ (by simp) fun childIndex _ _ hs =>
      ⟨applyPreferredCountChecked_eq hws (hs childIndex mem_cons_self),
        fun other hmem => hs other (mem_cons_of_mem _ hmem)⟩).1
  have hpreferredAxis := @applyPreferredCounts_axis _ _ floors _ havailable hrepaired
  have hpreferredCounts := CountsWithinU16.of_sum (le_of_eq_of_le hpreferredAxis.sum_eq havailable)
  simp only [distributeAxisCellsChecked, bind_eq_bind]
  rw [hshares, bind_some,
    repairCountSumChecked_eq hshareCounts (by omega) havailable, bind_some, hpref, bind_some,
    applyDeltasChecked_eq havailable hws hpreferredCounts (by rw [hpreferredAxis.length_eq]; exact hcount), bind_some,
      clampCountsToFloorsChecked_eq weights hfloors (by omega)]
  rfl

/-- A fixed child, a target with a resize offset and a share, over eighty cells. -/
theorem distributeAxisCells_checked_threeChildren :
    ∃ sizes, distributeAxisCellsChecked [.fromPrimaryConstraint (.fixed 10),
        ⟨.preferred 30, none, none, 5⟩, .fromPrimaryConstraint (.flex 2)] [3, 3, 40] 80 = some sizes ∧
      sizes.sum = 80 := by
  obtain ⟨sizes, hchecked, -, -, hsum, -⟩ := distributeAxisCells_checked
    [.fromPrimaryConstraint (.fixed 10), ⟨.preferred 30, none, none, 5⟩, .fromPrimaryConstraint (.flex 2)]
    [3, 3, 40] 80 (by simp) rfl
    (by
      intro weight hmem
      simp only [mem_cons, not_mem_nil, or_false] at hmem
      rcases hmem with rfl | rfl | rfl
      all_goals exact ⟨by simp [SizeWeight.fromPrimaryConstraint, u16Max,
        u32Max], by simp [SizeWeight.fromPrimaryConstraint],
        by simp [SizeWeight.fromPrimaryConstraint], by decide⟩)
    (by decide) (by decide) (by unfold maxCheckedChildCount; decide)
  exact ⟨sizes, hchecked, hsum⟩

/-! ### One child more -/

theorem map_filterMap_eq_replicate {slots : List (SizeWeight × Nat)} {f : SizeWeight × Nat → Option (Nat × Nat)}
    {flexWeight : Nat} (h : ∀ slot ∈ slots, (f slot).map (·.2) = some flexWeight) :
    (slots.filterMap f).map (·.2) = List.replicate slots.length flexWeight := by
  induction slots with
  | nil => rfl
  | cons slot slots ih =>
    obtain ⟨pair, hpr, rfl⟩ := map_eq_some_iff.1 (h slot mem_cons_self)
    rw [filterMap_cons_some hpr, map_cons, ih fun other hm => h other (mem_cons_of_mem _ hm)]
    rfl

/-- The weights of `2 ^ 32 + 2` children of the largest share. -/
def largestShares : List SizeWeight :=
  List.replicate (maxCheckedChildCount + 1) (.fromPrimaryConstraint (.flex u32Max))

/-- One child more, each with the largest share: the sum of the shares leaves `u64`. -/
theorem distributeAxisCells_share_sum_overflows :
    ¬ ∀ (weights : List SizeWeight) (floors : List Nat) (room : Nat), weights ≠ [] →
      floors.length = weights.length → (∀ weight ∈ weights, weight.WithinTypes) →
      (∀ floor ∈ floors, floor ≤ u16Max) → room ≤ u16Max →
      distributeAxisCellsChecked weights floors room ≠ none := by
  intro h
  have hshares := h largestShares (List.replicate (maxCheckedChildCount + 1) 0) 80
    (fun hnil => by simpa [largestShares] using congrArg List.length hnil)
    (by rw [largestShares, length_replicate, length_replicate])
    (fun weight hmem => by
      rw [eq_of_mem_replicate hmem]
      exact ⟨Nat.le_refl _, by simp [SizeWeight.fromPrimaryConstraint], by simp [SizeWeight.fromPrimaryConstraint],
        by decide⟩)
    (fun floor hmem => by
      rw [eq_of_mem_replicate hmem]
      exact Nat.zero_le _)
    (by decide)
  apply hshares
  obtain ⟨claims, hfixed, -, hpercent, -⟩ := @claimsChecked_eq largestShares 80 (by decide)
  have hsum : ((listFlexibleChildWeightPairs largestShares).map (·.2)).sum = (maxCheckedChildCount + 1) * u32Max := by
    rw [listFlexibleChildWeightPairs, map_filterMap_eq_replicate, sum_replicate, length_zipIdx, largestShares,
      length_replicate, smul_eq_mul]
    intro slot hmem
    have hweight := eq_of_mem_replicate (fst_mem_of_mem_zipIdx hmem)
    simp only [hweight, SizeWeight.fromPrimaryConstraint, map_some]
  have hnone : checkedSum u64Max ((listFlexibleChildWeightPairs largestShares).map (·.2)) = none := by
    rw [checkedSum_eq, hsum, if_neg]
    unfold maxCheckedChildCount u32Max u64Max
    omega
  simp only [distributeAxisCellsChecked, computeShareCellCountsChecked, bind_eq_bind]
  rw [hfixed, bind_some, hpercent, bind_some, hnone]
  rfl

end Koshi.Layout
