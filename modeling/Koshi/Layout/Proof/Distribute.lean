import Koshi.Base.Loop
import Koshi.Layout.Solver

/-!
# Distribution along one axis

`distributeAxisCells` hands out exactly the available cells, and every child ends at or above its floor
when the floors fit. Each pass has one lemma: the sum repair makes the sum exact, the donor loop moves
cells without creating or losing any, and the floor pass is funded because the cells above the floors
cover the cells missing below them.
-/

namespace Koshi.Layout

open Base Koshi.Core List

variable {weights : List SizeWeight}

/-! ### The sum repair -/

theorem length_trimCellCounts (counts : List Nat) (excess : Nat) :
    (trimCellCounts counts excess).length = counts.length := by
  induction counts generalizing excess with
  | nil => rfl
  | cons cellCount counts ih =>
    simp only [trimCellCounts, length_cons]
    split
    · rfl
    · rw [ih]

theorem sum_trimCellCounts (counts : List Nat) (excess : Nat) (h : excess ≤ counts.sum) :
    (trimCellCounts counts excess).sum = counts.sum - excess := by
  induction counts generalizing excess with
  | nil => simp [trimCellCounts]
  | cons cellCount counts ih =>
    simp only [sum_cons] at h
    simp only [trimCellCounts, sum_cons]
    split
    · omega
    · rw [ih _ (by omega)]
      omega

@[simp] theorem length_repairCountSum (sh : List Nat) (room : Nat) :
    (repairCellCountSum sh room).length = sh.length := by
  simp only [repairCellCountSum]
  split_ifs
  · simp
  · simp [length_trimCellCounts]
  · rfl

theorem sum_repairCellCountSum (sh : List Nat) (room : Nat) (hne : sh ≠ []) (hav : room ≤ u16Max) :
    (repairCellCountSum sh room).sum = room := by
  have hlen := length_pos_iff.2 hne
  simp only [repairCellCountSum]
  split_ifs with hshort hexcess
  · have hl := sum_modify sh (· + asU16 (room - sh.sum)) (sh.length - 1) (by omega)
    simp only [asU16_of_le (a := room - sh.sum) (by omega)] at hl ⊢
    omega
  · rw [sum_reverse, sum_trimCellCounts _ _ (by rw [sum_reverse]; omega), sum_reverse]
    omega
  · omega

/-! ### The shares -/

theorem length_claimFixedStep (claims : List Nat × Nat) (weightAt : SizeWeight × Nat) :
    (claimFixedStep claims weightAt).1.length = claims.1.length := by
  simp only [claimFixedStep]
  split <;> simp

theorem length_claimPercentStep (room : Nat) (claims : List Nat × Nat) (weightAt : SizeWeight × Nat) :
    (claimPercentStep room claims weightAt).1.length = claims.1.length := by
  simp only [claimPercentStep]
  split <;> simp

@[simp] theorem length_shareCounts (weights : List SizeWeight) (room : Nat) :
    (computeShareCellCounts weights room).length = weights.length := by
  have hpercent : (weights.zipIdx.foldl (claimPercentStep room) (weights.zipIdx.foldl
      claimFixedStep (List.replicate weights.length 0, room))).1.length = weights.length := by
    refine foldl_keeps (fun claims : List Nat × Nat => claims.1.length = weights.length) ?_
      fun claims hclaims weightAt _ => (length_claimPercentStep _ _ _).trans hclaims
    exact foldl_keeps (fun claims : List Nat × Nat => claims.1.length = weights.length) (by simp)
      fun claims hclaims weightAt _ => (length_claimFixedStep _ _).trans hclaims
  simp only [computeShareCellCounts]
  split
  · exact hpercent
  · refine foldl_keeps (fun counts : List Nat => counts.length = weights.length) ?_
      fun counts hcn pair _ => by simpa [addLeftoverStep] using hcn
    exact foldl_keeps (fun state : List Nat × Nat => state.1.length = weights.length) hpercent
      fun state hst pair _ => by simpa [shareFlexibleStep] using hst

/-! ### Donors -/

/-- The state of the donor loop against the counts it started from: cells are conserved, no more than
needed are taken, donors only lose cells and none falls below its floor, the taker is untouched. -/
structure DonorInv (starts floors : List Nat) (needed skipped : Nat) (state : List Nat × Nat) : Prop where
  length_eq : state.1.length = starts.length
  sum_eq : state.1.sum + state.2 = starts.sum
  taken_le : state.2 ≤ needed
  skipped_eq : state.1.getD skipped 0 = starts.getD skipped 0
  lower : ∀ j, min (starts.getD j 0) (floors.getD j 0) ≤ state.1.getD j 0
  upper : ∀ j, state.1.getD j 0 ≤ starts.getD j 0

section Donors

variable {starts : List Nat} {weights : List SizeWeight} {floors : List Nat} {needed skipped : Nat}

variable {state : List Nat × Nat}

theorem donorInv_init : DonorInv starts floors needed skipped (starts, 0) where
  length_eq := rfl
  sum_eq := rfl
  taken_le := Nat.zero_le _
  skipped_eq := rfl
  lower _ := Nat.min_le_left _ _
  upper _ := Nat.le_refl _

variable (flex : Bool)

theorem takeDonorStep_inv {index : Nat} (hiv : DonorInv starts floors needed skipped state)
    (hlt : index < starts.length) :
    DonorInv starts floors needed skipped (takeDonorStep weights floors needed skipped flex state index) := by
  obtain ⟨counts, taken⟩ := state
  obtain ⟨hlen, hsum, htk, hskip, hlower, hupper⟩ := hiv
  dsimp only at hlen hsum htk hskip hlower hupper
  simp only [takeDonorStep]
  split_ifs with hdone hskipped
  · exact ⟨hlen, hsum, htk, hskip, hlower, hupper⟩
  · exact ⟨hlen, hsum, htk, hskip, hlower, hupper⟩
  · have hne : index ≠ skipped := fun h => hskipped (Or.inl h)
    generalize hg : min (counts.getD index 0 - floors.getD index 0) (needed - taken) = given
    have hget := fun j => getD_modify counts (· - given) index j (hlen ▸ hlt)
    have hsum' := sum_modify counts (· - given) index (hlen ▸ hlt)
    have hbo := hlower index
    refine ⟨by simpa using hlen, by simp only at hsum' ⊢; omega, by dsimp only; omega, ?_, ?_, ?_⟩
    · rw [hget, if_neg hne.symm]
      exact hskip
    · intro j
      have := hlower j
      rw [hget]
      split_ifs with hj
      · subst hj
        omega
      · exact this
    · intro j
      have := hupper j
      rw [hget]
      split_ifs with hj
      · subst hj
        omega
      · exact this

/-- A donor pass leaves no donor of its kind above its floor, unless it took everything needed. -/
theorem takeDonorStep_visit {index : Nat} (hiv : DonorInv starts floors needed skipped state)
    (hlt : index < starts.length) (hne : index ≠ skipped) (hflex : isFlexible (weights.getD index .default) = flex) :
    let next := takeDonorStep weights floors needed skipped flex state index
    next.2 = needed ∨ next.1.getD index 0 ≤ floors.getD index 0 := by
  obtain ⟨counts, taken⟩ := state
  have htk := hiv.taken_le
  have hlen := hiv.length_eq
  dsimp only at htk hlen
  simp only [takeDonorStep]
  split_ifs with hdone hskipped
  · exact Or.inl hdone
  · exact absurd hskipped (not_or.2 ⟨hne, not_not.2 hflex⟩)
  · rw [getD_modify _ _ _ _ (hlen ▸ hlt), if_pos rfl]
    dsimp only
    omega

theorem takeDonorStep_stable (flex : Bool) {index j : Nat} (hiv : DonorInv starts floors needed skipped state)
    (hlt : index < starts.length) (h : state.2 = needed ∨ state.1.getD j 0 ≤ floors.getD j 0) :
    let next := takeDonorStep weights floors needed skipped flex state index
    next.2 = needed ∨ next.1.getD j 0 ≤ floors.getD j 0 := by
  obtain ⟨counts, taken⟩ := state
  have hlen := hiv.length_eq
  dsimp only at hlen h
  simp only [takeDonorStep]
  split_ifs with hdone hskipped
  · exact Or.inl hdone
  · exact h
  · rw [getD_modify _ _ _ _ (hlen ▸ hlt)]
    dsimp only
    rcases h with h | h
    · exact absurd h hdone
    · split_ifs with hj
      · subst hj
        omega
      · exact Or.inr h

theorem donorPass_inv {state : List Nat × Nat} (hiv : DonorInv starts floors needed skipped state) :
    DonorInv starts floors needed skipped
      ((List.range starts.length).reverse.foldl (takeDonorStep weights floors needed skipped flex) state) :=
  foldl_keeps _ hiv fun _ hs index hm =>
    takeDonorStep_inv flex hs (by simpa using hm)

theorem takeDonorCellCount_inv (donorPool : DonorPool) :
    DonorInv starts floors needed skipped (takeDonorCellCount starts weights floors needed skipped donorPool) := by
  simp only [takeDonorCellCount]
  split
  · exact donorPass_inv true donorInv_init
  · exact donorPass_inv false (donorPass_inv true donorInv_init)

/-- Every donor of the pass's kind has nothing left to give after it, unless everything needed was taken. -/
theorem donorPass_spent {j : Nat} (hiv : DonorInv starts floors needed skipped state) (hlt : j < starts.length)
    (hne : j ≠ skipped) (hflex : isFlexible (weights.getD j .default) = flex) :
    let next := (List.range starts.length).reverse.foldl (takeDonorStep weights floors needed skipped flex) state
    next.2 = needed ∨ next.1.getD j 0 ≤ floors.getD j 0 :=
  foldl_visits (DonorInv starts floors needed skipped)
    (fun next => next.2 = needed ∨ next.1.getD j 0 ≤ floors.getD j 0) (by simpa using hlt) hiv
    (fun _ hs _ hm => takeDonorStep_inv flex hs (by simpa using hm))
    (fun _ hs => takeDonorStep_visit flex hs hlt hne hflex)
    (fun _ hs hq _ hm => takeDonorStep_stable flex hs (by simpa using hm) hq)

/-- After both passes no sibling is above its floor, unless everything needed was taken. -/
theorem takeDonorCount_spent {j : Nat} (hne : j ≠ skipped) :
    let result := takeDonorCellCount starts weights floors needed skipped .allChildren
    result.2 = needed ∨ result.1.getD j 0 ≤ floors.getD j 0 := by
  intro result
  by_cases hlt : j < starts.length
  · have hf := @donorPass_inv _ weights _ _ _ true _ (@donorInv_init starts floors needed skipped)
    cases hflex : isFlexible (weights.getD j .default) with
    | false => exact donorPass_spent false hf hlt hne hflex
    | true =>
      -- spent by the first pass; the second pass only takes
      refine foldl_keeps (fun next : List Nat × Nat =>
        DonorInv starts floors needed skipped next ∧ (next.2 = needed ∨ next.1.getD j 0 ≤ floors.getD j 0))
        ⟨hf, donorPass_spent true donorInv_init hlt hne hflex⟩ (fun s hs index hm => ?_) |>.2
      have hm : index < starts.length := by simpa using hm
      exact ⟨takeDonorStep_inv false hs.1 hm, takeDonorStep_stable false hs.1 hm hs.2⟩
  · right
    have hlen : result.1.length = starts.length := (takeDonorCellCount_inv .allChildren).length_eq
    rw [getD_of_length_le (by omega)]
    exact Nat.zero_le _

end Donors

/-- The floor pass can fund every deficit: while the floors fit the sum, the donors above their floors hold
at least the cells the taker misses. -/
theorem takeDonorCellCount_all {sh : List Nat} {weights : List SizeWeight} {floors : List Nat} {index : Nat}
    (hlen : floors.length = sh.length) (hfl : floors.sum ≤ sh.sum) (hbelow : sh.getD index 0 ≤ floors.getD index 0) :
    (takeDonorCellCount sh weights floors (floors.getD index 0 - sh.getD index 0) index .allChildren).2 =
      floors.getD index 0 - sh.getD index 0 := by
  generalize hneeded : floors.getD index 0 - sh.getD index 0 = needed
  have hiv := @takeDonorCellCount_inv sh weights floors needed index .allChildren
  have hspent := fun j => @takeDonorCount_spent sh weights floors needed index j
  generalize takeDonorCellCount sh weights floors needed index .allChildren = result at hiv hspent
  by_contra hne
  have hle := sum_add_getD_le result.1 floors index (by rw [hiv.length_eq, hlen])
    fun j hj => (hspent j hj).resolve_left hne
  have h1 := hiv.skipped_eq
  have h2 := hiv.sum_eq
  have h3 := hiv.taken_le
  omega

/-! ### Preferred targets -/

structure AxisCounts (childCount room : Nat) (shares : List Nat) : Prop where
  length_eq : shares.length = childCount
  sum_eq : shares.sum = room

theorem findSurplusReceiver_spec {index receiver : Nat} (h : findSurplusReceiver weights index = some receiver) :
    receiver < weights.length ∧ receiver ≠ index := by
  have hm := List.mem_of_find?_eq_some h
  have hpred := List.find?_some h
  simp only [mem_reverse, mem_range] at hm
  simp only [Bool.and_eq_true, decide_eq_true_eq] at hpred
  exact ⟨hm, hpred.1⟩

theorem applyPreferredCount_axis {floors sh : List Nat} {room index : Nat} (hav : room ≤ u16Max)
    (haxis : AxisCounts weights.length room sh) (hlt : index < weights.length) :
    AxisCounts weights.length room (applyPreferredCellCount weights floors sh index) := by
  obtain ⟨hlen, hsum⟩ := haxis
  simp only [applyPreferredCellCount]
  split
  · exact ⟨hlen, hsum⟩
  rename_i target _
  split_ifs with hsurplus hdeficit
  · split
    · -- the surplus moves to the receiver
      rename_i receiver hto
      obtain ⟨hrlt, hrne⟩ := findSurplusReceiver_spec hto
      generalize hs : sh.getD index 0 - max target (floors.getD index 0) = surplusCellCount
      have hf := sum_modify sh (· - surplusCellCount) index (by omega)
      have hse := sum_modify (sh.modify index (· - surplusCellCount))
        (satAdd16 · surplusCellCount) receiver (by simp; omega)
      rw [getD_modify _ _ _ _ (by omega), if_neg hrne] at hse
      have htwo := getD_add_getD_le_sum sh receiver index hrne
      rw [satAdd16_of_le (by omega)] at hse
      exact ⟨by simpa using hlen, by omega⟩
    · exact ⟨hlen, hsum⟩
  · -- the donors' cells move to the child
    have hiv := @takeDonorCellCount_inv sh weights floors (target - sh.getD index 0) index .flexibleOnly
    generalize takeDonorCellCount sh weights floors (target - sh.getD index 0) index .flexibleOnly = result at hiv ⊢
    obtain ⟨counts, taken⟩ := result
    obtain ⟨hlen', hsum', -, hskip, -, -⟩ := hiv
    dsimp only at hlen' hsum' hskip ⊢
    have hmod := sum_modify counts (satAdd16 · taken) index (by omega)
    have hget := getD_le_sum counts index
    rw [satAdd16_of_le (by omega)] at hmod
    exact ⟨by simp; omega, by omega⟩
  · exact ⟨hlen, hsum⟩

variable {room : Nat}

theorem applyPreferredCounts_axis {weights : List SizeWeight} {floors sh : List Nat} (hav : room ≤ u16Max)
    (haxis : AxisCounts weights.length room sh) :
    AxisCounts weights.length room (applyPreferredCellCounts sh weights floors) :=
  foldl_keeps (AxisCounts weights.length room) haxis
    fun _ hs index hm => applyPreferredCount_axis hav hs (by simpa using hm)

/-! ### Resize deltas and floors -/

theorem applyResizeDeltas_axis {weights : List SizeWeight} {sh : List Nat} (hav : room ≤ u16Max) (hne : weights ≠ [])
    (hlen : sh.length = weights.length) :
    AxisCounts weights.length room (applyResizeDeltas sh weights room) := by
  have hfold : (weights.zipIdx.foldl (applyResizeDeltaStep room) sh).length = weights.length :=
    foldl_keeps (fun counts : List Nat => counts.length = weights.length) hlen
      fun counts hcn _ _ => by simpa [applyResizeDeltaStep] using hcn
  refine ⟨by simp [applyResizeDeltas, hfold], ?_⟩
  refine sum_repairCellCountSum _ _ (fun h => hne ?_) hav
  rw [h] at hfold
  exact eq_nil_of_length_eq_zero hfold.symm

/-- What the floor pass keeps and extends: the counts of the axis, and the first `doneCount` children at or
above their floors. -/
structure ClampInv (floors : List Nat) (room doneCount : Nat) (shares : List Nat) :
    Prop where
  axis : AxisCounts floors.length room shares
  floors_le : ∀ j, j < doneCount → floors.getD j 0 ≤ shares.getD j 0

theorem clampCountToFloor_inv {floors sh : List Nat} {room index : Nat} (hfit : floors.sum ≤ room)
    (hlt : index < floors.length) (hiv : ClampInv floors room index sh) :
    ClampInv floors room (index + 1) (clampCellCountToFloor weights floors sh index) := by
  obtain ⟨⟨hlen, hsum⟩, hfl⟩ := hiv
  simp only [clampCellCountToFloor]
  split_ifs with hbelow
  · have htk := @takeDonorCellCount_all _ weights _ index hlen.symm (by omega) (by omega)
    have hdonor := @takeDonorCellCount_inv sh weights floors (floors.getD index 0 - sh.getD index 0) index .allChildren
    generalize takeDonorCellCount sh weights floors (floors.getD index 0 - sh.getD index 0) index .allChildren = result
      at htk hdonor ⊢
    obtain ⟨counts, taken⟩ := result
    obtain ⟨hlen', hsum', -, hskip, hlower, -⟩ := hdonor
    dsimp only at hlen' hsum' hskip hlower htk ⊢
    have hmod := sum_modify counts (· + taken) index (by omega)
    refine ⟨⟨by simp; omega, by omega⟩, fun j hj => ?_⟩
    rw [getD_modify _ _ _ _ (by omega)]
    split_ifs with hji
    · subst hji
      omega
    · have := hlower j
      have := hfl j (by omega)
      omega
  · refine ⟨⟨hlen, hsum⟩, fun j hj => ?_⟩
    by_cases hji : j = index
    · subst hji
      omega
    · exact hfl j (by omega)

theorem clampCountsToFloors_axis {weights : List SizeWeight} {floors sh : List Nat}
    (haxis : AxisCounts floors.length room sh) :
    AxisCounts floors.length room (clampCellCountsToFloors sh weights floors room) ∧
      (floors.sum ≤ room → ∀ j, floors.getD j 0 ≤ (clampCellCountsToFloors sh weights floors room).getD j 0) := by
  simp only [clampCellCountsToFloors]
  split_ifs with hfit
  · exact ⟨haxis, fun h => absurd h (by omega)⟩
  · have hiv := @foldl_range_keeps _ (ClampInv floors room) (clampCellCountToFloor weights floors) sh.length sh
      ⟨haxis, fun j hj => absurd hj (Nat.not_lt_zero j)⟩
      fun i s hi hs => clampCountToFloor_inv (by omega) (haxis.length_eq ▸ hi) hs
    refine ⟨hiv.axis, fun _ j => ?_⟩
    by_cases hj : j < sh.length
    · exact hiv.floors_le j hj
    · rw [getD_of_length_le (by have := haxis.length_eq; omega)]
      exact Nat.zero_le _

/-- **The exact-sum law of the distribution**: the sizes sum to the available cells, and every child is at
or above its floor when the floors fit. -/
theorem distributeAxisCells_axis {weights : List SizeWeight} {floors : List Nat} (hav : room ≤ u16Max)
    (hne : weights ≠ []) (hlen : floors.length = weights.length) :
    AxisCounts weights.length room (distributeAxisCells weights floors room) ∧
      (floors.sum ≤ room → ∀ j, floors.getD j 0 ≤ (distributeAxisCells weights floors room).getD j 0) := by
  have hshare : AxisCounts weights.length room (repairCellCountSum (computeShareCellCounts weights room) room) := by
    refine ⟨by simp, sum_repairCellCountSum _ _ (fun h => hne ?_) hav⟩
    have := length_shareCounts weights room
    rw [h] at this
    exact eq_nil_of_length_eq_zero this.symm
  have hpref := @applyPreferredCounts_axis _ _ floors _ hav hshare
  have hresized := applyResizeDeltas_axis hav hne hpref.length_eq
  rw [← hlen] at hresized ⊢
  exact clampCountsToFloors_axis hresized

end Koshi.Layout
