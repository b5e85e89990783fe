import Koshi.Layout.Proof.ChildRects
import Koshi.Layout.ResizeDeltaConversion

/-!
# Resize deltas in the distribution

Of all the passes of `distributeAxisCells` one reads the resize deltas, and it adds each to its own count. The
other passes, and what `listKeptChildren` hands to them, are the same for weights that differ in their deltas only.
-/

namespace Koshi.Layout

open Base Koshi.Core List SizeWeight

variable {sh : List Nat} (weights : List SizeWeight) {node other : SplitNode LayoutNode}

def SizeWeight.withoutDelta (weight : SizeWeight) : SizeWeight := { weight with resizeDelta := 0 }

/-! ### The passes that read no delta -/

section WithoutDelta

variable (weights : List SizeWeight) (fl sh : List Nat) (room : Nat)

variable (weight : SizeWeight)

theorem isFlexible_withoutDelta : isFlexible weight.withoutDelta = isFlexible weight := rfl

theorem getPreferredCount_withoutDelta : getPreferredCellCount weight.withoutDelta = getPreferredCellCount weight := rfl

theorem getWeightFloor_withoutDelta : getWeightFloor weight.withoutDelta = getWeightFloor weight :=
  rfl

theorem getD_map_withoutDelta (index : Nat) :
    (weights.map withoutDelta).getD index .default = (weights.getD index .default).withoutDelta := by
  rw [getD_eq_getElem?_getD, getD_eq_getElem?_getD, List.getElem?_map]
  cases weights[index]? <;> rfl

theorem zipIdx_map_withoutDelta : (weights.map withoutDelta).zipIdx = weights.zipIdx.map (Prod.map withoutDelta id) :=
  zipIdx_map

theorem listFlexiblePairs_withoutDelta :
    listFlexibleChildWeightPairs (weights.map withoutDelta) = listFlexibleChildWeightPairs weights := by
  rw [listFlexibleChildWeightPairs, zipIdx_map_withoutDelta, filterMap_map]
  rfl

theorem shareCounts_withoutDelta :
    computeShareCellCounts (weights.map withoutDelta) room = computeShareCellCounts weights room := by
  simp only [computeShareCellCounts, listFlexiblePairs_withoutDelta, zipIdx_map_withoutDelta, foldl_map, length_map]
  rfl

theorem takeDonorStep_withoutDelta : takeDonorStep (weights.map withoutDelta) fl = takeDonorStep weights fl := by
  funext needed skipped flexible st index
  simp only [takeDonorStep, getD_map_withoutDelta, isFlexible_withoutDelta]

theorem takeDonorCount_withoutDelta :
    takeDonorCellCount sh (weights.map withoutDelta) fl = takeDonorCellCount sh weights fl := by
  funext needed skipped donorPool
  simp only [takeDonorCellCount, takeDonorStep_withoutDelta]

theorem findSurplusReceiver_withoutDelta :
    findSurplusReceiver (weights.map withoutDelta) = findSurplusReceiver weights := by
  funext index
  simp only [findSurplusReceiver, getD_map_withoutDelta, isFlexible_withoutDelta, length_map]

theorem applyPreferredCount_withoutDelta :
    applyPreferredCellCount (weights.map withoutDelta) fl = applyPreferredCellCount weights fl := by
  funext sh index
  simp only [applyPreferredCellCount, getD_map_withoutDelta, getPreferredCount_withoutDelta,
    findSurplusReceiver_withoutDelta, takeDonorCount_withoutDelta]

theorem applyPreferredCounts_withoutDelta :
    applyPreferredCellCounts sh (weights.map withoutDelta) fl = applyPreferredCellCounts sh weights fl := by
  rw [applyPreferredCellCounts, applyPreferredCellCounts, applyPreferredCount_withoutDelta, length_map]

theorem clampCountsToFloors_withoutDelta :
    clampCellCountsToFloors sh (weights.map withoutDelta) fl room = clampCellCountsToFloors sh weights fl room := by
  have hstep : clampCellCountToFloor (weights.map withoutDelta) fl = clampCellCountToFloor weights fl := by
    funext sh index
    simp only [clampCellCountToFloor, takeDonorCount_withoutDelta]
  rw [clampCellCountsToFloors, clampCellCountsToFloors, hstep]

theorem targetCounts_withoutDelta :
    computeTargetCellCounts (weights.map withoutDelta) fl room = computeTargetCellCounts weights fl room := by
  simp only [computeTargetCellCounts, shareCounts_withoutDelta, applyPreferredCounts_withoutDelta]

end WithoutDelta

section SameButDeltas

variable {weights weights' : List SizeWeight} (hs : weights.map withoutDelta = weights'.map withoutDelta)
include hs

theorem clampCountsToFloors_congr (sh fl : List Nat) (room : Nat) :
    clampCellCountsToFloors sh weights fl room = clampCellCountsToFloors sh weights' fl room := by
  rw [← clampCountsToFloors_withoutDelta weights, hs, clampCountsToFloors_withoutDelta]

theorem targetCounts_congr (fl : List Nat) (room : Nat) :
    computeTargetCellCounts weights fl room = computeTargetCellCounts weights' fl room := by
  rw [← targetCounts_withoutDelta weights, hs, targetCounts_withoutDelta]

end SameButDeltas

/-! ### The pass that adds the deltas -/

def addClampedDelta (room cellCount : Nat) (weight : SizeWeight) : Nat :=
  (min (max ((cellCount : Int) + weight.resizeDelta) 0) room).toNat

theorem foldl_applyDeltaStep (room : Nat) {weights : List SizeWeight} (hlen : sh.length = weights.length)
    (done : List Nat) :
    (weights.zipIdx done.length).foldl (applyResizeDeltaStep room) (done ++ sh) =
      done ++ List.zipWith (addClampedDelta room) sh weights := by
  induction weights generalizing sh done with
  | nil =>
    obtain rfl := eq_nil_of_length_eq_zero hlen
    rfl
  | cons weight weights ih =>
    obtain ⟨cellCount, sh, rfl⟩ := exists_cons_of_length_pos (l := sh) (by
      rw [hlen]
      exact Nat.zero_lt_succ _)
    have hstep : applyResizeDeltaStep room (done ++ cellCount :: sh) (weight, done.length) =
        (done ++ [addClampedDelta room cellCount weight]) ++ sh := by
      simp [applyResizeDeltaStep, addClampedDelta]
    have hr := ih (by simpa using hlen) (done ++ [addClampedDelta room cellCount weight])
    rw [length_append, length_singleton] at hr
    rw [zipIdx_cons, foldl_cons, hstep, hr, zipWith_cons_cons, append_assoc]
    rfl

/-- **The resize pass in closed form.** -/
theorem applyResizeDeltas_eq {weights : List SizeWeight} (room : Nat) (hlen : sh.length = weights.length) :
    applyResizeDeltas sh weights room = repairCellCountSum (List.zipWith (addClampedDelta room) sh weights) room := by
  have hfold := foldl_applyDeltaStep room hlen []
  rw [length_nil, nil_append, nil_append] at hfold
  rw [applyResizeDeltas, hfold]

theorem distributeAxisCells_eq (fl : List Nat) (room : Nat) :
    distributeAxisCells weights fl room = clampCellCountsToFloors
      (applyResizeDeltas (computeTargetCellCounts weights fl room) weights room)
      weights fl room := rfl

@[simp] theorem length_applyPreferredCount (fl sh : List Nat) (index : Nat) :
    (applyPreferredCellCount weights fl sh index).length = sh.length := by
  simp only [applyPreferredCellCount]
  split
  · rfl
  rename_i target _
  have hdonors := (@takeDonorCellCount_inv sh weights fl (target - sh.getD index 0) index .flexibleOnly).length_eq
  split_ifs
  · split <;> simp
  · simpa using hdonors
  · rfl

@[simp] theorem length_applyPreferredCounts (fl sh : List Nat) :
    (applyPreferredCellCounts sh weights fl).length = sh.length :=
  foldl_keeps (fun counts : List Nat => counts.length = sh.length) rfl
    fun _ hcn _ _ => (length_applyPreferredCount _ _ _ _).trans hcn

@[simp] theorem length_targetCounts (fl : List Nat)
    (room : Nat) : (computeTargetCellCounts weights fl room).length = weights.length := by
  simp [computeTargetCellCounts]

/-! ### Counts the repair and the floors leave alone -/

theorem repairCountSum_of_sum {room : Nat} (h : sh.sum = room) : repairCellCountSum sh room = sh := by
  simp [repairCellCountSum, h]

theorem clampCountsToFloors_of_floors {fl : List Nat} {room : Nat}
    (h : fl.sum ≤ room → ∀ index, fl.getD index 0 ≤ sh.getD index 0) :
    clampCellCountsToFloors sh weights fl room = sh := by
  rw [clampCellCountsToFloors]
  split_ifs with hfit
  · rfl
  · refine foldl_keeps (fun counts : List Nat => counts = sh) rfl fun counts hcn index _ => ?_
    subst hcn
    rw [clampCellCountToFloor, if_neg (Nat.not_lt.2 (h (Nat.le_of_not_lt hfit) index))]

/-! ### The children a split keeps -/

/-- Two splits that differ in the resize deltas of their weights only: a missing weight counts as the default one. -/
structure SameButDeltas (node node' : SplitNode LayoutNode) : Prop where
  direction_eq : node.direction = node'.direction
  weights_eq : ∀ index, (node.weights.getD index .default).withoutDelta =
    (node'.weights.getD index .default).withoutDelta

theorem computeChildFloor_eq (node : SplitNode LayoutNode) (index subtreeAxisMin : Nat) :
    computeChildFloor node index subtreeAxisMin =
      max subtreeAxisMin (getWeightFloor (node.weights.getD index .default)) := by
  rw [computeChildFloor, getD_eq_getElem?_getD]
  cases node.weights[index]? <;> rfl

theorem SameButDeltas.computeChildFloor_eq
    (h : SameButDeltas node other) : computeChildFloor node = computeChildFloor other := by
  funext index subtreeAxisMinimum
  rw [Layout.computeChildFloor_eq, Layout.computeChildFloor_eq, ← getWeightFloor_withoutDelta, h.weights_eq,
    getWeightFloor_withoutDelta]

theorem listKeptIndexes_append (keeps : List Bool) (isKept : Bool) :
    listKeptIndexes (keeps ++ [isKept]) = listKeptIndexes keeps ++ (if isKept then [keeps.length] else []) := by
  rw [listKeptIndexes, zipIdx_append, filterMap_append]
  cases isKept <;> simp [listKeptIndexes]

/-- The weights of the kept children, by their flags. -/
def listWeightsAt (weights : List SizeWeight) (childIndexes : List Nat) : List SizeWeight :=
  childIndexes.map (weights.getD · .default)

/-- The loop of `listKeptChildren` over two splits that differ in deltas only. -/
structure KeptTogether (node node' : SplitNode LayoutNode) (doneCount : Nat) (kept state' : KeptState) : Prop where
  flags_eq : kept.isChildKept = state'.isChildKept
  floors_eq : kept.keptFloors = state'.keptFloors
  canKeep_eq : kept.canKeepChildren = state'.canKeepChildren
  claimed_eq : kept.claimedCellCount = state'.claimedCellCount
  length_flags : kept.isChildKept.length = doneCount
  length_floors : kept.keptFloors.length = kept.keptWeights.length
  weights_eq : kept.keptWeights = listWeightsAt node.weights (listKeptIndexes kept.isChildKept)
  other_eq : state'.keptWeights = listWeightsAt node'.weights (listKeptIndexes kept.isChildKept)

variable {kept state' : KeptState}

theorem keepChildStep_together (h : SameButDeltas node other) (r : Rect) (sz : PaneSizing) {doneCount : Nat}
    (htogether : KeptTogether node other doneCount kept state') (minimum : RequiredSize) :
    KeptTogether node other (doneCount + 1) (keepChildStep node r sz kept (minimum, doneCount))
      (keepChildStep other r sz state' (minimum, doneCount)) := by
  obtain ⟨flags, keptWeights, keptFloors, canKeep, claimed⟩ := kept
  obtain ⟨otherFlags, weights', otherFloors, otherCanKeep, otherClaimed⟩ := state'
  obtain ⟨hflags, hfl, hcanKeep, hclaimed, hln, hfloorsLen, hws, ho⟩ := htogether
  dsimp only at hflags hfl hcanKeep hclaimed hln hfloorsLen hws ho
  subst hflags hfl hcanKeep hclaimed hln
  have hem : keptWeights.isEmpty = weights'.isEmpty := by
    rw [hws, ho, listWeightsAt, listWeightsAt, isEmpty_map, isEmpty_map]
  rw [keepChildStep_eq, keepChildStep_eq]
  simp only [h.direction_eq, h.computeChildFloor_eq, hem]
  generalize (if weights'.isEmpty = true then 0 else sz.gapCellCount) = leadingGap
  split_ifs
  · refine ⟨rfl, rfl, rfl, rfl, by simp, hfloorsLen, ?_, ?_⟩
    · simpa [listKeptIndexes_append] using hws
    · simpa [listKeptIndexes_append] using ho
  · refine ⟨rfl, rfl, rfl, rfl, by simp, by simp [hfloorsLen], ?_, ?_⟩
    · simp [listKeptIndexes_append, listWeightsAt, hws]
    · simp [listKeptIndexes_append, listWeightsAt, ho]
  · refine ⟨rfl, rfl, rfl, rfl, by simp, hfloorsLen, ?_, ?_⟩
    · simpa [listKeptIndexes_append] using hws
    · simpa [listKeptIndexes_append] using ho

theorem foldl_keepChildStep_together (h : SameButDeltas node other) (r : Rect) (sz : PaneSizing)
    (minima : List RequiredSize) {doneCount : Nat} (htogether : KeptTogether node other doneCount kept state') :
    KeptTogether node other (doneCount + minima.length) ((minima.zipIdx doneCount).foldl (keepChildStep node r sz) kept)
      ((minima.zipIdx doneCount).foldl (keepChildStep other r sz) state') := by
  induction minima generalizing doneCount kept state' with
  | nil => exact htogether
  | cons minimum minima ih =>
    rw [zipIdx_cons, foldl_cons, foldl_cons, length_cons, Nat.add_comm minima.length, ← Nat.add_assoc]
    exact ih (keepChildStep_together h r sz htogether minimum)

/-- **Two splits that differ in deltas only keep the same children**, with the same floors and the same shared
cells, and each kept weight is the weight at its index. -/
theorem listKeptChildren_together (h : SameButDeltas node other) (r : Rect) {sz : PaneSizing}
    (hsizes : computeMinimumSizes sz node.children = computeMinimumSizes sz other.children) :
    let keptChildren := listKeptChildren node r sz
    listKeptChildren other r sz =
      { keptChildren with keptWeights := listWeightsAt other.weights (listKeptIndexes keptChildren.isChildKept) } ∧
    keptChildren.keptWeights = listWeightsAt node.weights (listKeptIndexes keptChildren.isChildKept) ∧
    keptChildren.isChildKept.length = node.children.length ∧
    keptChildren.keptFloors.length = keptChildren.keptWeights.length := by
  have htogether := @foldl_keepChildStep_together _ _ ⟨[], [], [], true, 0⟩ ⟨[], [], [], true, 0⟩ h r sz
    (computeMinimumSizes sz node.children) 0 ⟨rfl, rfl, rfl, rfl, rfl, rfl, rfl, rfl⟩
  have hc : (computeMinimumSizes sz node.children).length = node.children.length := by
    rw [minimumSizes_eq_map, length_map]
  simp only [listKeptChildren, ← hsizes, ← h.direction_eq]
  generalize (computeMinimumSizes sz node.children).zipIdx.foldl
    (keepChildStep node r sz) ⟨[], [], [], true, 0⟩ = kept at htogether ⊢
  generalize (computeMinimumSizes sz node.children).zipIdx.foldl
    (keepChildStep other r sz) ⟨[], [], [], true, 0⟩ = state' at htogether ⊢
  obtain ⟨hflags, hfl, -, -, hln, hfloorsLen, hws, ho⟩ := htogether
  rw [Nat.zero_add, hc] at hln
  refine ⟨?_, hws, hln, hfloorsLen⟩
  rw [← hflags, ← hfl, ho, hws, listWeightsAt, listWeightsAt, length_map, length_map]

end Koshi.Layout
