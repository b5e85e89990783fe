import Koshi.Layout.Proof.AxisStep
import Koshi.Layout.Proof.KeptPlaces

/-!
# The counts of a split at one added count

What the offset cells of a resize do to the split they are written into: the kept children, their floors and their
targets stay, and the two offsets show only through the clamp of two adjusted counts. One more added cell is then one
`OffsetStep`, and none at all outside the two windows.
-/

namespace Koshi.Layout

open Base Koshi.Core List

variable {room target : Nat}

def clampOffset (room target : Nat) (offset : Int) : Nat :=
  (min (max ((target : Int) + offset) 0) room).toNat

theorem addClampedDelta_eq (room target : Nat) (wt : SizeWeight) :
    addClampedDelta room target wt = clampOffset room target wt.resizeDelta := rfl

theorem clampOffset_clampI32 (hav : room ≤ u16Max) (htgt : target ≤ room) (offset : Int) :
    clampOffset room target (clampI32 offset) = clampOffset room target offset := by
  have hmax : u16Max = 65535 := rfl
  unfold clampOffset clampI32
  omega

/-- One cell less of offset takes a cell from a count unless its clamp holds it at either end. -/
theorem clampOffset_pred (off : Int) :
    clampOffset room target off = clampOffset room target (off - 1) + 1 ∨
      (clampOffset room target (off - 1) = clampOffset room target off ∧
        (clampOffset room target off = 0 ∨ clampOffset room target off = room)) := by
  unfold clampOffset
  omega

theorem clampOffset_succ (off : Int) :
    clampOffset room target (off + 1) = clampOffset room target off ∨
      clampOffset room target (off + 1) = clampOffset room target off + 1 := by
  unfold clampOffset
  omega

theorem clampOffset_outside (htgt : target ≤ room) {offset : Int} (houtside : offset < -room ∨ (room : Int) ≤ offset) :
    clampOffset room target (offset + 1) = clampOffset room target offset := by
  unfold clampOffset
  omega

def OffsetWindow.Contains (window : OffsetWindow) (added : Int) : Prop :=
  window.firstCount ≤ added ∧ added ≤ window.lastCount

namespace ResizeBorder

variable (border : ResizeBorder)

/-- The children the split keeps, which no offset changes. -/
def kept : KeptChildren := listKeptChildren border.splitNode border.splitRect border.paneSizing

def keptIndexes : List Nat := listKeptIndexes border.kept.isChildKept

/-- The counts before the offsets. -/
def targets : List Nat :=
  computeTargetCellCounts border.kept.keptWeights border.kept.keptFloors border.kept.sharedCellCount

def offsetAt (added : Int) (index : Nat) : Int :=
  if index = border.donatingChildIndex then border.startingDonatingResizeDelta - added
  else if index = border.receivingChildIndex then border.startingReceivingResizeDelta + added
  else (border.splitNode.weights.getD index .default).resizeDelta

def adjustedCounts (added : Int) : List Nat :=
  List.zipWith (clampOffset border.kept.sharedCellCount) border.targets (border.keptIndexes.map (border.offsetAt added))

def countsAtAdded (added : Int) : List Nat :=
  settleCounts border.kept.keptWeights border.kept.keptFloors border.kept.sharedCellCount (border.adjustedCounts added)

/-- The place of the receiver among the kept children, or the place past them all. -/
def receiverPlace : Nat :=
  if border.kept.isChildKept[border.receivingChildIndex]? = some true then
    keptPlace border.kept.isChildKept border.receivingChildIndex
  else border.keptIndexes.length

/-- What a border found in a tree is known to be. -/
structure WellFormed : Prop where
  axis_eq : border.isHorizontalSplit = decide (border.splitNode.direction = .horizontal)
  siblings_ne : border.receivingChildIndex ≠ border.donatingChildIndex
  receiving_lt : border.receivingChildIndex < border.splitNode.children.length
  donating_lt : border.donatingChildIndex < border.splitNode.children.length
  length_le : border.splitNode.children.length ≤ border.splitNode.weights.length
  within : SizeWithinU16 border.splitRect.size

variable {border}

/-! ### The split with the offsets written -/

variable (added : Int)

theorem setAddedCount_children : (border.setAddedCellCount added).children = border.splitNode.children := rfl

theorem setAddedCount_direction : (border.setAddedCellCount added).direction = border.splitNode.direction := rfl

theorem length_weights_setAddedCount :
    (border.setAddedCellCount added).weights.length = border.splitNode.weights.length := by
  simp [setAddedCellCount]

theorem withoutDelta_setAddedCount (index : Nat) :
    ((border.setAddedCellCount added).weights.getD index .default).withoutDelta =
      (border.splitNode.weights.getD index .default).withoutDelta := by
  simp only [setAddedCellCount, getD_modify_weight]
  split_ifs <;> rfl

theorem sameButDeltas_setAddedCount : SameButDeltas border.splitNode (border.setAddedCellCount added) :=
  ⟨rfl, fun index => (withoutDelta_setAddedCount added index).symm⟩

theorem resizeDelta_setAddedCount (hwell : border.WellFormed) (added : Int)
    (hlt : index < border.splitNode.children.length) :
    ((border.setAddedCellCount added).weights.getD index .default).resizeDelta =
      if index = border.donatingChildIndex ∨ index = border.receivingChildIndex then
        clampI32 (border.offsetAt added index)
      else border.offsetAt added index := by
  have hlen := hwell.length_le
  have hne := hwell.siblings_ne
  simp only [setAddedCellCount, getD_modify_weight, length_modify, offsetAt]
  have hstored : index < border.splitNode.weights.length := by omega
  by_cases hdonor : index = border.donatingChildIndex
  · subst hdonor
    simp [hstored]
  · by_cases hto : index = border.receivingChildIndex
    · subst hto
      simp [hstored, hne, hne.symm]
    · simp [hdonor, hto, Ne.symm hdonor, Ne.symm hto]

theorem offsetAt_zero (index : Nat) :
    border.offsetAt 0 index = (border.splitNode.weights.getD index .default).resizeDelta := by
  unfold offsetAt startingDonatingResizeDelta startingReceivingResizeDelta
  rw [sub_zero, add_zero]
  split_ifs with hdonor hto
  · rw [hdonor]
  · rw [hto]
  · rfl

/-! ### The counts are those of the solve -/

theorem kept_spec :
    listKeptChildren (border.setAddedCellCount added) border.splitRect border.paneSizing =
        { border.kept with
          keptWeights := listWeightsAt (border.setAddedCellCount added).weights border.keptIndexes } ∧
      border.kept.keptWeights = listWeightsAt border.splitNode.weights border.keptIndexes ∧
      border.kept.isChildKept.length = border.splitNode.children.length ∧
      border.kept.keptFloors.length = border.kept.keptWeights.length :=
  listKeptChildren_together (sameButDeltas_setAddedCount added) border.splitRect rfl

theorem length_keptWeights : border.kept.keptWeights.length = border.keptIndexes.length := by
  rw [(kept_spec 0).2.1, listWeightsAt, length_map]

theorem length_keptFloors : border.kept.keptFloors.length = border.keptIndexes.length :=
  (kept_spec 0).2.2.2.trans length_keptWeights

theorem length_targets : border.targets.length = border.keptIndexes.length :=
  (length_targetCounts _ _ _).trans length_keptWeights

theorem length_adjustedCounts : (border.adjustedCounts added).length = border.keptIndexes.length := by
  rw [adjustedCounts, length_zipWith, length_map, length_targets, Nat.min_self]

theorem lt_children_of_mem_keptIndexes (hm : index ∈ border.keptIndexes) :
    index < border.splitNode.children.length := by
  rw [← (kept_spec 0).2.2.1]
  exact (List.getElem?_eq_some_iff.1 (mem_listKeptIndexes hm)).1

variable (hwell : border.WellFormed)

variable {index : Nat}
include hwell

theorem sharedCount_le_u16Max : border.kept.sharedCellCount ≤ u16Max := sharedCellCount_le hwell.within

theorem targets_le (place : Nat) : border.targets.getD place 0 ≤ border.kept.sharedCellCount := by
  by_cases hne : border.kept.keptWeights = []
  · rw [getD_of_length_le]
    · exact Nat.zero_le _
    · rw [length_targets, ← length_keptWeights, hne]
      exact Nat.zero_le _
  · have haxis := @targetCounts_axis _ border.kept.keptFloors _ (sharedCount_le_u16Max hwell) hne
    rw [← haxis.sum_eq]
    exact getD_le_sum border.targets place

theorem zipWith_setAddedCount :
    List.zipWith (addClampedDelta border.kept.sharedCellCount) border.targets
        (listWeightsAt (border.setAddedCellCount added).weights border.keptIndexes) =
      border.adjustedCounts added := by
  rw [adjustedCounts, listWeightsAt]
  refine ext_getElem (by simp) fun place hpc hplace' => ?_
  have hplaceTarget : place < border.targets.length := by
    rw [length_zipWith] at hpc
    omega
  have htgt := targets_le hwell place
  rw [getD_eq_getElem _ _ hplaceTarget] at htgt
  rw [getElem_zipWith, getElem_zipWith, getElem_map, getElem_map, addClampedDelta_eq,
    resizeDelta_setAddedCount hwell _ (lt_children_of_mem_keptIndexes (getElem_mem _))]
  split_ifs
  · exact clampOffset_clampI32 (sharedCount_le_u16Max hwell) htgt _
  · rfl

omit hwell in
theorem zipWith_keptWeights :
    List.zipWith (addClampedDelta border.kept.sharedCellCount) border.targets border.kept.keptWeights =
      border.adjustedCounts 0 := by
  rw [adjustedCounts, (kept_spec 0).2.1, listWeightsAt]
  refine ext_getElem (by simp) fun place hpc hplace' => ?_
  rw [getElem_zipWith, getElem_zipWith, getElem_map, getElem_map, addClampedDelta_eq]
  rw [offsetAt_zero]

omit hwell in
theorem map_withoutDelta_listWeightsAt :
    (listWeightsAt (border.setAddedCellCount added).weights border.keptIndexes).map SizeWeight.withoutDelta =
      border.kept.keptWeights.map SizeWeight.withoutDelta := by
  rw [(kept_spec 0).2.1, listWeightsAt, listWeightsAt, List.map_map, List.map_map]
  exact map_congr_left fun index _ => withoutDelta_setAddedCount added index

/-- **The child rects at an added count**, from its counts. -/
theorem directionalRects_setAddedCount :
    computeDirectionalChildRects (border.setAddedCellCount added) border.splitRect border.paneSizing =
      layChildRects border.isHorizontalSplit border.splitRect border.paneSizing.gapCellCount border.kept.isChildKept
        (border.countsAtAdded added) 0 := by
  have hs := @map_withoutDelta_listWeightsAt border added
  have hlen : border.targets.length =
      (listWeightsAt (border.setAddedCellCount added).weights border.keptIndexes).length := by
    rw [listWeightsAt, length_map, length_targets]
  have htargets : computeTargetCellCounts
      (listWeightsAt (border.setAddedCellCount added).weights border.keptIndexes) border.kept.keptFloors
      border.kept.sharedCellCount = border.targets := targetCounts_congr hs _ _
  rw [computeDirectionalChildRects, (kept_spec added).1, hwell.axis_eq]
  dsimp only
  rw [distributeAxisCells_eq, htargets, applyResizeDeltas_eq _ hlen, zipWith_setAddedCount _ hwell,
    clampCountsToFloors_congr hs]
  rfl

theorem directionalRects_splitNode :
    computeDirectionalChildRects border.splitNode border.splitRect border.paneSizing =
      layChildRects border.isHorizontalSplit border.splitRect border.paneSizing.gapCellCount border.kept.isChildKept
        (border.countsAtAdded 0) 0 := by
  have hlen : border.targets.length = border.kept.keptWeights.length := length_targets.trans length_keptWeights.symm
  rw [computeDirectionalChildRects, hwell.axis_eq]
  change layChildRects _ _ _ border.kept.isChildKept
    (distributeAxisCells border.kept.keptWeights border.kept.keptFloors border.kept.sharedCellCount) 0 = _
  rw [distributeAxisCells_eq]
  change layChildRects _ _ _ _ (clampCellCountsToFloors (applyResizeDeltas border.targets _ _) _ _ _) 0 = _
  rw [applyResizeDeltas_eq _ hlen, zipWith_keptWeights]
  rfl

/-! ### One more added cell -/

omit hwell in
theorem getD_adjustedCounts {place : Nat} (hpc : border.keptIndexes[place]? = some index) :
    (border.adjustedCounts added).getD place 0 = clampOffset border.kept.sharedCellCount
      (border.targets.getD place 0) (border.offsetAt added index) := by
  obtain ⟨hlt, hg⟩ := List.getElem?_eq_some_iff.1 hpc
  have hltTarget : place < border.targets.length := length_targets ▸ hlt
  have hltAdjusted : place < (border.adjustedCounts added).length := by
    rw [length_adjustedCounts]
    exact hlt
  rw [getD_eq_getElem _ _ hltAdjusted, getD_eq_getElem _ _ hltTarget]
  simp only [adjustedCounts, getElem_zipWith, getElem_map, hg]

omit hwell in
theorem offsetAt_of_ne (hdonor : index ≠ border.donatingChildIndex) (hto : index ≠ border.receivingChildIndex)
    (added : Int) :
    border.offsetAt added index = (border.splitNode.weights.getD index .default).resizeDelta := by
  rw [offsetAt, if_neg hdonor, if_neg hto]

omit hwell in
theorem offsetAt_donating : border.offsetAt added border.donatingChildIndex =
    border.startingDonatingResizeDelta - added := if_pos rfl

theorem offsetAt_receiving : border.offsetAt added border.receivingChildIndex =
    border.startingReceivingResizeDelta + added := by
  rw [offsetAt, if_neg hwell.siblings_ne, if_pos rfl]

/-- **One more added cell is one step of offset**, with a kept donor. -/
theorem offsetStep_adjustedCounts (hdonor : border.kept.isChildKept[border.donatingChildIndex]? = some true)
    (added : Int) :
    OffsetStep border.kept.sharedCellCount (border.adjustedCounts added)
      (border.adjustedCounts (added + 1)) (keptPlace border.kept.isChildKept border.donatingChildIndex)
      border.receiverPlace := by
  have hdonorPlace : border.keptIndexes[keptPlace border.kept.isChildKept border.donatingChildIndex]? =
      some border.donatingChildIndex := getElem?_listKeptIndexes hdonor
  have hdonorLt : keptPlace border.kept.isChildKept border.donatingChildIndex < border.keptIndexes.length :=
    keptPlace_lt hdonor
  have hto : border.kept.isChildKept[border.receivingChildIndex]? = some true →
      border.keptIndexes[border.receiverPlace]? = some border.receivingChildIndex := by
    intro hk
    rw [receiverPlace, if_pos hk]
    exact getElem?_listKeptIndexes hk
  have hnone : ∀ off : Int, ¬border.kept.isChildKept[border.receivingChildIndex]? = some true →
      (border.adjustedCounts off).getD border.receiverPlace 0 = 0 := by
    intro off hk
    rw [receiverPlace, if_neg hk]
    exact getD_of_length_le (length_adjustedCounts off).le
  refine ⟨?_, ?_, ?_, ?_, ?_, ?_⟩
  · rw [length_adjustedCounts, length_adjustedCounts]
  · rw [length_adjustedCounts]
    exact hdonorLt
  · by_cases hk : border.kept.isChildKept[border.receivingChildIndex]? = some true
    · intro heq
      have hboth := hto hk
      rw [heq, hdonorPlace] at hboth
      exact hwell.siblings_ne (Option.some.inj hboth).symm
    · rw [receiverPlace, if_neg hk]
      exact hdonorLt.ne'
  · intro place hneDonor hneReceiver
    by_cases hlt : place < border.keptIndexes.length
    · have hpc := List.getElem?_eq_getElem hlt
      have hk := mem_listKeptIndexes (getElem_mem hlt)
      have ho : border.keptIndexes[place] ≠ border.donatingChildIndex := by
        intro heq
        rw [heq] at hpc
        exact hneDonor (place_eq_of_getElem? hdonor hpc)
      have hother' : border.keptIndexes[place] ≠ border.receivingChildIndex := by
        intro heq
        rw [heq] at hpc hk
        apply hneReceiver
        rw [receiverPlace, if_pos hk]
        exact place_eq_of_getElem? hk hpc
      rw [getD_adjustedCounts _ hpc, getD_adjustedCounts _ hpc, offsetAt_of_ne ho hother', offsetAt_of_ne ho hother']
    · rw [getD_of_length_le (by rw [length_adjustedCounts]; omega),
        getD_of_length_le (by rw [length_adjustedCounts]; omega)]
  · rw [getD_adjustedCounts _ hdonorPlace, getD_adjustedCounts _ hdonorPlace, offsetAt_donating, offsetAt_donating,
      ← sub_sub]
    exact clampOffset_pred _
  · by_cases hk : border.kept.isChildKept[border.receivingChildIndex]? = some true
    · rw [getD_adjustedCounts _ (hto hk), getD_adjustedCounts _ (hto hk), offsetAt_receiving _ hwell,
        offsetAt_receiving _ hwell, ← add_assoc]
      exact clampOffset_succ _
    · rw [hnone _ hk, hnone _ hk]
      exact .inl rfl

/-! ### Counts outside the windows -/

theorem sharedCount_le_axis : (border.kept.sharedCellCount : Int) ≤ border.axisCellCount := by
  have haxis := hwell.axis_eq
  have hle : border.kept.sharedCellCount ≤ axisCount (border.splitNode.direction = .horizontal) border.splitRect := by
    rw [kept, listKeptChildren]
    exact Nat.sub_le _ _
  rw [← haxis] at hle
  rw [axisCellCount]
  generalize border.isHorizontalSplit = hor at hle ⊢
  cases hor with
  | false => exact Int.ofNat_le.mpr hle
  | true => exact Int.ofNat_le.mpr hle

/-- **Outside both windows an added cell changes no count.** -/
theorem adjustedCounts_outside {added : Int} (hnonneg : 0 ≤ added)
    (hgets : ¬border.receivingOffsetWindow.Contains (added + 1))
    (hdon : ¬border.donatingOffsetWindow.Contains (added + 1)) :
    border.adjustedCounts (added + 1) = border.adjustedCounts added := by
  have haxis := sharedCount_le_axis hwell
  refine ext_getElem? fun place => ?_
  by_cases hlt : place < border.keptIndexes.length
  · have hpc := List.getElem?_eq_getElem hlt
    have htgt := targets_le hwell place
    have hg : ∀ off, (border.adjustedCounts off)[place]? = some ((border.adjustedCounts off).getD place 0) := by
      intro off
      rw [getD_eq_getElem _ _ (by rw [length_adjustedCounts]; exact hlt)]
      exact List.getElem?_eq_getElem _
    rw [hg, hg, getD_adjustedCounts _ hpc, getD_adjustedCounts _ hpc]
    congr 1
    unfold OffsetWindow.Contains receivingOffsetWindow at hgets
    unfold OffsetWindow.Contains donatingOffsetWindow at hdon
    dsimp only at hgets hdon
    by_cases hdonor : border.keptIndexes[place] = border.donatingChildIndex
    · rw [hdonor, offsetAt_donating, offsetAt_donating]
      have hs := @clampOffset_outside _ _ htgt (border.startingDonatingResizeDelta - (added + 1)) (by omega)
      rw [← hs]
      congr 1
      omega
    · by_cases hto : border.keptIndexes[place] = border.receivingChildIndex
      · rw [hto, offsetAt_receiving _ hwell, offsetAt_receiving _ hwell, ← add_assoc]
        exact clampOffset_outside htgt (by omega)
      · rw [offsetAt_of_ne hdonor hto, offsetAt_of_ne hdonor hto]
  · rw [List.getElem?_eq_none (by rw [length_adjustedCounts]; omega),
      List.getElem?_eq_none (by rw [length_adjustedCounts]; omega)]

end ResizeBorder

end Koshi.Layout
