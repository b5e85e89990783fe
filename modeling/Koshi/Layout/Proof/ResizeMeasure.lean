import Koshi.Layout.Proof.ResizeCounts

/-!
# The measure of a border

Where the border stands and what the donor can spare at an added count, read off the counts there. While the donor can
spare a cell, one more added cell moves the border by no cell or by one in the direction asked for; once it cannot, it
never can again; and outside the two windows nothing changes.
-/

namespace Koshi.Layout

open Base Koshi.Core Finset

namespace ResizeBorder

section Measure

variable (border : ResizeBorder)

def IsKept (index : Nat) : Prop := border.kept.isChildKept[index]? = some true

instance (index : Nat) : Decidable (border.IsKept index) := inferInstanceAs (Decidable (_ = _))

/-- The place of a child among the kept ones. -/
def placeOf (index : Nat) : Nat := keptPlace border.kept.isChildKept index

def borderCellAt (added : Int) : Nat :=
  if border.IsKept border.borderChildIndex then
    satAdd16 (axisOrigin border.isHorizontalSplit border.splitRect) (layOffset border.paneSizing.gapCellCount
      (border.countsAtAdded added) 0 (border.placeOf border.borderChildIndex))
  else 0

def spareAt (added : Int) : Nat :=
  if border.IsKept border.donatingChildIndex ∧ border.donatingSlotFloor ≤ u16Max then
    (border.countsAtAdded added).getD (border.placeOf border.donatingChildIndex) 0 - border.donatingSlotFloor
  else 0

end Measure

variable {border : ResizeBorder} (hwell : border.WellFormed)

variable {added : Int}
include hwell

omit hwell in
theorem isKept_or_dropped {index : Nat} (hlt : index < border.splitNode.children.length) :
    border.IsKept index ∨ border.kept.isChildKept[index]? = some false := by
  have hlen := (@kept_spec border 0).2.2.1
  rw [IsKept, List.getElem?_eq_getElem (by omega)]
  cases border.kept.isChildKept[index] with
  | true => exact .inl rfl
  | false => exact .inr rfl

theorem borderChildIndex_lt : border.borderChildIndex < border.splitNode.children.length :=
  max_lt hwell.receiving_lt hwell.donating_lt

theorem measureBorder_eq {nd : SplitNode LayoutNode}
    (hrcs : computeDirectionalChildRects nd border.splitRect border.paneSizing =
      layChildRects border.isHorizontalSplit border.splitRect border.paneSizing.gapCellCount border.kept.isChildKept
        (border.countsAtAdded added) 0) :
    border.measureBorder nd = (border.borderCellAt added, border.spareAt added) := by
  have hbrd : (layChildRects border.isHorizontalSplit border.splitRect border.paneSizing.gapCellCount
      border.kept.isChildKept (border.countsAtAdded added) 0).getD border.borderChildIndex
        .buildEmptyAtOrigin = if border.IsKept border.borderChildIndex then
          buildAxisChildRect border.isHorizontalSplit border.splitRect (layOffset border.paneSizing.gapCellCount
            (border.countsAtAdded added) 0 (border.placeOf border.borderChildIndex))
            ((border.countsAtAdded added).getD (border.placeOf border.borderChildIndex) 0)
        else .buildEmptyAtOrigin := by
    rw [List.getD_eq_getElem?_getD]
    obtain hk | hdp := isKept_or_dropped (borderChildIndex_lt hwell)
    · rw [getElem?_layChildRects hk, if_pos hk]
      rfl
    · rw [getElem?_layChildRects_dropped hdp, if_neg (by rw [IsKept, hdp]; decide)]
      rfl
  have hdonor : (layChildRects border.isHorizontalSplit border.splitRect border.paneSizing.gapCellCount
      border.kept.isChildKept (border.countsAtAdded added) 0).getD border.donatingChildIndex
        .buildEmptyAtOrigin = if border.IsKept border.donatingChildIndex then
          buildAxisChildRect border.isHorizontalSplit border.splitRect (layOffset border.paneSizing.gapCellCount
            (border.countsAtAdded added) 0 (border.placeOf border.donatingChildIndex))
            ((border.countsAtAdded added).getD (border.placeOf border.donatingChildIndex) 0)
        else .buildEmptyAtOrigin := by
    rw [List.getD_eq_getElem?_getD]
    obtain hk | hdp := isKept_or_dropped hwell.donating_lt
    · rw [getElem?_layChildRects hk, if_pos hk]
      rfl
    · rw [getElem?_layChildRects_dropped hdp, if_neg (by rw [IsKept, hdp]; decide)]
      rfl
  simp only [measureBorder, hrcs, hbrd, hdonor, borderCellAt, spareAt]
  generalize border.isHorizontalSplit = hor
  by_cases hborderKept : border.IsKept border.borderChildIndex <;>
    by_cases hdonorKept : border.IsKept border.donatingChildIndex <;>
    by_cases hfloor : border.donatingSlotFloor ≤ u16Max <;>
    cases hor <;>
    simp [hborderKept, hdonorKept, hfloor, buildAxisChildRect, Rect.buildEmptyAtOrigin, Rect.fromSizeAtOrigin,
      axisOrigin, axisCoordinate, splitAxisAndCrossCellCounts]

theorem measureBorder_setAddedCount (added : Int) :
    border.measureBorder (border.setAddedCellCount added) = (border.borderCellAt added, border.spareAt added) :=
  measureBorder_eq hwell (directionalRects_setAddedCount added hwell)

theorem measureBorder_splitNode : border.measureBorder border.splitNode = (border.borderCellAt 0, border.spareAt 0) :=
  measureBorder_eq hwell (directionalRects_splitNode hwell)

theorem measureAddedCount_eq (added : Int) :
    border.measureAddedCellCount added =
      ⟨if border.isBorderMovingForward then (border.borderCellAt added : Int) - border.borderCellAt 0
        else (border.borderCellAt 0 : Int) - border.borderCellAt added, border.spareAt added⟩ := by
  simp only [measureAddedCellCount, measureBorder_setAddedCount hwell, measureBorder_splitNode hwell]

theorem measureAddedCount_zero : border.measureAddedCellCount 0 = ⟨0, border.spareAt 0⟩ := by
  rw [measureAddedCount_eq hwell]
  simp

/-- **Outside both windows an added cell changes no rect.** -/
theorem directionalRects_outside (hnonneg : 0 ≤ added) (hgets : ¬border.receivingOffsetWindow.Contains (added + 1))
    (hdon : ¬border.donatingOffsetWindow.Contains (added + 1)) :
    computeDirectionalChildRects (border.setAddedCellCount (added + 1)) border.splitRect border.paneSizing =
      computeDirectionalChildRects (border.setAddedCellCount added) border.splitRect border.paneSizing := by
  rw [directionalRects_setAddedCount _ hwell, directionalRects_setAddedCount _ hwell,
    countsAtAdded, countsAtAdded, adjustedCounts_outside hwell hnonneg hgets hdon]

/-! ### One more added cell -/

theorem getD_keptFloors_donating (hdonor : border.IsKept border.donatingChildIndex) :
    border.kept.keptFloors.getD (border.placeOf border.donatingChildIndex) 0 = border.donatingSlotFloor := by
  have hpc := getElem?_listKeptIndexes hdonor
  have hfl := listKeptChildren_floors border.splitNode border.splitRect border.paneSizing
  change border.kept.keptFloors = (listKeptIndexes border.kept.isChildKept).map _ at hfl
  rw [List.getD_eq_getElem?_getD, hfl, List.getElem?_map, placeOf, hpc, donatingSlotFloor, hwell.axis_eq]
  rfl

omit hwell in
theorem length_floors_adjusted (added : Int) :
    border.kept.keptFloors.length = (border.adjustedCounts added).length := by
  rw [length_adjustedCounts, length_keptFloors]

theorem spareAt_succ_eq_zero (hspent : border.spareAt added = 0) : border.spareAt (added + 1) = 0 := by
  unfold spareAt at hspent ⊢
  split_ifs at hspent ⊢ with h
  · have hfloor := getD_keptFloors_donating hwell h.1
    have hstep := offsetStep_adjustedCounts hwell h.1 added
    have hk := @settle_spent _ _ _ _ _ hstep (sharedCount_le_u16Max hwell) border.kept.keptWeights _
      (length_floors_adjusted added) (by
        change (border.countsAtAdded added).getD (border.placeOf border.donatingChildIndex) 0 ≤
          border.kept.keptFloors.getD (border.placeOf border.donatingChildIndex) 0
        omega)
    change (border.countsAtAdded (added + 1)).getD (border.placeOf border.donatingChildIndex) 0 ≤
      border.kept.keptFloors.getD (border.placeOf border.donatingChildIndex) 0 at hk
    omega
  · rfl

omit hwell in
theorem borderCellAt_of_kept (hk : border.IsKept border.borderChildIndex) (added : Int) :
    border.borderCellAt added = min (axisOrigin border.isHorizontalSplit border.splitRect +
      min u16Max (sumBefore (border.countsAtAdded added) (border.placeOf border.borderChildIndex) +
        border.placeOf border.borderChildIndex * border.paneSizing.gapCellCount)) u16Max := by
  rw [borderCellAt, if_pos hk, layOffset_eq _ _ (Nat.zero_le _), sum_add_distrib, sum_const,
    card_range, smul_eq_mul, Nat.zero_add]
  rfl

/-- **One more added cell moves the border by no cell or by one**, in the direction asked for, while the donor has a
cell to spare. -/
theorem borderCellAt_succ (hspare : border.spareAt added ≠ 0) :
    if border.isBorderMovingForward then
      RisesByAtMostOne (border.borderCellAt added) (border.borderCellAt (added + 1))
    else RisesByAtMostOne (border.borderCellAt (added + 1)) (border.borderCellAt added) := by
  unfold RisesByAtMostOne
  by_cases hbrd : border.IsKept border.borderChildIndex
  · unfold spareAt at hspare
    rw [ite_ne_right_iff] at hspare
    obtain ⟨⟨hdonor, -⟩, hspare⟩ := hspare
    have hfloor := getD_keptFloors_donating hwell hdonor
    have hstep := offsetStep_adjustedCounts hwell hdonor added
    have hpc : border.placeOf border.borderChildIndex ≤ (border.adjustedCounts added).length := by
      rw [length_adjustedCounts]
      exact (keptPlace_lt hbrd).le
    obtain ⟨hb, haf⟩ := @sumBefore_settle_step _ _ _ _ _ hstep (sharedCount_le_u16Max hwell) border.kept.keptWeights _
      (length_floors_adjusted added) (by
        change border.kept.keptFloors.getD (border.placeOf border.donatingChildIndex) 0 <
          (border.countsAtAdded added).getD (border.placeOf border.donatingChildIndex) 0
        omega) _ hpc
    -- settled counts are the counts the border is solved from
    change border.placeOf _ ≤ border.placeOf _ → RisesByAtMostOne (sumBefore (border.countsAtAdded added) _)
      (sumBefore (border.countsAtAdded (added + 1)) _) at hb
    change border.placeOf _ < border.placeOf _ → RisesByAtMostOne (sumBefore (border.countsAtAdded (added + 1)) _)
      (sumBefore (border.countsAtAdded added) _) at haf
    unfold RisesByAtMostOne at hb haf
    rw [borderCellAt_of_kept hbrd, borderCellAt_of_kept hbrd]
    have hne := hwell.siblings_ne
    by_cases hforward : border.receivingChildIndex < border.donatingChildIndex
    · have hs : border.borderChildIndex = border.donatingChildIndex := max_eq_right hforward.le
      rw [if_pos (by rw [isBorderMovingForward, decide_eq_true_iff]; exact hforward)]
      have hsums := hb (le_of_eq (by rw [hs]))
      omega
    · have hlr : border.donatingChildIndex < border.borderChildIndex := by
        rw [borderChildIndex, max_eq_left (by omega)]
        omega
      rw [if_neg (by rw [isBorderMovingForward, decide_eq_true_iff]; exact hforward)]
      have hsums := haf (keptPlace_lt_keptPlace hdonor hlr)
      omega
  · rw [borderCellAt, borderCellAt, if_neg hbrd, if_neg hbrd]
    split_ifs <;> omega

/-- **One step of the measure.** -/
theorem measureAddedCount_succ (hspare : (border.measureAddedCellCount added).spareCellCount ≠ 0) :
    (border.measureAddedCellCount added).movedCellCount ≤ (border.measureAddedCellCount (added + 1)).movedCellCount ∧
      (border.measureAddedCellCount (added + 1)).movedCellCount ≤
        (border.measureAddedCellCount added).movedCellCount + 1 := by
  rw [measureAddedCount_eq hwell] at hspare
  have hstep := borderCellAt_succ hwell hspare
  rw [measureAddedCount_eq hwell, measureAddedCount_eq hwell]
  unfold RisesByAtMostOne at hstep
  dsimp only
  split_ifs at hstep ⊢ <;> omega

theorem measureAddedCount_spent (hspent : (border.measureAddedCellCount added).spareCellCount = 0) :
    (border.measureAddedCellCount (added + 1)).spareCellCount = 0 := by
  rw [measureAddedCount_eq hwell] at hspent ⊢
  exact spareAt_succ_eq_zero hwell hspent

theorem measureAddedCount_outside (hnonneg : 0 ≤ added) (hgets : ¬border.receivingOffsetWindow.Contains (added + 1))
    (hdon : ¬border.donatingOffsetWindow.Contains (added + 1)) :
    border.measureAddedCellCount (added + 1) = border.measureAddedCellCount added := by
  simp only [measureAddedCellCount, measureBorder, directionalRects_outside hwell hnonneg hgets hdon]

end ResizeBorder

end Koshi.Layout
