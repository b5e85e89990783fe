import Koshi.Layout.Proof.Distribute
import Koshi.Layout.Proof.Minimum

/-!
# Child rectangles

The rectangles a split hands to its children. Each child's rectangle is either the empty one or holds the
child's minimum; together they cover every cell of the split at most once and no cell outside it, and
exactly once where nothing is suppressed and no gap is left.
-/

namespace Koshi.Layout

open Base Koshi.Core List Rect

variable {ar : Rect}

def axisCount (isHorizontalSplit : Bool) (rect : Rect) : Nat :=
  (splitAxisAndCrossCellCounts rect.size.columnCount rect.size.rowCount isHorizontalSplit).1

/-- The cells of a rect across the axis of a split. -/
def crossCount (isHorizontalSplit : Bool) (rect : Rect) : Nat :=
  (splitAxisAndCrossCellCounts rect.size.columnCount rect.size.rowCount isHorizontalSplit).2

def axisCoordinate (isHorizontalSplit : Bool) (point : Point) : Nat :=
  (splitAxisAndCrossCellCounts point.column point.row isHorizontalSplit).1

theorem canFitInside_iff_axes (isHorizontalSplit : Bool) (requiredSize : RequiredSize) (rect : Rect) :
    requiredSize.canFitInside rect.size = true ↔
      axisMinimum isHorizontalSplit requiredSize ≤ axisCount isHorizontalSplit rect ∧
        crossMinimum isHorizontalSplit requiredSize ≤ crossCount isHorizontalSplit rect := by
  rw [RequiredSize.canFitInside_iff]
  cases isHorizontalSplit with
  | true => rfl
  | false => exact and_comm

variable {rect : Rect}

theorem axisCount_le_u16Max {isHorizontalSplit : Bool} (h : rect.WithinU16) :
    axisCount isHorizontalSplit rect ≤ u16Max := by
  obtain ⟨hright, hbot⟩ := h
  unfold getRightEdge at hright
  unfold getBottomEdge at hbot
  cases isHorizontalSplit with
  | true => exact le_trans (Nat.le_add_left _ _) hright
  | false => exact le_trans (Nat.le_add_left _ _) hbot

/-! ### Kept children -/

/-- Which children of a split are kept, against their minimums: a kept child fits across the axis and its
floor covers its minimum along it. -/
inductive KeptSlots (isHorizontalSplit : Bool) (splitRect : Rect) :
    List RequiredSize → List Bool → List Nat → Prop
  | nil : KeptSlots isHorizontalSplit splitRect [] [] []
  | drop {minimum minima keeps keptFloors} :
    KeptSlots isHorizontalSplit splitRect minima keeps keptFloors →
    KeptSlots isHorizontalSplit splitRect (minimum :: minima) (false :: keeps) keptFloors
  | keep {minimum minima keeps keptFloors childFloor} :
    crossMinimum isHorizontalSplit minimum ≤ crossCount isHorizontalSplit splitRect →
    axisMinimum isHorizontalSplit minimum ≤ childFloor →
    KeptSlots isHorizontalSplit splitRect minima keeps keptFloors →
    KeptSlots isHorizontalSplit splitRect (minimum :: minima) (true :: keeps) (childFloor :: keptFloors)

namespace KeptSlots

variable {isHorizontalSplit : Bool} {ar : Rect} {minima : List RequiredSize} {keeps : List Bool} {keptFloors : List Nat}

section

variable (h : KeptSlots isHorizontalSplit ar minima keeps keptFloors)

include h

theorem append {laterSizes : List RequiredSize} {laterKept : List Bool} {laterFloors : List Nat}
    (hlr : KeptSlots isHorizontalSplit ar laterSizes laterKept laterFloors) :
    KeptSlots isHorizontalSplit ar (minima ++ laterSizes) (keeps ++ laterKept) (keptFloors ++ laterFloors) := by
  induction h with
  | nil => exact hlr
  | drop _ ih => exact .drop ih
  | keep hcross haxis _ ih => exact .keep hcross haxis ih

theorem length_flags : keeps.length = minima.length := by
  induction h with
  | nil => rfl
  | drop _ ih => simp [ih]
  | keep _ _ _ ih => simp [ih]

theorem length_floors : keptFloors.length = keeps.count true := by
  induction h with
  | nil => rfl
  | drop _ ih => simp [ih]
  | keep _ _ _ ih => simp [ih]

/-- Every kept floor is a cell or more, so there are no more kept children than claimed cells. -/
theorem length_le_sum (hpos : ∀ minimum ∈ minima, 2 ≤ axisMinimum isHorizontalSplit minimum) :
    keptFloors.length ≤ keptFloors.sum := by
  induction h with
  | nil => exact Nat.le_refl _
  | drop _ ih => exact ih fun size hm => hpos size (mem_cons_of_mem _ hm)
  | keep _ haxis _ ih =>
    have hhead := hpos _ mem_cons_self
    have htail := ih fun size hm => hpos size (mem_cons_of_mem _ hm)
    simp only [length_cons, sum_cons]
    omega

end

end KeptSlots

structure KeptInv (node : SplitNode LayoutNode) (splitRect : Rect) (sizing : PaneSizing) (done : List RequiredSize)
    (kept : KeptState) : Prop where
  slots : KeptSlots (node.direction = .horizontal) splitRect done kept.isChildKept kept.keptFloors
  length_eq : kept.keptWeights.length = kept.keptFloors.length
  claimed_eq : kept.claimedCellCount = kept.keptFloors.sum + sizing.gapCellCount * (kept.keptFloors.length - 1)
  claimed_le : kept.claimedCellCount ≤ axisCount (node.direction = .horizontal) splitRect

variable (node : SplitNode LayoutNode)

theorem keepChildStep_eq (rect : Rect) (sizing : PaneSizing) (kept : KeptState) (minimum : RequiredSize) (index : Nat) :
    keepChildStep node rect sizing kept (minimum, index) =
      let isHorizontalSplit := decide (node.direction = .horizontal)
      let childFloor := computeChildFloor node index (axisMinimum isHorizontalSplit minimum)
      if crossMinimum isHorizontalSplit minimum > crossCount isHorizontalSplit rect then
        { kept with isChildKept := kept.isChildKept ++ [false] }
      else
        let claimed := satAdd32 (satAdd32 kept.claimedCellCount
          (if kept.keptWeights.isEmpty then 0 else sizing.gapCellCount)) childFloor
        if kept.canKeepChildren ∧ claimed ≤ axisCount isHorizontalSplit rect then
          { isChildKept := kept.isChildKept ++ [true]
            keptWeights := kept.keptWeights ++ [node.weights.getD index .default]
            keptFloors := kept.keptFloors ++ [childFloor]
            canKeepChildren := kept.canKeepChildren
            claimedCellCount := claimed }
        else
          { kept with isChildKept := kept.isChildKept ++ [false], canKeepChildren := false } := rfl

theorem satAdd32_twice_eq {a b c d : Nat} (hd : d ≤ u16Max) (h : satAdd32 (satAdd32 a b) c ≤ d) :
    satAdd32 (satAdd32 a b) c = a + b + c := by
  unfold satAdd32 u32Max at *
  unfold u16Max at hd
  omega

theorem claimed_with_child (fl : List Nat) (gapCellCount childFloor : Nat) :
    fl.sum + gapCellCount * (fl.length - 1) + (if fl = [] then 0 else gapCellCount) + childFloor =
      (fl ++ [childFloor]).sum + gapCellCount * ((fl ++ [childFloor]).length - 1) := by
  cases fl with
  | nil => simp
  | cons floor fl =>
    simp only [reduceCtorEq, if_false, sum_append, sum_cons, sum_nil, length_append,
      length_cons, length_nil, Nat.add_sub_cancel]
    ring

variable {sizing : PaneSizing} {kept : KeptState}

theorem keepChildStep_inv {node : SplitNode LayoutNode} {done : List RequiredSize} (hw : ar.WithinU16)
    (hiv : KeptInv node ar sizing done kept) (minimum : RequiredSize) (index : Nat) :
    KeptInv node ar sizing (done ++ [minimum]) (keepChildStep node ar sizing kept (minimum, index)) := by
  obtain ⟨hslots, hlen, hclaimed, hle⟩ := hiv
  have hdrop := hslots.append (@KeptSlots.drop _ _ minimum _ _ _ .nil)
  rw [append_nil] at hdrop
  rw [keepChildStep_eq]
  dsimp only
  generalize hgap : (if kept.keptWeights.isEmpty = true then 0 else sizing.gapCellCount) = leadingGap
  split_ifs with hcross hkeep
  · exact ⟨hdrop, hlen, hclaimed, hle⟩
  · have hem : kept.keptWeights.isEmpty = true ↔ kept.keptFloors = [] := by
      rw [List.isEmpty_iff, ← length_eq_zero_iff, ← length_eq_zero_iff, hlen]
    have hexact := satAdd32_twice_eq (axisCount_le_u16Max hw) hkeep.2
    refine ⟨hslots.append (.keep (Nat.le_of_not_lt hcross) (axisMinimum_le_childFloor _ _ _) .nil),
      by simp [hlen], ?_, hkeep.2⟩
    dsimp only
    rw [hexact, hclaimed, ← claimed_with_child, ← hgap]
    simp only [hem]
  · exact ⟨hdrop, hlen, hclaimed, hle⟩

theorem foldl_keepChildStep_inv {node : SplitNode LayoutNode} (hw : rect.WithinU16) (minima done : List RequiredSize)
    (i₀ : Nat) (hiv : KeptInv node rect sizing done kept) :
    KeptInv node rect sizing (done ++ minima) ((minima.zipIdx i₀).foldl (keepChildStep node rect sizing) kept) := by
  induction minima generalizing done i₀ kept with
  | nil => simpa using hiv
  | cons minimum minima ih =>
    rw [zipIdx_cons, foldl_cons, append_cons]
    exact ih _ _ (keepChildStep_inv hw hiv minimum i₀)

/-- What `listKeptChildren` hands to the distribution: the kept floors fit the shared cells, which are the
axis without the gaps. -/
theorem listKeptChildren_spec (sizing : PaneSizing) (hw : ar.WithinU16)
    (hgood : ∀ child ∈ node.children, child.hasNoLeaflessSplit = true) :
    let keptChildren := listKeptChildren node ar sizing
    KeptSlots (node.direction = .horizontal) ar
        (node.children.map (computeMinimumSize sizing)) keptChildren.isChildKept keptChildren.keptFloors ∧
      keptChildren.keptWeights.length = keptChildren.keptFloors.length ∧
      keptChildren.keptFloors.sum ≤ keptChildren.sharedCellCount ∧
      keptChildren.sharedCellCount + sizing.gapCellCount * (keptChildren.keptFloors.length - 1) =
        axisCount (node.direction = .horizontal) ar := by
  have hiv := @foldl_keepChildStep_inv _ sizing ⟨[], [], [], true, 0⟩ node hw
    (computeMinimumSizes sizing node.children) [] 0 ⟨.nil, rfl, by simp, Nat.zero_le _⟩
  rw [nil_append] at hiv
  simp only [listKeptChildren]
  generalize (computeMinimumSizes sizing node.children).zipIdx.foldl
    (keepChildStep node ar sizing) ⟨[], [], [], true, 0⟩ = kept at hiv ⊢
  obtain ⟨hslots, hlen, hclaimed, hle⟩ := hiv
  rw [minimumSizes_eq_map] at hslots
  have hc := hslots.length_le_sum fun size hm => by
    obtain ⟨child, hch, rfl⟩ := List.mem_map.1 hm
    exact (axes_ge_two (two_le_minimumSize sizing (hgood child hch))).1
  have haxis : axisCount (node.direction = .horizontal) ar ≤ u16Max := axisCount_le_u16Max hw
  -- neither the count nor the product saturates: both stay below the claimed cells
  rw [hlen, asU16_of_le (by omega), satMul16_of_le (by omega)]
  change _ ∧ _ ∧ _ ≤ axisCount (node.direction = .horizontal) ar - _ ∧
    axisCount (node.direction = .horizontal) ar - _ + _ = _
  exact ⟨hslots, rfl, by omega, by omega⟩

/-- With room for every floor, only the children too large across the axis are dropped. -/
theorem foldl_keepChildStep_flags {node : SplitNode LayoutNode} (hw : rect.WithinU16) (minima done : List RequiredSize)
    (i₀ : Nat) (hiv : KeptInv node rect sizing done kept)
    (hcan : kept.canKeepChildren = true) (hfit : minima ≠ [] → kept.claimedCellCount +
      (if kept.keptFloors = [] then 0 else sizing.gapCellCount) +
      ((minima.zipIdx i₀).map fun slot => computeChildFloor node slot.2
        (axisMinimum (node.direction = .horizontal) slot.1)).sum +
      sizing.gapCellCount * (minima.length - 1) ≤ axisCount (node.direction = .horizontal) rect) :
    ((minima.zipIdx i₀).foldl (keepChildStep node rect sizing) kept).isChildKept =
      kept.isChildKept ++ minima.map fun size =>
        decide (crossMinimum (node.direction = .horizontal) size ≤ crossCount (node.direction = .horizontal) rect) := by
  induction minima generalizing done i₀ kept with
  | nil => simp
  | cons size sizes ih =>
    have hfit := hfit (cons_ne_nil _ _)
    have hinv' := keepChildStep_inv hw hiv size i₀
    have haxis : axisCount (node.direction = .horizontal) rect ≤ u16Max := axisCount_le_u16Max hw
    have hem : kept.keptWeights.isEmpty = true ↔ kept.keptFloors = [] := by
      rw [List.isEmpty_iff, ← length_eq_zero_iff, ← length_eq_zero_iff, hiv.length_eq]
    simp only [zipIdx_cons, map_cons, sum_cons, length_cons, Nat.add_sub_cancel] at hfit
    have hgap : sizes ≠ [] → sizing.gapCellCount * sizes.length =
        sizing.gapCellCount * (sizes.length - 1) + sizing.gapCellCount := by
      intro hne
      obtain ⟨n, hn⟩ := Nat.exists_eq_succ_of_ne_zero (length_pos_iff.2 hne).ne'
      rw [hn, Nat.succ_sub_one, Nat.mul_succ]
    rw [zipIdx_cons, foldl_cons, map_cons]
    rw [keepChildStep_eq] at hinv' ⊢
    dsimp only at hinv' ⊢
    by_cases hcross : crossMinimum (node.direction = .horizontal) size ≤ crossCount (node.direction = .horizontal) rect
    · have hexact : satAdd32 (satAdd32 kept.claimedCellCount
          (if kept.keptWeights.isEmpty then 0 else sizing.gapCellCount))
          (computeChildFloor node i₀ (axisMinimum (node.direction = .horizontal) size)) =
          kept.claimedCellCount + (if kept.keptFloors = [] then 0 else sizing.gapCellCount) +
          computeChildFloor node i₀ (axisMinimum (node.direction = .horizontal) size) := by
        simp only [hem, satAdd32, u32Max]
        unfold u16Max at haxis
        omega
      rw [if_neg (Nat.not_lt_of_le hcross), hexact, if_pos ⟨hcan, by omega⟩] at hinv' ⊢
      rw [@ih _ _ (i₀ + 1) hinv' hcan, decide_eq_true hcross, append_assoc]
      · rfl
      · intro hne
        have hgap := hgap hne
        have hsnoc : ¬ (kept.keptFloors ++ [computeChildFloor node i₀
            (axisMinimum (node.direction = .horizontal) size)] = []) := by simp
        rw [if_neg hsnoc]
        dsimp only
        omega
    · rw [if_pos (not_le.1 hcross)] at hinv' ⊢
      rw [@ih _ _ (i₀ + 1) hinv' hcan, decide_eq_false hcross, append_assoc]
      · rfl
      · intro hne
        have hgap := hgap hne
        dsimp only
        omega

theorem listKeptChildren_all {node : SplitNode LayoutNode} (hw : rect.WithinU16)
    (hfit : (computeDirectionalMinimumSize node (computeMinimumSizes sizing node.children)
      sizing).canFitInside rect.size = true) :
    (listKeptChildren node rect sizing).isChildKept.all id = true := by
  rw [canFitInside_iff_axes (node.direction = .horizontal)] at hfit
  obtain ⟨haxis, hcross⟩ := directionalMinimumSize_axes node (computeMinimumSizes sizing node.children) sizing
  have hu16 : axisCount (node.direction = .horizontal) rect ≤ u16Max := axisCount_le_u16Max hw
  rw [haxis, hcross] at hfit
  have hflags := @foldl_keepChildStep_flags _ sizing ⟨[], [], [], true, 0⟩ node hw
    (computeMinimumSizes sizing node.children) [] 0
    ⟨.nil, rfl, by simp, Nat.zero_le _⟩ rfl fun _ => ?_
  · refine (congrArg (List.all · id) hflags).trans ?_
    rw [nil_append, List.all_map, List.all_eq_true]
    exact fun size hm => decide_eq_true (le_trans (crossMinimum_le_max hm) hfit.2)
  have hln : (computeMinimumSizes sizing node.children).length = node.children.length := by
    rw [minimumSizes_eq_map, length_map]
  have hsum := hfit.1
  unfold u32Max at hsum
  unfold u16Max at hu16
  rw [hln]
  simp only [if_true, listChildFloors] at hsum ⊢
  omega

/-! ### Laying the rects of a directional split -/

section Laying

variable {isHorizontalSplit : Bool} {ar : Rect} {gapCellCount : Nat}

/-- The split's cells from `axisOffset` on. -/
def axisOrigin (isHorizontalSplit : Bool) (rect : Rect) : Nat := axisCoordinate isHorizontalSplit rect.origin

theorem isPointInside_buildAxisChildRect (hw : ar.WithinU16) {off childCellCount : Nat}
    (hfit : off + childCellCount ≤ axisCount isHorizontalSplit ar) (pt : Point) :
    (buildAxisChildRect isHorizontalSplit ar off childCellCount).isPointInside pt = true ↔
      ar.isPointInside pt = true ∧
        axisOrigin isHorizontalSplit ar + off ≤ axisCoordinate isHorizontalSplit pt ∧
        axisCoordinate isHorizontalSplit pt < axisOrigin isHorizontalSplit ar + off + childCellCount := by
  obtain ⟨hright, hbot⟩ := hw
  unfold getRightEdge at hright
  unfold getBottomEdge at hbot
  cases isHorizontalSplit with
  | true =>
    simp only [axisCount, axisOrigin, axisCoordinate, splitAxisAndCrossCellCounts, if_true] at hfit ⊢
    simp only [buildAxisChildRect, if_true]
    rw [satAdd16_of_le (by omega), isPointInside_iff, isPointInside_iff]
    dsimp only
    omega
  | false =>
    simp only [axisCount, axisOrigin, axisCoordinate, splitAxisAndCrossCellCounts, Bool.false_eq_true,
      if_false] at hfit ⊢
    simp only [buildAxisChildRect, Bool.false_eq_true, if_false]
    rw [satAdd16_of_le (by omega), isPointInside_iff, isPointInside_iff]
    dsimp only
    omega

theorem axisCoordinate_lt {pt : Point} (h : rect.isPointInside pt = true) :
    axisOrigin isHorizontalSplit rect ≤ axisCoordinate isHorizontalSplit pt ∧
      axisCoordinate isHorizontalSplit pt < axisOrigin isHorizontalSplit rect + axisCount isHorizontalSplit rect := by
  rw [isPointInside_iff] at h
  cases isHorizontalSplit with
  | true => exact ⟨h.1, h.2.2.1⟩
  | false => exact ⟨h.2.1, h.2.2.2⟩

def coverCount (rects : List Rect) (point : Point) : Nat := rects.countP (·.isPointInside point)

theorem coverCount_cons (rect : Rect) (rs : List Rect) (pt : Point) :
    coverCount (rect :: rs) pt = (if rect.isPointInside pt = true then 1 else 0) + coverCount rs pt := by
  unfold coverCount
  rw [countP_cons, Nat.add_comm]

theorem coverCount_layChildRects_dropped (keeps : List Bool) (sh : List Nat) (off : Nat) (hnone : keeps.count true = 0)
    (pt : Point) :
    coverCount (layChildRects isHorizontalSplit ar gapCellCount keeps sh off) pt = 0 := by
  induction keeps with
  | nil => rfl
  | cons isKept keeps ih =>
    cases isKept with
    | false =>
      rw [layChildRects, coverCount_cons, isPointInside_buildEmpty, ih (by simpa using hnone)]
      rfl
    | true => simp at hnone

/-- The laid rects cover the split's cells from `axisOffset` on at most once, and nothing else; without gaps
and with all of the axis handed out, exactly once. -/
theorem coverCount_layChildRects (hw : ar.WithinU16) (pt : Point) (keeps : List Bool) (sh : List Nat) (off : Nat)
    (hc : sh.length = keeps.count true)
    (hfit : sh ≠ [] → off + sh.sum + gapCellCount * (sh.length - 1) ≤ axisCount isHorizontalSplit ar) :
    let cover := coverCount (layChildRects isHorizontalSplit ar gapCellCount keeps sh off) pt
    let expected := if ar.isPointInside pt = true ∧
        axisOrigin isHorizontalSplit ar + off ≤ axisCoordinate isHorizontalSplit pt then 1 else 0
    cover ≤ expected ∧ (gapCellCount = 0 → sh ≠ [] → off + sh.sum = axisCount isHorizontalSplit ar →
      cover = expected) := by
  induction keeps generalizing sh off with
  | nil =>
    obtain rfl := eq_nil_of_length_eq_zero hc
    exact ⟨Nat.zero_le _, fun _ hne => absurd rfl hne⟩
  | cons isKept keeps ih =>
    cases isKept with
    | false =>
      rw [layChildRects, coverCount_cons, isPointInside_buildEmpty]
      simpa using ih sh off (by simpa using hc) hfit
    | true =>
      obtain ⟨cells, counts, rfl⟩ : ∃ cells counts, sh = cells :: counts := by
        cases sh with
        | nil => simp at hc
        | cons cells counts => exact ⟨cells, counts, rfl⟩
      have hfit := hfit (cons_ne_nil _ _)
      have haxis : axisCount isHorizontalSplit ar ≤ u16Max := axisCount_le_u16Max hw
      simp only [length_cons, sum_cons, Nat.add_sub_cancel] at hfit
      rw [layChildRects, coverCount_cons]
      simp only [headD_cons, tail_cons]
      have hhead := isPointInside_buildAxisChildRect hw (show off + cells ≤ axisCount isHorizontalSplit ar by omega) pt
      have hen := @axisCoordinate_lt ar isHorizontalSplit pt
      rcases counts with _ | ⟨next, counts⟩
      · -- the last kept child
        rw [coverCount_layChildRects_dropped _ _ _ (by simpa using hc.symm)]
        by_cases hin : ar.isPointInside pt = true
        · have hen := hen hin
          simp only [hhead, hin, true_and, sum_cons, sum_nil, Nat.add_zero]
          split_ifs <;> omega
        · simp [hhead, hin]
      · have hgap : gapCellCount * (next :: counts).length =
            gapCellCount * ((next :: counts).length - 1) + gapCellCount := by
          rw [length_cons, Nat.add_sub_cancel, Nat.mul_succ]
        have hoff : satAdd16 (satAdd16 off cells) gapCellCount = off + cells + gapCellCount := by
          rw [satAdd16_of_le (a := off) (by omega), satAdd16_of_le (by omega)]
        have hr := ih (next :: counts) (off + cells + gapCellCount) (by simpa using hc) (fun _ => by omega)
        rw [hoff]
        by_cases hin : ar.isPointInside pt = true
        · simp only [hhead, hin, true_and, ne_eq, reduceCtorEq, not_false_eq_true, forall_const] at hr ⊢
          simp only [sum_cons (a := cells)] at hr ⊢
          split_ifs at hr ⊢ <;> omega
        · simp only [hhead, hin, false_and, if_false, Bool.false_eq_true] at hr ⊢
          omega

theorem layChildRects_holds {minima : List RequiredSize} {keeps : List Bool} {keptFloors : List Nat}
    (hslots : KeptSlots isHorizontalSplit ar minima keeps keptFloors) (sh : List Nat) (off : Nat)
    (hfl : ∀ j, keptFloors.getD j 0 ≤ sh.getD j 0) :
    List.Forall₂ (fun (minimum : RequiredSize) (rect : Rect) =>
        rect = .buildEmptyAtOrigin ∨ minimum.canFitInside rect.size = true) minima
      (layChildRects isHorizontalSplit ar gapCellCount keeps sh off) ∧
    (keeps.all id = true → List.Forall₂ (fun (minimum : RequiredSize) (rect : Rect) =>
        minimum.canFitInside rect.size = true) minima
      (layChildRects isHorizontalSplit ar gapCellCount keeps sh off)) := by
  induction hslots generalizing sh off with
  | nil => exact ⟨.nil, fun _ => .nil⟩
  | drop _ ih =>
    obtain ⟨hhl, -⟩ := ih sh off hfl
    exact ⟨.cons (Or.inl rfl) hhl, fun hall => by simp at hall⟩
  | @keep size _ _ _ _ hcross haxis _ ih =>
    obtain ⟨hhl, hall⟩ := ih sh.tail
      (satAdd16 (satAdd16 off (sh.headD 0)) gapCellCount) fun j => by
        have := hfl (j + 1)
        cases sh with
        | nil => simpa using this
        | cons cells counts => simpa using this
    have hhead : axisMinimum isHorizontalSplit size ≤ sh.headD 0 := le_trans haxis (by
      have := hfl 0
      cases sh with
      | nil => simpa using this
      | cons cells counts => simpa using this)
    have hft : size.canFitInside (buildAxisChildRect isHorizontalSplit ar off (sh.headD 0)).size = true := by
      refine (canFitInside_iff_axes isHorizontalSplit _ _).2 ⟨?_, ?_⟩
      · refine le_trans hhead (Nat.le_of_eq ?_)
        cases isHorizontalSplit <;> rfl
      · refine le_trans hcross (Nat.le_of_eq ?_)
        cases isHorizontalSplit <;> rfl
    exact ⟨.cons (Or.inr hft) hhl, fun h => .cons hft (hall (by simpa using h))⟩

end Laying

theorem distributeAxisCells_nil (fl : List Nat) (available : Nat) (h : fl = []) :
    distributeAxisCells [] fl available = [] := by
  subst h
  have hrepair : repairCellCountSum [] available = [] :=
    eq_nil_of_length_eq_zero (length_repairCountSum [] available)
  simp [distributeAxisCells, computeShareCellCounts, listFlexibleChildWeightPairs, hrepair,
    applyPreferredCellCounts, applyResizeDeltas, clampCellCountsToFloors]

/-- **The child rects of a directional split**: each is empty or holds its child's minimum, and together they
cover every cell of the split at most once and nothing outside it. When the split's minimum fits, every
child's rect holds its minimum, and without gaps every cell is covered exactly once. -/
theorem directionalRects_spec (sizing : PaneSizing) (hw : ar.WithinU16) (hne : node.children ≠ [])
    (hgood : ∀ child ∈ node.children, child.hasNoLeaflessSplit = true) :
    let childRects := computeDirectionalChildRects node ar sizing
    let fits := (computeDirectionalMinimumSize node (computeMinimumSizes sizing node.children)
      sizing).canFitInside ar.size = true
    List.Forall₂ (fun child rect => rect = .buildEmptyAtOrigin ∨
        (computeMinimumSize sizing child).canFitInside rect.size = true) node.children childRects ∧
      (∀ pt, coverCount childRects pt ≤ if ar.isPointInside pt = true then 1 else 0) ∧
      (fits → List.Forall₂ (fun child rect =>
        (computeMinimumSize sizing child).canFitInside rect.size = true) node.children childRects) ∧
      (fits → sizing.gapCellCount = 0 → ∀ pt, coverCount childRects pt = if ar.isPointInside pt =
        true then 1 else 0) := by
  obtain ⟨hslots, hlen, hfl, hshr⟩ := listKeptChildren_spec node sizing hw hgood
  have hallKept := @listKeptChildren_all _ sizing node hw
  simp only [computeDirectionalChildRects]
  generalize listKeptChildren node ar sizing = keptChildren at *
  obtain ⟨keeps, keptWeights, keptFloors, share⟩ := keptChildren
  dsimp only at *
  have haxis : axisCount (node.direction = .horizontal) ar ≤ u16Max := axisCount_le_u16Max hw
  have hcn : (distributeAxisCells keptWeights keptFloors share).length = keptFloors.length ∧
      (keptFloors ≠ [] → (distributeAxisCells keptWeights keptFloors share).sum = share) ∧
      ∀ j, keptFloors.getD j 0 ≤ (distributeAxisCells keptWeights keptFloors share).getD j 0 := by
    by_cases hnil : keptWeights = []
    · have hfloorsNil : keptFloors = [] := eq_nil_of_length_eq_zero (by rw [← hlen, hnil]; rfl)
      rw [hnil, distributeAxisCells_nil _ _ hfloorsNil, hfloorsNil]
      simp
    · obtain ⟨⟨hln, hsum⟩, hfloor⟩ := @distributeAxisCells_axis share _ keptFloors (by omega) hnil hlen.symm
      exact ⟨by rw [hln, hlen], fun _ => hsum, hfloor hfl⟩
  generalize distributeAxisCells keptWeights keptFloors share = sh at hcn ⊢
  obtain ⟨hln, hsum, hfloor⟩ := hcn
  have hcover := fun pt => @coverCount_layChildRects (node.direction = .horizontal) _
    sizing.gapCellCount hw pt keeps sh 0
    (hln.trans hslots.length_floors) (fun h => by
      have := hsum (fun hnil => h (eq_nil_of_length_eq_zero (by rw [hln, hnil]; rfl)))
      rw [this, hln]
      omega)
  have hhl := @layChildRects_holds _ _ sizing.gapCellCount _ _ _ hslots sh 0 hfloor
  rw [forall₂_map_left_iff, forall₂_map_left_iff] at hhl
  have hexp : ∀ pt, (if ar.isPointInside pt = true ∧
      axisOrigin (node.direction = .horizontal) ar + 0 ≤
        axisCoordinate (node.direction = .horizontal) pt then 1 else 0) =
      if ar.isPointInside pt = true then 1 else 0 := by
    intro pt
    by_cases hin : ar.isPointInside pt = true
    · rw [if_pos ⟨hin, (axisCoordinate_lt hin).1⟩, if_pos hin]
    · rw [if_neg (fun h => hin h.1), if_neg hin]
  refine ⟨hhl.1, fun pt => hexp pt ▸ (hcover pt).1, fun hfit => hhl.2 (hallKept hfit), fun hfit hgap pt => ?_⟩
  have hpos : keptFloors ≠ [] := by
    intro hnil
    have hc := hslots.length_floors
    rw [hnil, count_eq_length.2 (fun b hb => by simpa using (List.all_eq_true.1 (hallKept hfit) b hb).symm),
      hslots.length_flags, length_map] at hc
    exact hne (eq_nil_of_length_eq_zero hc.symm)
  refine hexp pt ▸ (hcover pt).2 hgap (fun hnil => hpos ?_) ?_
  · exact eq_nil_of_length_eq_zero (by rw [← hln, hnil]; rfl)
  · rw [hsum hpos]
    rw [hgap] at hshr
    omega

/-! ### Laying the members of a stack -/

def memberRowTotal (activeIndex activeRowCount member rest : Nat) : Nat :=
  if member ≤ activeIndex ∧ activeIndex < member + rest then
    rest - 1 + activeRowCount
  else rest

theorem coverCount_layMemberRects (rect : Rect) (active activeRows : Nat) (pt : Point) (member rest rowOffset : Nat)
    (hfit : rowOffset + memberRowTotal active activeRows member rest ≤ u16Max) :
    coverCount (layMemberRects rect active activeRows member rest rowOffset) pt =
      if rect.origin.column ≤ pt.column ∧
        pt.column < rect.origin.column + rect.size.columnCount ∧ rowOffset ≤ pt.row ∧
        pt.row < rowOffset + memberRowTotal active activeRows member rest
      then 1 else 0 := by
  induction rest generalizing member rowOffset with
  | zero =>
    rw [if_neg]
    · rfl
    · rintro ⟨-, -, hlow, hhigh⟩
      unfold memberRowTotal at hhigh
      split_ifs at hhigh <;> omega
  | succ rest ih =>
    rw [layMemberRects, coverCount_cons]
    generalize hrows : (if member = active then activeRows else 1) = memberRowCount
    have htot : memberRowTotal active activeRows member (rest + 1) =
        memberRowCount + memberRowTotal active activeRows (member + 1) rest := by
      unfold memberRowTotal
      split_ifs at hrows ⊢ <;> omega
    rw [htot] at hfit ⊢
    rw [satAdd16_of_le (by omega), ih _ _ (by omega)]
    simp only [isPointInside_iff]
    by_cases hco : rect.origin.column ≤ pt.column ∧ pt.column < rect.origin.column + rect.size.columnCount
    · simp only [hco.1, hco.2, true_and]
      split_ifs <;> omega
    · rw [if_neg (fun h => hco ⟨h.1, h.2.2.1⟩), if_neg (fun h => hco ⟨h.1, h.2.1⟩), if_neg (fun h => hco ⟨h.1, h.2.1⟩)]

theorem getElem?_layMemberRects (ar : Rect) (active activeRows : Nat) (member rest rowOffset i : Nat)
    (h : (layMemberRects ar active activeRows member rest rowOffset)[i]? = some rect) :
    rect.size = ⟨ar.size.columnCount, if member + i = active then activeRows else 1⟩ := by
  induction rest generalizing member rowOffset i with
  | zero => simp [layMemberRects] at h
  | succ rest ih =>
    rw [layMemberRects] at h
    cases i with
    | zero =>
      rw [List.getElem?_cons_zero, Option.some.injEq] at h
      rw [← h]
      rfl
    | succ i =>
      rw [List.getElem?_cons_succ] at h
      rw [ih _ _ _ h, Nat.add_assoc, Nat.add_comm 1 i]

theorem length_layMemberRects (rect : Rect) (active activeRows member rest
    rowOffset : Nat) : (layMemberRects rect active activeRows member rest rowOffset).length = rest := by
  induction rest generalizing member rowOffset with
  | zero => rfl
  | succ rest ih => rw [layMemberRects, length_cons, ih]

/-- **The child rects of a stack**: all empty when the stack's minimum does not fit. Otherwise no rect is
empty, the active member's holds its minimum, and every cell of the stack is covered exactly once. -/
theorem stackedRects_spec (sizing : PaneSizing) (hw : ar.WithinU16) (hne : node.children ≠ [])
    (hgood : ∀ child ∈ node.children, child.hasNoLeaflessSplit = true) :
    let childRects := computeStackedChildRects node ar sizing
    childRects.length = node.children.length ∧
      (¬ (computeStackMinimumSize node sizing).canFitInside ar.size = true →
        ∀ rect ∈ childRects, rect = .buildEmptyAtOrigin) ∧
      ((computeStackMinimumSize node sizing).canFitInside ar.size = true →
        (∀ i child rect, node.children[i]? = some child → childRects[i]? = some rect →
          rect.isEmpty = false ∧ (i = node.getActiveChildIndex →
            (computeMinimumSize sizing child).canFitInside rect.size = true)) ∧
        ∀ pt, coverCount childRects pt = if ar.isPointInside pt = true then 1 else 0) := by
  have hln := length_pos_iff.2 hne
  have hlt := node.getActiveChildIndex_lt hne
  obtain ⟨hco, hrows⟩ := stackMinimumSize_axes node sizing (List.getElem?_eq_getElem hlt)
  have hact := two_le_minimumSize sizing (hgood _ (getElem_mem hlt))
  have hwide := hco _ (getElem_mem hlt)
  obtain ⟨hright, hbot⟩ := hw
  unfold getRightEdge at hright
  unfold getBottomEdge at hbot
  simp only [computeStackedChildRects]
  rw [if_neg (by omega)]
  by_cases hfit : (computeStackMinimumSize node sizing).canFitInside ar.size = true
  · rw [if_neg (by simp [hfit])]
    refine ⟨length_layMemberRects _ _ _ _ _ _, fun h => absurd hfit h, fun _ => ?_⟩
    obtain ⟨hfitColumns, hfitRows⟩ := (RequiredSize.canFitInside_iff _ _).1 hfit
    rw [hrows] at hfitRows
    have hheaders : node.children.length - 1 +
        (computeMinimumSize sizing node.children[node.getActiveChildIndex]).rowCount ≤ ar.size.rowCount := by
      unfold satAdd32 tryU32OrMax u32Max at hfitRows
      unfold u16Max at hbot
      split_ifs at hfitRows <;> omega
    rw [asU16_of_le (by omega)]
    refine ⟨fun i child rect hch hrc => ?_, fun pt => ?_⟩
    · have hsize := getElem?_layMemberRects _ _ _ _ _ _ _ hrc
      rw [Nat.zero_add] at hsize
      refine ⟨?_, fun hi => ?_⟩
      · rw [Bool.eq_false_iff, ne_eq, Rect.isEmpty_iff, hsize]
        rintro (hz | hz)
        · dsimp only at hz
          omega
        · dsimp only at hz
          split_ifs at hz
          omega
      · subst hi
        obtain rfl : node.children[node.getActiveChildIndex] = child := by
          rw [List.getElem?_eq_getElem hlt] at hch
          exact Option.some.inj hch
        rw [RequiredSize.canFitInside_iff, hsize]
        simp only [if_true]
        omega
    · have htot : memberRowTotal node.getActiveChildIndex
          (ar.size.rowCount - (node.children.length - 1)) 0 node.children.length = ar.size.rowCount := by
        unfold memberRowTotal
        rw [if_pos (by omega)]
        omega
      rw [coverCount_layMemberRects _ _ _ _ _ _ _ (by rw [htot]; exact hbot), htot]
      refine if_congr ?_ rfl rfl
      rw [isPointInside_iff]
      omega
  · rw [if_pos (by rw [Bool.eq_false_iff.2 hfit]; rfl)]
    exact ⟨length_replicate, fun _ rect hm => eq_of_mem_replicate hm, fun h => absurd h hfit⟩

end Koshi.Layout
