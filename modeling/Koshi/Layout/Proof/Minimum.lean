import Koshi.Base.Loop
import Koshi.Layout.Solver

/-!
# Minimum sizes

The minimum of a split in closed form: along its axis the saturated sum of the child floors and the gaps,
across it the largest child minimum. A subtree with a leaf needs at least the border in both axes.
-/

namespace Koshi.Layout

open Base Koshi.Core List

variable (sz : PaneSizing) (node : SplitNode LayoutNode) {horizontal : Bool}

def axisMinimum (isHorizontalSplit : Bool) (required : RequiredSize) : Nat :=
  (splitAxisAndCrossCellCounts required.columnCount required.rowCount isHorizontalSplit).1

/-- The cells of a required size across the axis of a split. -/
def crossMinimum (isHorizontalSplit : Bool) (required : RequiredSize) : Nat :=
  (splitAxisAndCrossCellCounts required.columnCount required.rowCount isHorizontalSplit).2

/-- The floor of every child slot of a directional split, in child order. -/
def listChildFloors (node : SplitNode LayoutNode) (minima : List RequiredSize) : List Nat :=
  minima.zipIdx.map fun slot =>
    computeChildFloor node slot.2 (axisMinimum (node.direction = .horizontal) slot.1)

theorem minimumSizes_eq_map (children : List LayoutNode) :
    computeMinimumSizes sz children = children.map (computeMinimumSize sz) := by
  induction children with
  | nil => rfl
  | cons child children ih => rw [computeMinimumSizes, ih, map_cons]

theorem satMul32_tryU32OrMax (a b : Nat) : satMul32 a (tryU32OrMax b) = min (a * b) u32Max := by
  unfold satMul32 tryU32OrMax
  split_ifs with h
  · rfl
  · rcases Nat.eq_zero_or_pos a with rfl | ha
    · simp
    · have h1 : u32Max ≤ a * u32Max := Nat.le_mul_of_pos_left _ ha
      have h2 : b ≤ a * b := Nat.le_mul_of_pos_left _ ha
      omega

theorem directionalMinimumStep_eq (totals : Nat × Nat)
    (slot : RequiredSize × Nat) : directionalMinimumStep node totals slot =
      (satAdd32 totals.1 (computeChildFloor node slot.2 (axisMinimum (node.direction = .horizontal) slot.1)),
        max totals.2 (crossMinimum (node.direction = .horizontal) slot.1)) := rfl

/-- The axis fold of a directional split: the floors summed with saturation, the cross minimums maximized. -/
theorem foldl_directionalMinimumStep (slots : List (RequiredSize × Nat)) (axisTotal crossTotal : Nat)
    (haxis : axisTotal ≤ u32Max) :
    slots.foldl (directionalMinimumStep node) (axisTotal, crossTotal) =
    (min (axisTotal + (slots.map fun slot => computeChildFloor node slot.2
        (axisMinimum (node.direction = .horizontal) slot.1)).sum) u32Max,
      (slots.map fun slot => crossMinimum (node.direction = .horizontal) slot.1).foldl max crossTotal) := by
  induction slots generalizing axisTotal crossTotal with
  | nil => simp [haxis]
  | cons slot slots ih =>
    rw [foldl_cons, directionalMinimumStep_eq, ih _ _ (satAdd32_le _ _)]
    refine Prod.ext ?_ rfl
    simp only [satAdd32, axisMinimum, map_cons, sum_cons]
    omega

def maxCrossMinimum (isHorizontalSplit : Bool) (minima : List RequiredSize) : Nat :=
  (minima.map (crossMinimum isHorizontalSplit)).foldl max 0

theorem le_foldl_max (counts : List Nat) (init : Nat) :
    init ≤ counts.foldl max init ∧ ∀ count ∈ counts, count ≤ counts.foldl max init := by
  induction counts generalizing init with
  | nil => simp
  | cons count counts ih =>
    obtain ⟨hinit, hm⟩ := ih (max init count)
    rw [foldl_cons]
    refine ⟨le_trans (le_max_left _ _) hinit, fun c hc => ?_⟩
    rcases mem_cons.1 hc with rfl | hc
    · exact le_trans (le_max_right _ _) hinit
    · exact hm c hc

theorem crossMinimum_le_max {minima : List RequiredSize} {minimum : RequiredSize} (h : minimum ∈ minima) :
    crossMinimum horizontal minimum ≤ maxCrossMinimum horizontal minima :=
  (le_foldl_max _ 0).2 _ (List.mem_map_of_mem h)

theorem directionalMinimumSize_axes (minima : List RequiredSize) (sz : PaneSizing) :
    axisMinimum (node.direction = .horizontal) (computeDirectionalMinimumSize node minima sz) =
      min ((listChildFloors node minima).sum + sz.gapCellCount * (node.children.length - 1)) u32Max ∧
    crossMinimum (node.direction = .horizontal) (computeDirectionalMinimumSize node minima sz) =
      maxCrossMinimum (node.direction = .horizontal) minima := by
  have hcross : (minima.zipIdx.map fun slot =>
      crossMinimum (node.direction = .horizontal) slot.1) =
      minima.map (crossMinimum (node.direction = .horizontal)) := by
    rw [← Function.comp_def (crossMinimum _) Prod.fst, ← List.map_map, zipIdx_map_fst]
  simp only [computeDirectionalMinimumSize]
  rw [foldl_directionalMinimumStep _ _ _ _ (Nat.zero_le _), satMul32_tryU32OrMax, hcross]
  have hsum : satAdd32 (min (0 + (listChildFloors node minima).sum) u32Max)
      (min (sz.gapCellCount * (node.children.length - 1)) u32Max) =
      min ((listChildFloors node minima).sum + sz.gapCellCount * (node.children.length - 1)) u32Max := by
    unfold satAdd32
    omega
  by_cases h : node.direction = .horizontal
  · simp only [h, if_true, axisMinimum, crossMinimum, splitAxisAndCrossCellCounts, decide_true]
    simp only [listChildFloors, h, decide_true] at hsum ⊢
    exact ⟨hsum, rfl⟩
  · simp only [h, if_false, axisMinimum, crossMinimum, splitAxisAndCrossCellCounts, decide_false]
    simp only [listChildFloors, h, decide_false] at hsum ⊢
    exact ⟨hsum, rfl⟩

/-! ### Stacks -/

theorem foldl_stackMinimumStep_columns (active : Nat) (slots : List (RequiredSize × Nat))
    (totals : Nat × Nat) : (slots.foldl (stackMinimumStep active) totals).1 =
      (slots.map fun slot => slot.1.columnCount).foldl max totals.1 := by
  induction slots generalizing totals with
  | nil => rfl
  | cons slot slots ih => rw [foldl_cons, ih, map_cons, foldl_cons]; rfl

theorem foldl_stackMinimumStep_rows (active : Nat) (minima : List RequiredSize) (i₀ : Nat) (totals : Nat × Nat) :
    ((minima.zipIdx i₀).foldl (stackMinimumStep active) totals).2 =
      if active < i₀ then totals.2
      else (minima[active - i₀]?.map (·.rowCount)).getD totals.2 := by
  induction minima generalizing i₀ totals with
  | nil => simp
  | cons minimum minima ih =>
    rw [zipIdx_cons, foldl_cons, ih]
    simp only [stackMinimumStep]
    rcases Nat.lt_trichotomy active i₀ with h | h | h
    · rw [if_pos (by omega), if_pos h, if_neg (by omega)]
    · subst h
      simp
    · rw [if_neg (by omega), if_neg (by omega), if_neg (by omega),
        show active - i₀ = active - (i₀ + 1) + 1 by omega,
        List.getElem?_cons_succ]

/-- A stack's minimum: every member's columns fit its width, and its rows are one per collapsed member and
the active member's. -/
theorem stackMinimumSize_axes (sz : PaneSizing) {activeChild : LayoutNode}
    (hact : node.children[node.getActiveChildIndex]? = some activeChild) :
    (∀ child ∈ node.children, (computeMinimumSize sz child).columnCount ≤
      (computeStackMinimumSize node sz).columnCount) ∧
    (computeStackMinimumSize node sz).rowCount =
      satAdd32 (tryU32OrMax (node.children.length - 1)) (computeMinimumSize sz activeChild).rowCount := by
  simp only [computeStackMinimumSize, computeStackMinimumSizeFrom, minimumSizes_eq_map]
  refine ⟨fun child hm => ?_, ?_⟩
  · rw [foldl_stackMinimumStep_columns]
    refine (le_foldl_max _ 0).2 _ ?_
    rw [← Function.comp_def RequiredSize.columnCount Prod.fst, ← List.map_map, zipIdx_map_fst, List.map_map]
    exact List.mem_map_of_mem (f := RequiredSize.columnCount ∘ computeMinimumSize sz) hm
  · rw [foldl_stackMinimumStep_rows, if_neg (Nat.not_lt_zero _), Nat.sub_zero, List.getElem?_map, hact]
    rfl

/-! ### Subtrees with leaves -/

theorem axisMinimum_le_childFloor (index axisCellCount : Nat) :
    axisCellCount ≤ computeChildFloor node index axisCellCount :=
  Nat.le_max_left _ _

theorem axisMinimum_le_sum_childFloors {minima : List RequiredSize} {minimum : RequiredSize} (hm : minimum ∈ minima) :
    axisMinimum (node.direction = .horizontal) minimum ≤ (listChildFloors node minima).sum := by
  obtain ⟨index, hidx, rfl⟩ := mem_iff_getElem.1 hm
  refine le_trans (axisMinimum_le_childFloor node index _) (single_le_sum (by simp) _ ?_)
  refine List.mem_map.2 ⟨(minima[index], index), ?_, rfl⟩
  rw [mk_mem_zipIdx_iff_getElem?]
  exact List.getElem?_eq_getElem hidx

theorem minimumSize_split_of_ne {node : SplitNode LayoutNode}
    (h : node.direction ≠ .stacked) : computeMinimumSize sz (.split node) =
      computeDirectionalMinimumSize node (computeMinimumSizes sz node.children) sz := by
  obtain ⟨dir, children, weights, active⟩ := node
  cases dir with
  | stacked => exact absurd rfl h
  | horizontal => rfl
  | vertical => rfl

theorem minimumSize_split_of_stacked {node : SplitNode LayoutNode}
    (h : node.direction = .stacked) : computeMinimumSize sz (.split node) = computeStackMinimumSize node sz := by
  obtain ⟨dir, children, weights, active⟩ := node
  subst h
  rfl

variable {required : RequiredSize}

theorem two_le_of_axes (haxis : 2 ≤ axisMinimum horizontal required) (hcross : 2 ≤ crossMinimum horizontal required) :
    2 ≤ required.columnCount ∧ 2 ≤ required.rowCount := by
  cases horizontal with
  | true => exact ⟨haxis, hcross⟩
  | false => exact ⟨hcross, haxis⟩

theorem axes_ge_two (h : 2 ≤ required.columnCount ∧ 2 ≤ required.rowCount) :
    2 ≤ axisMinimum horizontal required ∧ 2 ≤ crossMinimum horizontal required := by
  cases horizontal with
  | true => exact h
  | false => exact h.symm

theorem two_le_minimumSize {layoutNode : LayoutNode} (h : layoutNode.hasNoLeaflessSplit = true) :
    2 ≤ (computeMinimumSize sz layoutNode).columnCount ∧ 2 ≤ (computeMinimumSize sz layoutNode).rowCount := by
  induction layoutNode with
  | pane paneId => simp [computeMinimumSize, computeBorderInclusiveMinimum, RequiredSize.fromSizeSum, paneBorderSize]
  | split node ih =>
    have hcs := ((LayoutNode.hasNoLeaflessSplit_split node).1 h).2
    have hne := LayoutNode.children_ne_nil h
    by_cases hstk : node.direction = .stacked
    · rw [minimumSize_split_of_stacked _ hstk]
      have hlt := node.getActiveChildIndex_lt hne
      obtain ⟨hco, hrows⟩ :=
        stackMinimumSize_axes node sz (List.getElem?_eq_getElem hlt)
      have hm := getElem_mem hlt
      have hact := ih _ hm (hcs _ hm)
      have := hco _ hm
      rw [hrows]
      unfold satAdd32 u32Max
      omega
    · rw [minimumSize_split_of_ne _ hstk]
      obtain ⟨haxis, hcross⟩ := directionalMinimumSize_axes node (computeMinimumSizes sz node.children) sz
      obtain ⟨child, hm⟩ := exists_mem_of_ne_nil _ hne
      have hsize : computeMinimumSize sz child ∈ computeMinimumSizes sz node.children := by
        rw [minimumSizes_eq_map]
        exact List.mem_map_of_mem hm
      have htwo := @axes_ge_two (node.direction = .horizontal) _ (ih child hm (hcs child hm))
      have hfloor := axisMinimum_le_sum_childFloors node hsize
      have hmax := @crossMinimum_le_max (node.direction = .horizontal) _ _ hsize
      refine @two_le_of_axes (node.direction = .horizontal) _ ?_ ?_
      · rw [haxis]
        unfold u32Max
        omega
      · rw [hcross]
        omega

end Koshi.Layout
