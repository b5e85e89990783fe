import Koshi.Layout.Proof.DeltaConversion
import Koshi.Layout.Resize

/-!
# Where a kept child stands

The kept children of a split are counted apart from the others. A kept child's place among them is the number of kept
children before it; its weight, its floor, its count and its rect are read at that place.
-/

namespace Koshi.Layout

open Base Koshi.Core List

def keptPlace (keeps : List Bool) (position : Nat) : Nat := (keeps.take position).count true

section Places

variable {keeps : List Bool} {position : Nat}

theorem length_listKeptIndexes (keeps : List Bool) : (listKeptIndexes keeps).length = keeps.count true := by
  induction keeps using List.reverseRecOn with
  | nil => rfl
  | append_singleton keeps isKept ih =>
    rw [listKeptIndexes_append, length_append, ih, count_append]
    cases isKept <;> simp

theorem getElem?_listKeptIndexes (hk : keeps[position]? = some true) :
    (listKeptIndexes keeps)[keptPlace keeps position]? = some position := by
  induction keeps using List.reverseRecOn with
  | nil => simp at hk
  | append_singleton keeps isKept ih =>
    have hlt := (List.getElem?_eq_some_iff.1 hk).1
    rw [length_append, length_singleton] at hlt
    rw [listKeptIndexes_append, keptPlace]
    by_cases hl : position = keeps.length
    · subst hl
      rw [List.getElem?_append_right (le_refl _), Nat.sub_self] at hk
      obtain rfl : isKept = true := by simpa using hk
      rw [take_left, ← length_listKeptIndexes, List.getElem?_append_right (le_refl _), Nat.sub_self]
      rfl
    · rw [List.getElem?_append_left (by omega)] at hk
      have hfo := ih hk
      rw [take_append_of_le_length (by omega)]
      exact List.getElem?_append_left (List.getElem?_eq_some_iff.1 hfo).1 ▸ hfo

theorem mem_listKeptIndexes (hm : position ∈ listKeptIndexes keeps) : keeps[position]? = some true := by
  rw [listKeptIndexes, mem_filterMap] at hm
  obtain ⟨⟨isKept, index⟩, hpr, hso⟩ := hm
  have hg := mem_zipIdx_iff_getElem?.1 hpr
  dsimp only at hso hg
  split_ifs at hso with htrue
  obtain rfl := Option.some.inj hso
  rw [hg, htrue]

theorem keptPlace_lt (hk : keeps[position]? = some true) : keptPlace keeps position < (listKeptIndexes keeps).length :=
  (List.getElem?_eq_some_iff.1 (getElem?_listKeptIndexes hk)).1

theorem nodup_listKeptIndexes (keeps : List Bool) : (listKeptIndexes keeps).Nodup :=
  (listKeptIndexes_sublist keeps).nodup nodup_range

theorem place_eq_of_getElem? (hk : keeps[position]? = some true) {place : Nat}
    (hpc : (listKeptIndexes keeps)[place]? = some position) : place = keptPlace keeps position := by
  have hfo := getElem?_listKeptIndexes hk
  obtain ⟨hlt, hg⟩ := List.getElem?_eq_some_iff.1 hpc
  obtain ⟨hlt', hget'⟩ := List.getElem?_eq_some_iff.1 hfo
  exact (nodup_listKeptIndexes keeps).getElem_inj_iff.1 (hg.trans hget'.symm)

theorem keptPlace_lt_keptPlace (hk : keeps[position]? = some true) {laterIndex : Nat}
    (hlt : position < laterIndex) : keptPlace keeps position < keptPlace keeps laterIndex := by
  have hsp : (keeps.take laterIndex).take (position + 1) = keeps.take (position + 1) := by
    rw [take_take, Nat.min_eq_left (by omega)]
  have hc : (keeps.take (position + 1)).count true = keptPlace keeps position + 1 := by
    rw [take_add_one, hk, count_append, keptPlace]
    rfl
  have hle := ((keeps.take laterIndex).take_sublist (position + 1)).count_le true
  rw [hsp, hc] at hle
  exact hle

end Places

/-! ### The rect at a place -/

def layOffset (gap : Nat) : List Nat → (offset place : Nat) → Nat
  | _, offset, 0 => offset
  | counts, offset, place + 1 =>
    layOffset gap counts.tail (satAdd16 (satAdd16 offset (counts.headD 0)) gap) place

theorem layOffset_eq (gap : Nat) (counts : List Nat) {off : Nat} (hle : off ≤ u16Max)
    (place : Nat) : layOffset gap counts off place =
      min u16Max (off + ∑ j ∈ Finset.range place, (counts.getD j 0 + gap)) := by
  induction place generalizing counts off with
  | zero => simp [layOffset, hle]
  | succ place ih =>
    have hhead : counts.headD 0 = counts.getD 0 0 := by cases counts <;> rfl
    have htail : ∀ j, counts.tail.getD j 0 = counts.getD (j + 1) 0 := by
      intro j
      cases counts <;> rfl
    rw [layOffset, ih _ (by unfold satAdd16; omega), Finset.sum_range_succ', hhead]
    simp only [htail]
    unfold satAdd16
    omega

section Rects

variable {hor : Bool} {r : Rect} {gap : Nat} {keeps : List Bool} {position : Nat}

theorem getElem?_layChildRects_dropped (hdp : keeps[position]? = some false) (counts : List Nat) (off : Nat) :
    (layChildRects hor r gap keeps counts off)[position]? = some .buildEmptyAtOrigin := by
  induction keeps generalizing position counts off with
  | nil => simp at hdp
  | cons isKept keeps ih =>
    obtain _ | position := position
    · obtain rfl : isKept = false := by simpa using hdp
      rfl
    · rw [List.getElem?_cons_succ] at hdp
      cases isKept <;> exact ih hdp _ _

/-- **The rect of a kept child** starts where the children before it end, and holds its count. -/
theorem getElem?_layChildRects (hk : keeps[position]? = some true) (counts : List Nat) (off : Nat) :
    (layChildRects hor r gap keeps counts off)[position]? =
      some (buildAxisChildRect hor r (layOffset gap counts off (keptPlace keeps position))
        (counts.getD (keptPlace keeps position) 0)) := by
  induction keeps generalizing position counts off with
  | nil => simp at hk
  | cons isKept keeps ih =>
    obtain _ | position := position
    · obtain rfl : isKept = true := by simpa using hk
      rw [layChildRects, List.getElem?_cons_zero]
      cases counts <;> rfl
    · rw [List.getElem?_cons_succ] at hk
      cases isKept with
      | false =>
        rw [layChildRects, List.getElem?_cons_succ, ih hk, keptPlace, keptPlace, take_succ_cons,
          count_cons_of_ne (by decide)]
      | true =>
        have hpc : keptPlace (true :: keeps) (position + 1) = keptPlace keeps position + 1 := by
          rw [keptPlace, take_succ_cons, count_cons_self]
          rfl
        rw [layChildRects, List.getElem?_cons_succ, ih hk, hpc, layOffset]
        cases counts <;> rfl

end Rects

/-! ### The floor at a place -/

def floorAt (node : SplitNode LayoutNode) (sizing : PaneSizing) (position : Nat) : Nat :=
  computeSlotFloor node position (node.direction = .horizontal) sizing

theorem foldl_keepChildStep_floors {node : SplitNode LayoutNode} {r : Rect} {sz : PaneSizing}
    (minima : List RequiredSize) {i₀ : Nat} {floorOf : Nat → Nat} {kept : KeptState}
    (hfloor : ∀ i minimum, minima[i]? = some minimum →
      computeChildFloor node (i₀ + i) (axisMinimum (node.direction = .horizontal) minimum) = floorOf (i₀ + i))
    (hlen : kept.isChildKept.length = i₀)
    (hst : kept.keptFloors = (listKeptIndexes kept.isChildKept).map floorOf) :
    ((minima.zipIdx i₀).foldl (keepChildStep node r sz) kept).keptFloors =
      (listKeptIndexes ((minima.zipIdx i₀).foldl (keepChildStep node r sz) kept).isChildKept).map floorOf := by
  induction minima generalizing i₀ kept with
  | nil => exact hst
  | cons minimum minima ih =>
    rw [zipIdx_cons, foldl_cons]
    have hhead := hfloor 0 minimum rfl
    rw [Nat.add_zero] at hhead
    apply ih
    · intro i size hsize
      have hlr := hfloor (i + 1) size (by simpa using hsize)
      rw [show i₀ + (i + 1) = i₀ + 1 + i by omega] at hlr
      exact hlr
    · rw [keepChildStep_eq]
      dsimp only
      generalize (if kept.keptWeights.isEmpty = true then 0 else sz.gapCellCount) = leadingGap
      split_ifs <;> simp [hlen]
    · rw [keepChildStep_eq]
      dsimp only
      generalize (if kept.keptWeights.isEmpty = true then 0 else sz.gapCellCount) = leadingGap
      split_ifs
      · simpa [listKeptIndexes_append] using hst
      · dsimp only
        rw [listKeptIndexes_append, if_pos rfl, map_append, ← hst, hlen, map_singleton, ← hhead]
      · simpa [listKeptIndexes_append] using hst

variable (node : SplitNode LayoutNode)

theorem listKeptChildren_floors (r : Rect) (sz : PaneSizing) :
    (listKeptChildren node r sz).keptFloors =
      (listKeptIndexes (listKeptChildren node r sz).isChildKept).map (floorAt node sz) := by
  simp only [listKeptChildren]
  refine @foldl_keepChildStep_floors node r sz _ 0 (floorAt node sz)
    ⟨[], [], [], true, 0⟩ (fun i minimum hsize => ?_) rfl rfl
  rw [minimumSizes_eq_map, List.getElem?_map] at hsize
  rw [Nat.zero_add, floorAt, computeSlotFloor, hsize]
  rfl

theorem sum_keptFloors_le {r : Rect} (sz : PaneSizing) (hw : SizeWithinU16 r.size) :
    (listKeptChildren node r sz).keptFloors.sum ≤ (listKeptChildren node r sz).sharedCellCount := by
  have horigin := withinU16_fromAtOrigin hw
  rw [@listKeptChildren_congr r (.fromSizeAtOrigin r.size) rfl]
  have hi := @foldl_keepChildStep_inv _ sz ⟨[], [], [], true, 0⟩ node horigin
    (computeMinimumSizes sz node.children) [] 0 ⟨.nil, rfl, by simp, Nat.zero_le _⟩
  simp only [listKeptChildren]
  generalize (computeMinimumSizes sz node.children).zipIdx.foldl
    (keepChildStep node (.fromSizeAtOrigin r.size) sz) ⟨[], [], [], true, 0⟩ = kept at hi ⊢
  obtain ⟨-, hlen, hclaimed, hle⟩ := hi
  have hgaps : satMul16 sz.gapCellCount (asU16 (kept.keptWeights.length - 1)) ≤
      sz.gapCellCount * (kept.keptFloors.length - 1) := by
    rw [hlen]
    refine le_trans (Nat.min_le_left _ _) (Nat.mul_le_mul_left _ ?_)
    unfold asU16
    exact Nat.mod_le _ _
  change _ ≤ axisCount (node.direction = .horizontal) (.fromSizeAtOrigin r.size) - _
  omega

theorem targetCounts_axis {weights : List SizeWeight} {fl : List Nat} {n : Nat}
    (hav : n ≤ u16Max) (hne : weights ≠ []) :
    AxisCounts weights.length n (computeTargetCellCounts weights fl n) := by
  refine applyPreferredCounts_axis hav ⟨by simp, sum_repairCellCountSum _ _ (fun h => hne ?_) hav⟩
  have hlen := length_shareCounts weights n
  rw [h] at hlen
  exact eq_nil_of_length_eq_zero hlen.symm

end Koshi.Layout
