import Mathlib.Tactic
import Koshi.Layout.Proof.Normalize

/-!
# Merging same-direction splits

What `merge_same_direction` computes, in terms of shares and inner sums, and that a merged list has nothing left to
merge. Where the children of a split could not be merged because a share left its range, they cannot be merged after
that split went up into its parent either, since the parent only scales the shares up.
-/

namespace Koshi.Layout

open Koshi.Core Base List Option NormalizedChild

variable {direction : SplitDirection} {child : NormalizedChild} {children : List NormalizedChild} {product : Nat}

/-! ### What merging computes -/

def getFlexShare (weight : SizeWeight) : Nat := (getPlainFlexWeight weight).getD 0

namespace NormalizedChild

/-- The sum of the inner shares of a child that merges, and one for a kept child. -/
def mergeFactor (direction : SplitDirection) (child : NormalizedChild) : Nat :=
  (computeMergeableWeightSum direction child).getD 1

/-- A share of this child leaves `FlexWeight` when it is rescaled by `mergeProduct`. -/
def ShareOverflows (direction : SplitDirection) (mergeProduct : Nat) (child : NormalizedChild) : Prop :=
  child.mergeFactor direction = 1 ∧ u32Max < getFlexShare child.sizeWeight * mergeProduct ∨
  child.mergeFactor direction ≠ 1 ∧ ∃ nested, child.layoutNode = .split nested ∧
    ∃ weight ∈ nested.weights,
      u32Max < getFlexShare weight * getFlexShare child.sizeWeight * (mergeProduct / child.mergeFactor direction)

/-- What a child contributes to its parent: itself or its inner children, with their rescaled shares. -/
def inlineChild (direction : SplitDirection) (mergeProduct : Nat) (child : NormalizedChild) : List NormalizedChild :=
  if child.mergeFactor direction = 1 then
    [{ child with sizeWeight := .fromPrimaryConstraint (.flex (getFlexShare child.sizeWeight * mergeProduct)) }]
  else
    match child.layoutNode with
    | .pane _ => []
    | .split nested => (nested.children.zip nested.weights).map fun (childNode, weight) =>
      ⟨childNode, .fromPrimaryConstraint (.flex (getFlexShare weight * getFlexShare child.sizeWeight *
        (mergeProduct / child.mergeFactor direction))), child.originalChildIndex⟩

end NormalizedChild

/-- The product of the inner sums. -/
def mergeProduct (direction : SplitDirection) (children : List NormalizedChild) : Nat :=
  (children.map (·.mergeFactor direction)).prod

/-- The product leaves `u128`, or a rescaled share leaves `FlexWeight`. -/
def MergeOverflows (direction : SplitDirection) (children : List NormalizedChild) : Prop :=
  u128Max < mergeProduct direction children ∨
    ∃ child ∈ children, child.ShareOverflows direction (mergeProduct direction children)

/-- Merging leaves these children alone. -/
def IsSettled (direction : SplitDirection) (children : List NormalizedChild) : Prop :=
  (∀ child ∈ children, child.mergeFactor direction = 1) ∨
    (∃ child ∈ children, getPlainFlexWeight child.sizeWeight = none) ∨ MergeOverflows direction children

theorem getPlainFlexWeight_flex (share : Nat) :
    getPlainFlexWeight (.fromPrimaryConstraint (.flex share)) = some share := by
  simp [getPlainFlexWeight, SizeWeight.fromPrimaryConstraint]

theorem getFlexShare_flex (share : Nat) : getFlexShare (.fromPrimaryConstraint (.flex share)) = share := by
  rw [getFlexShare, getPlainFlexWeight_flex, getD_some]

theorem getPlainFlexWeight_eq_some {wt : SizeWeight} (h : (getPlainFlexWeight wt).isSome) :
    getPlainFlexWeight wt = some (getFlexShare wt) := by
  obtain ⟨share, hshare⟩ := isSome_iff_exists.1 h
  rw [getFlexShare, hshare, getD_some]

theorem NormalizedChild.mergeFactor_pos (direction : SplitDirection) (child : NormalizedChild) :
    0 < child.mergeFactor direction := by
  unfold mergeFactor
  cases hsum : computeMergeableWeightSum direction child with
  | none => exact Nat.one_pos
  | some mergeFactor =>
    unfold computeMergeableWeightSum at hsum
    split at hsum
    · simp at hsum
    · split_ifs at hsum
      split at hsum
      · simp at hsum
      · split at hsum
        · simp at hsum
        · split_ifs at hsum with hpos
          obtain rfl := Option.some.inj hsum
          exact hpos

/-- A factor other than one belongs to a split whose weights and slot are plain flex shares. -/
theorem NormalizedChild.mergeFactor_ne_one (h : child.mergeFactor direction ≠ 1) :
    ∃ nested, child.layoutNode = .split nested ∧ nested.direction = direction ∧
      (getPlainFlexWeight child.sizeWeight).isSome ∧
      ∀ weight ∈ nested.weights, (getPlainFlexWeight weight).isSome := by
  unfold mergeFactor at h
  cases hsum : computeMergeableWeightSum direction child with
  | none => simp [hsum] at h
  | some mergeFactor =>
    obtain ⟨nested, hno, hslot, hinn⟩ := mergeableWeightSum_some hsum
    refine ⟨nested, hno, ?_, hslot, hinn⟩
    by_contra hdir
    simp [computeMergeableWeightSum, hno, hdir] at hsum

/-- The factor reads the node, and of the weight only whether it is a plain share. -/
theorem NormalizedChild.mergeFactor_congr (direction : SplitDirection) {other : NormalizedChild}
    (hno : child.layoutNode = other.layoutNode)
    (hpl : (getPlainFlexWeight child.sizeWeight).isSome = (getPlainFlexWeight other.sizeWeight).isSome) :
    child.mergeFactor direction = other.mergeFactor direction := by
  unfold mergeFactor computeMergeableWeightSum
  rw [hno]
  cases hch : getPlainFlexWeight child.sizeWeight <;> cases ho : getPlainFlexWeight other.sizeWeight
  · rfl
  · simp [hch, ho] at hpl
  · simp [hch, ho] at hpl
  · rfl

theorem mergeProduct_pos (direction : SplitDirection) (children : List NormalizedChild) :
    0 < mergeProduct direction children := by
  refine prod_pos ?_
  intro factor hfactor
  obtain ⟨child, -, rfl⟩ := List.mem_map.1 hfactor
  exact child.mergeFactor_pos direction

theorem div_mergeFactor_pos
    (hch : child ∈ children) : 0 < mergeProduct direction children / child.mergeFactor direction := by
  have hdvd : child.mergeFactor direction ∣ mergeProduct direction children :=
    dvd_prod (List.mem_map_of_mem hch)
  exact Nat.div_pos (Nat.le_of_dvd (mergeProduct_pos ..) hdvd) (child.mergeFactor_pos direction)

theorem mergeWeightProduct_eq {total : Nat} (hbo : total ≤ u128Max) {factors : List Nat}
    (hpos : ∀ mergeFactor ∈ factors, 0 < mergeFactor) :
    computeMergeWeightProduct total factors =
      if total * factors.prod ≤ u128Max then some (total * factors.prod)
      else none := by
  induction factors generalizing total with
  | nil => simp [computeMergeWeightProduct, hbo]
  | cons mergeFactor factors ih =>
    have hr : ∀ other ∈ factors, 0 < other := fun other h => hpos other (by simp [h])
    rw [computeMergeWeightProduct, prod_cons, ← Nat.mul_assoc]
    split_ifs with hn hprod hprod
    · rw [ih hn hr, if_pos hprod]
    · rw [ih hn hr, if_neg hprod]
    · exact absurd ((Nat.le_mul_of_pos_right _ (prod_pos hr)).trans hprod) hn
    · rfl

theorem inlinedWeights_eq {slotShare mergeScale : Nat} (hscale : 0 < mergeScale) {weights : List SizeWeight}
    (hpl : ∀ wt ∈ weights, (getPlainFlexWeight wt).isSome) :
    computeInlinedSizeWeights slotShare mergeScale weights =
      some (if ∀ wt ∈ weights, getFlexShare wt * slotShare * mergeScale ≤ u32Max then
        some (weights.map fun wt =>
          .fromPrimaryConstraint (.flex (getFlexShare wt * slotShare * mergeScale)))
      else none) := by
  induction weights with
  | nil => simp [computeInlinedSizeWeights]
  | cons wt weights ih =>
    have ih := ih fun other h => hpl other (by simp [h])
    rw [computeInlinedSizeWeights, getPlainFlexWeight_eq_some (hpl wt (by simp))]
    simp only [forall_mem_cons, map_cons]
    by_cases hshare : getFlexShare wt * slotShare * mergeScale ≤ u32Max
    · have hbig : getFlexShare wt * slotShare * mergeScale ≤ u128Max := hshare.trans (by decide)
      have hsmall := (Nat.le_mul_of_pos_right (getFlexShare wt * slotShare) hscale).trans hbig
      simp only [hsmall, hbig, and_self, if_true, buildRescaledFlex, hshare, true_and, ih]
      split_ifs <;> rfl
    · simp only [buildRescaledFlex, hshare, if_false, false_and]
      split_ifs <;> rfl

/-- The plan for one child with a plain slot: its rescaled shares, when all stay in range. -/
theorem mergedWeights_eq (direction : SplitDirection) (hpaired : child.layoutNode.WeightsPaired)
    (hpl : (getPlainFlexWeight child.sizeWeight).isSome) (hscale : 0 < product / child.mergeFactor direction)
    (hft : ¬ child.ShareOverflows direction product) :
    computeMergedSizeWeights child (child.mergeFactor direction) (product / child.mergeFactor direction) =
      some (some ((child.inlineChild direction product).map (·.sizeWeight))) := by
  unfold computeMergedSizeWeights inlineChild
  by_cases hk : child.mergeFactor direction = 1
  · rw [if_pos hk, if_pos hk, hk, Nat.div_one]
    have hshare : getFlexShare child.sizeWeight * product ≤ u32Max := Nat.not_lt.1 fun h => hft (.inl ⟨hk, h⟩)
    rw [computeScaledFlex, getPlainFlexWeight_eq_some hpl]
    simp [hshare.trans (show u32Max ≤ u128Max by decide), buildRescaledFlex, hshare]
  · rw [if_neg hk, if_neg hk]
    obtain ⟨nested, hno, -, -, hinn⟩ := mergeFactor_ne_one hk
    have hshares : ∀ wt ∈ nested.weights, getFlexShare wt * getFlexShare child.sizeWeight *
        (product / child.mergeFactor direction) ≤ u32Max := fun wt hwt =>
      Nat.not_lt.1 fun h => hft (.inr ⟨hk, nested, hno, wt, hwt, h⟩)
    rw [hno] at hpaired ⊢
    simp only [getPlainFlexWeight_eq_some hpl]
    rw [inlinedWeights_eq hscale hinn, if_pos hshares, List.map_map]
    cases hpaired with
    | split _ lengths _ =>
      congr 2
      -- the weights of the pairs are the weights
      rw [show nested.weights = (nested.children.zip nested.weights).map Prod.snd from
        (map_snd_zip (le_of_eq lengths)).symm, List.map_map, map_snd_zip (le_of_eq lengths)]
      rfl

theorem not_shareOverflows_of_mergedWeights (direction : SplitDirection) {weights : List SizeWeight}
    (hscale : 0 < product / child.mergeFactor direction)
    (h : computeMergedSizeWeights child (child.mergeFactor direction) (product / child.mergeFactor direction) =
      some (some weights)) :
    (getPlainFlexWeight child.sizeWeight).isSome ∧ ¬ child.ShareOverflows direction product := by
  unfold computeMergedSizeWeights at h
  by_cases hk : child.mergeFactor direction = 1
  · rw [if_pos hk, hk, Nat.div_one, computeScaledFlex] at h
    cases hshare : getPlainFlexWeight child.sizeWeight with
    | none => simp [hshare] at h
    | some share =>
      refine ⟨rfl, ?_⟩
      rintro (⟨-, hover⟩ | ⟨hmg, -⟩)
      · rw [getFlexShare, hshare, getD_some] at hover
        simp [hshare, buildRescaledFlex, Nat.not_le.2 hover] at h
      · exact hmg hk
  · obtain ⟨nested, hno, -, hslot, hinn⟩ := mergeFactor_ne_one hk
    refine ⟨hslot, ?_⟩
    rw [if_neg hk, hno] at h
    simp only [getPlainFlexWeight_eq_some hslot] at h
    rw [inlinedWeights_eq hscale hinn] at h
    rintro (⟨hone, -⟩ | ⟨-, overflowing, hover, wt, hwt, hlt⟩)
    · exact hk hone
    · obtain rfl : nested = overflowing := LayoutNode.split.inj (hno.symm.trans hover)
      rw [if_neg fun hall => absurd (hall wt hwt) (Nat.not_le.2 hlt)] at h
      simp at h

theorem planWeights_eq_some {children : List (NormalizedChild × Nat)} {planned : List (List SizeWeight)}
    (h : planSizeWeights product children = some (some planned)) :
    ∀ child ∈ children, ∃ weights, computeMergedSizeWeights child.1 child.2 (product / child.2) =
      some (some weights) := by
  induction children generalizing planned with
  | nil => simp
  | cons child children ih =>
    obtain ⟨normalizedChild, mergeFactor⟩ := child
    rw [planSizeWeights] at h
    cases hmg : computeMergedSizeWeights normalizedChild mergeFactor (product / mergeFactor) with
    | none => simp [hmg] at h
    | some weights =>
      cases weights with
      | none => simp [hmg] at h
      | some weights =>
        simp only [hmg, map_eq_some_iff] at h
        obtain ⟨rest, hr, others, rfl, -⟩ := h
        rintro other (_ | ⟨_, ho⟩)
        · exact ⟨weights, hmg⟩
        · exact ih hr other ho

theorem mem_zip_mergeFactor (hch : child ∈ children) : (child, child.mergeFactor direction) ∈
      children.zip (children.map fun other => (computeMergeableWeightSum direction other).getD 1) := by
  have hzip : children.zip (children.map fun other => (computeMergeableWeightSum direction other).getD 1) =
      children.map fun other => (other, other.mergeFactor direction) := by
    nth_rewrite 1 [← List.map_id children]
    exact zip_map'
  rw [hzip]
  exact List.mem_map_of_mem hch

theorem mergeSameDirection_of_isSettled (hpaired : ∀ child ∈ children, child.layoutNode.WeightsPaired)
    (h : IsSettled direction children) :
    mergeSameDirection direction children = some children := by
  unfold mergeSameDirection
  simp only
  split_ifs with hk
  · rfl
  rw [mergeWeightProduct_eq (by decide) (fun factor hfactor => ?_), Nat.one_mul]
  swap
  · obtain ⟨child, -, rfl⟩ := List.mem_map.1 hfactor
    exact child.mergeFactor_pos direction
  split_ifs with hprod
  · obtain ⟨planned, hpln, -⟩ := planSizeWeights_inline direction (mergeProduct direction children) hpaired
    dsimp only
    erw [hpln]
    cases planned with
    | none => rfl
    | some planned =>
      -- a plan for every child leaves no reason to keep them
      have hft : ∀ child ∈ children, (getPlainFlexWeight child.sizeWeight).isSome ∧
          ¬ child.ShareOverflows direction (mergeProduct direction children) := by
        intro child hch
        obtain ⟨weights, hws⟩ := planWeights_eq_some hpln _ (mem_zip_mergeFactor hch)
        exact not_shareOverflows_of_mergedWeights direction (div_mergeFactor_pos hch) hws
      rcases h with hall | ⟨child, hch, hpl⟩ | hover | ⟨child, hch, hover⟩
      · refine absurd (List.all_eq_true.2 ?_) hk
        intro factor hfactor
        obtain ⟨child, hch, rfl⟩ := List.mem_map.1 hfactor
        exact beq_iff_eq.2 (hall child hch)
      · simpa [hpl] using (hft child hch).1
      · exact absurd hprod (Nat.not_le.2 hover)
      · exact absurd hover (hft child hch).2
  · rfl

theorem NormalizedChild.inlineChild_of_kept
    (hk : child.mergeFactor direction = 1) : child.inlineChild direction product =
      [{ child with sizeWeight := .fromPrimaryConstraint (.flex (getFlexShare child.sizeWeight * product)) }] :=
  if_pos hk

theorem NormalizedChild.inlineChild_of_split {nested : SplitNode LayoutNode} (hmg : child.mergeFactor direction ≠ 1)
    (hno : child.layoutNode = .split nested) : child.inlineChild direction product =
      (nested.children.zip nested.weights).map fun (childNode, wt) =>
        ⟨childNode, .fromPrimaryConstraint (.flex (getFlexShare wt * getFlexShare child.sizeWeight *
          (product / child.mergeFactor direction))), child.originalChildIndex⟩ := by
  rw [inlineChild, if_neg hmg, hno]

theorem zip_map_weights (children : List LayoutNode) (weights : List SizeWeight) (rescale : SizeWeight → SizeWeight) :
    children.zip ((children.zip weights).map fun slot => rescale slot.2) =
      (children.zip weights).map fun slot => (slot.1, rescale slot.2) := by
  induction children generalizing weights with
  | nil => rfl
  | cons child children ih =>
    cases weights with
    | nil => rfl
    | cons weight weights => rw [zip_cons_cons, map_cons, map_cons, zip_cons_cons, ih]

theorem planWeights_inlineChild (direction : SplitDirection) (product : Nat)
    (hpaired : ∀ child ∈ children, child.layoutNode.WeightsPaired)
    (hpl : ∀ child ∈ children, (getPlainFlexWeight child.sizeWeight).isSome)
    (hscale : ∀ child ∈ children, 0 < product / child.mergeFactor direction)
    (hft : ∀ child ∈ children, ¬ child.ShareOverflows direction product) :
    ∃ planned, planSizeWeights product (children.zip (children.map fun child =>
        (computeMergeableWeightSum direction child).getD 1)) = some (some planned) ∧
      inlinePlannedChildren ((children.zip (children.map fun child =>
        (computeMergeableWeightSum direction child).getD 1)).zip planned) =
        some (children.flatMap (·.inlineChild direction product)) := by
  induction children with
  | nil => exact ⟨[], rfl, rfl⟩
  | cons child children ih =>
    obtain ⟨planned, hpln, hinline⟩ := ih (fun other h => hpaired other (by simp [h]))
      (fun other h => hpl other (by simp [h])) (fun other h => hscale other (by simp [h]))
      (fun other h => hft other (by simp [h]))
    have hws := mergedWeights_eq direction (hpaired child (by simp)) (hpl child (by simp))
      (hscale child (by simp)) (hft child (by simp))
    refine ⟨(child.inlineChild direction product).map (·.sizeWeight) :: planned, ?_, ?_⟩
    · rw [map_cons, zip_cons_cons, planSizeWeights,
        show (computeMergeableWeightSum direction child).getD 1 = child.mergeFactor direction from rfl, hws, hpln]
      rfl
    · rw [map_cons, zip_cons_cons, zip_cons_cons, inlinePlannedChildren, hinline]
      rw [show (computeMergeableWeightSum direction child).getD 1 = child.mergeFactor direction from rfl]
      rw [flatMap_cons]
      by_cases hk : child.mergeFactor direction = 1
      · rw [inlineChild_of_kept hk]
        simp [hk]
      · obtain ⟨nested, hno, -, -, -⟩ := mergeFactor_ne_one hk
        rw [inlineChild_of_split hk hno]
        simp only [hk, if_false, hno, bind, Option.bind, List.map_map, Function.comp_def]
        rw [zip_map_weights nested.children nested.weights fun wt => .fromPrimaryConstraint (.flex
          (getFlexShare wt * getFlexShare child.sizeWeight * (product / child.mergeFactor direction))), List.map_map]
        rfl

theorem mergeSameDirection_of_not_isSettled (hpaired : ∀ child ∈ children, child.layoutNode.WeightsPaired)
    (h : ¬ IsSettled direction children) :
    mergeSameDirection direction children =
      some (children.flatMap (·.inlineChild direction (mergeProduct direction children))) := by
  obtain ⟨hmg, hr⟩ := not_or.1 h
  obtain ⟨hpl, hover⟩ := not_or.1 hr
  obtain ⟨hprod, hft⟩ := not_or.1 hover
  unfold mergeSameDirection
  simp only
  rw [if_neg ?_, mergeWeightProduct_eq (by decide) fun factor hfactor => ?_, Nat.one_mul]
  · rw [show (children.map fun child => (computeMergeableWeightSum direction child).getD 1).prod =
      mergeProduct direction children from rfl, if_pos (Nat.not_lt.1 hprod)]
    obtain ⟨planned, hpln, hinline⟩ := planWeights_inlineChild direction (mergeProduct direction children) hpaired
      (fun child hch => isSome_iff_ne_none.2 fun hnone => hpl ⟨child, hch, hnone⟩)
      (fun child hch => div_mergeFactor_pos hch) (fun child hch hshare => hft ⟨child, hch, hshare⟩)
    simp only [hpln, hinline]
  · obtain ⟨child, -, rfl⟩ := List.mem_map.1 hfactor
    exact child.mergeFactor_pos direction
  · intro hall
    refine hmg fun child hch => ?_
    exact beq_iff_eq.1 (List.all_eq_true.1 hall _ (List.mem_map_of_mem hch))

/-! ### A merge is settled -/

/-- The children of a split as they stand in a second pass, up to their index. -/
def SplitNode.listNormalizedChildren (splitNode : SplitNode LayoutNode) : List NormalizedChild :=
  (splitNode.children.zip splitNode.weights).map fun (childNode, weight) => ⟨childNode, weight, 0⟩

/-- The parent's product is a multiple of the product of each list that went up into it. -/
theorem mergeProduct_flatMap_le (direction : SplitDirection) (contribute : NormalizedChild → List NormalizedChild)
    (hch : child ∈ children) :
    mergeProduct direction (contribute child) ≤ mergeProduct direction (children.flatMap contribute) := by
  have hdvd : mergeProduct direction (contribute child) ∣ mergeProduct direction (children.flatMap contribute) := by
    unfold mergeProduct
    rw [map_flatMap, List.flatMap, prod_flatten]
    exact dvd_prod (List.mem_map.2 ⟨_, List.mem_map_of_mem hch, rfl⟩)
  exact Nat.le_of_dvd (mergeProduct_pos ..) hdvd

/-- A share that left its range leaves it again when it and the product only grew. -/
theorem NormalizedChild.ShareOverflows.mono {largerProduct : Nat} {other : NormalizedChild}
    (h : child.ShareOverflows direction product) (hprod : product ≤ largerProduct)
    (hno : other.layoutNode = child.layoutNode) (hfactor : other.mergeFactor direction = child.mergeFactor direction)
    (hshare : getFlexShare child.sizeWeight ≤ getFlexShare other.sizeWeight) :
    other.ShareOverflows direction largerProduct := by
  rcases h with ⟨hone, hover⟩ | ⟨hmg, nested, hinn, wt, hwt, hover⟩
  · exact .inl ⟨hfactor.trans hone, hover.trans_le (Nat.mul_le_mul hshare hprod)⟩
  · refine .inr ⟨hfactor ▸ hmg, nested, hno.trans hinn, wt, hwt, hover.trans_le ?_⟩
    rw [hfactor]
    exact Nat.mul_le_mul (Nat.mul_le_mul_left _ hshare) (Nat.div_le_div_right hprod)

/-- The child of a merged split with the share it gets in the parent. -/
def NormalizedChild.rescaleInner (direction : SplitDirection) (product : Nat) (child inner : NormalizedChild) :
    NormalizedChild :=
  ⟨inner.layoutNode, .fromPrimaryConstraint (.flex (getFlexShare inner.sizeWeight * getFlexShare child.sizeWeight *
    (product / child.mergeFactor direction))), child.originalChildIndex⟩

section

variable {direction : SplitDirection} {child : NormalizedChild} {nested : SplitNode LayoutNode}

theorem NormalizedChild.inlineChild_eq_map (product : Nat) (hmg : child.mergeFactor direction ≠ 1)
    (hno : child.layoutNode = .split nested) : child.inlineChild direction product =
      nested.listNormalizedChildren.map (child.rescaleInner direction product) := by
  rw [inlineChild_of_split hmg hno, SplitNode.listNormalizedChildren, List.map_map]
  rfl

/-- The children that go up keep their factors: they had plain shares and get plain shares. -/
theorem NormalizedChild.mergeFactor_rescaleInner (product : Nat) (hmg : child.mergeFactor direction ≠ 1)
    (hno : child.layoutNode = .split nested) {inner : NormalizedChild} (hinn : inner ∈ nested.listNormalizedChildren) :
    (child.rescaleInner direction product inner).mergeFactor direction = inner.mergeFactor direction := by
  refine mergeFactor_congr direction rfl ?_
  obtain ⟨merged, hmergedNode, -, -, hpl⟩ := mergeFactor_ne_one hmg
  obtain rfl : nested = merged := LayoutNode.split.inj (hno.symm.trans hmergedNode)
  obtain ⟨⟨childNode, wt⟩, hslot, rfl⟩ := List.mem_map.1 hinn
  rw [hpl wt (of_mem_zip hslot).2, rescaleInner, getPlainFlexWeight_flex]
  rfl

/-- A split whose own children could not be merged for a share out of range blocks the merge of its parent. -/
theorem mergeOverflows_flatMap {children : List NormalizedChild} (hch : child ∈ children)
    (hmg : child.mergeFactor direction ≠ 1) (hno : child.layoutNode = .split nested)
    (hshare : 0 < getFlexShare child.sizeWeight) (h : MergeOverflows direction nested.listNormalizedChildren) :
    MergeOverflows direction (children.flatMap (·.inlineChild direction (mergeProduct direction children))) := by
  set product := mergeProduct direction children with hprod
  have hinline := inlineChild_eq_map product hmg hno
  have hle : mergeProduct direction nested.listNormalizedChildren ≤
      mergeProduct direction (children.flatMap (·.inlineChild direction product)) := by
    refine le_trans (le_of_eq ?_) (mergeProduct_flatMap_le direction (·.inlineChild direction product) hch)
    rw [hinline, mergeProduct, mergeProduct, List.map_map]
    congr 1
    exact map_congr_left fun inner hinn =>
      (mergeFactor_rescaleInner product hmg hno hinn).symm
  rcases h with hover | ⟨inner, hinn, hover⟩
  · exact .inl (hover.trans_le hle)
  · refine .inr ⟨child.rescaleInner direction product inner, ?_, hover.mono hle rfl
      (mergeFactor_rescaleInner product hmg hno hinn) ?_⟩
    · refine mem_flatMap.2 ⟨child, hch, ?_⟩
      rw [hinline]
      exact List.mem_map_of_mem hinn
    · rw [rescaleInner, getFlexShare_flex]
      have hscale : 0 < product / child.mergeFactor direction := div_mergeFactor_pos hch
      exact (Nat.le_mul_of_pos_right _ hshare).trans (Nat.le_mul_of_pos_right _ hscale)

end

/-- **A merge leaves nothing to merge**: when the split children of a list are settled themselves, the merged list
is. -/
theorem isSettled_flatMap_inlineChild
    (hsettled : ∀ child ∈ children, ∀ nested, child.layoutNode = .split nested →
      nested.direction = direction → IsSettled direction nested.listNormalizedChildren)
    (hshares : ∀ child ∈ children, (getPlainFlexWeight child.sizeWeight).isSome → 0 < getFlexShare child.sizeWeight)
    (h : ¬ IsSettled direction children) :
    IsSettled direction (children.flatMap (·.inlineChild direction (mergeProduct direction children))) := by
  have hpl : ∀ child ∈ children, (getPlainFlexWeight child.sizeWeight).isSome := fun child hch =>
    isSome_iff_ne_none.2 fun hnone => h (.inr (.inl ⟨child, hch, hnone⟩))
  by_cases hover : ∃ child ∈ children, child.mergeFactor direction ≠ 1 ∧ ∃ nested,
      child.layoutNode = .split nested ∧ MergeOverflows direction nested.listNormalizedChildren
  · obtain ⟨child, hch, hmg, nested, hno, hover⟩ := hover
    exact .inr (.inr (mergeOverflows_flatMap hch hmg hno (hshares child hch (hpl child hch)) hover))
  · refine .inl fun merged hm => ?_
    obtain ⟨child, hch, hinlined⟩ := mem_flatMap.1 hm
    by_cases hk : child.mergeFactor direction = 1
    · rw [inlineChild_of_kept hk, mem_singleton] at hinlined
      subst hinlined
      rw [← hk]
      refine mergeFactor_congr direction rfl ?_
      rw [hpl child hch, getPlainFlexWeight_flex]
      rfl
    · obtain ⟨nested, hno, hdir, -, hinnerPlain⟩ := mergeFactor_ne_one hk
      rw [inlineChild_eq_map _ hk hno] at hinlined
      obtain ⟨inner, hinn, rfl⟩ := List.mem_map.1 hinlined
      rw [mergeFactor_rescaleInner _ hk hno hinn]
      rcases hsettled child hch nested hno hdir with hall | ⟨other, ho, hnone⟩ | hinnerOver
      · exact hall inner hinn
      · obtain ⟨⟨childNode, wt⟩, hslot, rfl⟩ := List.mem_map.1 ho
        simpa [hnone] using hinnerPlain wt (of_mem_zip hslot).2
      · exact absurd ⟨child, hch, hk, nested, hno, hinnerOver⟩ hover

end Koshi.Layout
