import Mathlib.Tactic
import Koshi.Layout.Proof.Canonical
import Koshi.Layout.Proof.Edit

/-!
# The shares of the leaves

In a tree of plain flex weights a leaf owns a fraction of each axis: the product of the weight fractions of the splits
of that direction on its path. Normalization drops splits without a leaf, collapses splits of one child and merges
same-direction splits; none of it moves a share.
-/

namespace Koshi.Layout

open Koshi.Core Base List Option Function LayoutNode NormalizedChild

variable (axis : SplitDirection) {weights : List SizeWeight}

/-! ### Shares -/

def scaleShares (fraction : ℚ) (shares : List (PaneId × ℚ)) : List (PaneId × ℚ) :=
  shares.map fun share => (share.1, fraction * share.2)

abbrev ChildSlot := LayoutNode × SizeWeight

/-- The children of a split with their weights; a missing weight is the default share. -/
def SplitNode.listSlots (splits : SplitNode LayoutNode) : List ChildSlot :=
  splits.children.zipIdx.map fun (child, place) => (child, splits.weights.getD place .default)

def computeWeightFraction (axis dir : SplitDirection) (weights : List SizeWeight) (weight : SizeWeight) : ℚ :=
  if dir = axis then getFlexShare weight / ((weights.map getFlexShare).sum : Nat) else 1

namespace LayoutNode

mutual

def leafShares (axis : SplitDirection) : LayoutNode → List (PaneId × ℚ)
  | .pane paneId => [(paneId, 1)]
  | .split ⟨dir, children, weights, active⟩ =>
    let slots := SplitNode.listSlots ⟨dir, children, weights, active⟩
    childLeafShares axis dir (slots.map (·.2)) (slots.map (·.2)) children

def childLeafShares (axis dir : SplitDirection) (splitWeights : List SizeWeight) :
    List SizeWeight → List LayoutNode → List (PaneId × ℚ)
  | weight :: weights, child :: children =>
    scaleShares (computeWeightFraction axis dir splitWeights weight) (child.leafShares axis) ++
      childLeafShares axis dir splitWeights weights children
  | _, _ => []

end

mutual

/-- The tree without its splits that hold no leaf. -/
def dropLeafless : LayoutNode → LayoutNode
  | .pane paneId => .pane paneId
  | .split ⟨dir, children, weights, active⟩ =>
    let slots := dropLeaflessChildren weights 0 children
    .split ⟨dir, slots.map (·.1), slots.map (·.2), active⟩

def dropLeaflessChildren (weights : List SizeWeight) : Nat → List LayoutNode → List ChildSlot
  | _, [] => []
  | place, child :: children =>
    if child.listLeafPaneIds = [] then dropLeaflessChildren weights (place + 1) children
    else (child.dropLeafless, weights.getD place .default) :: dropLeaflessChildren weights (place + 1) children

end

end LayoutNode

/-- The shares of the leaves below `slots`, the children of a split of `direction` with their weights. -/
def slotShares (axis dir : SplitDirection) (slots : List ChildSlot) : List (PaneId × ℚ) :=
  slots.flatMap fun slot => scaleShares (computeWeightFraction axis dir (slots.map (·.2)) slot.2)
    (slot.1.leafShares axis)

theorem scaleShares_one (sh : List (PaneId × ℚ)) : scaleShares 1 sh = sh := by
  simp [scaleShares]

theorem scaleShares_scaleShares (fst snd : ℚ) (sh : List (PaneId × ℚ)) :
    scaleShares fst (scaleShares snd sh) = scaleShares (fst * snd) sh := by
  simp [scaleShares, comp_def, mul_assoc]

theorem scaleShares_flatMap {α : Type} (fraction : ℚ) (xs : List α) (sh : α → List (PaneId × ℚ)) :
    scaleShares fraction (xs.flatMap sh) = xs.flatMap fun item => scaleShares fraction (sh item) := by
  induction xs with
  | nil => rfl
  | cons item xs ih => rw [flatMap_cons, flatMap_cons, ← ih, scaleShares, map_append]; rfl

theorem childLeafShares_eq (axis dir : SplitDirection) (splitWeights : List SizeWeight) (slots : List ChildSlot) :
    childLeafShares axis dir splitWeights (slots.map (·.2)) (slots.map (·.1)) =
      slots.flatMap fun slot => scaleShares (computeWeightFraction axis dir splitWeights slot.2)
        (slot.1.leafShares axis) := by
  induction slots with
  | nil => rfl
  | cons slot slots ih =>
    rw [map_cons, map_cons, childLeafShares, ih, flatMap_cons]

variable (splits : SplitNode LayoutNode)

theorem map_fst_listSlots : splits.listSlots.map (·.1) = splits.children := by
  rw [SplitNode.listSlots, List.map_map]
  exact zipIdx_map_fst ..

theorem leafShares_split : (split splits).leafShares axis = slotShares axis splits.direction splits.listSlots := by
  obtain ⟨dir, children, weights, active⟩ := splits
  rw [slotShares, ← childLeafShares_eq, map_fst_listSlots]
  rfl

theorem listSlots_of_slots (dir : SplitDirection) (slots : List ChildSlot) (active : Nat) :
    SplitNode.listSlots ⟨dir, slots.map (·.1), slots.map (·.2), active⟩ = slots := by
  apply ext_getElem
  · simp [SplitNode.listSlots]
  · intro index hidx hslot
    simp only [SplitNode.listSlots, getElem_map, getElem_zipIdx, Nat.zero_add,
      getD_eq_getElem?_getD, List.getElem?_map, List.getElem?_eq_getElem hslot, map_some, getD_some]

theorem slotShares_congr (axis dir : SplitDirection) {slots otherSlots : List ChildSlot}
    (h : List.Forall₂ (fun slot other : ChildSlot => slot.2 = other.2 ∧
      slot.1.leafShares axis = other.1.leafShares axis) slots otherSlots) :
    slotShares axis dir slots = slotShares axis dir otherSlots := by
  have hws : slots.map (·.2) = otherSlots.map (·.2) := by
    induction h with
    | nil => rfl
    | cons hslot _ ih => rw [map_cons, map_cons, hslot.1, ih]
  rw [slotShares, slotShares, hws]
  clear hws
  generalize otherSlots.map (·.2) = splitWeights
  induction h with
  | nil => rfl
  | cons hslot _ ih => rw [flatMap_cons, flatMap_cons, hslot.1, hslot.2, ih]

/-! ### Plain flex weights -/

/-- A flex weight of at least one, with no overlay and no resize offset. -/
def SizeWeight.IsPlainShare (weight : SizeWeight) : Prop :=
  ∃ flexWeight, 1 ≤ flexWeight ∧ weight = .fromPrimaryConstraint (.flex flexWeight)

/-- Every weight of the tree is a plain flex weight of at least one. -/
inductive LayoutNode.HasPlainShares : LayoutNode → Prop
  | pane (paneId : PaneId) : HasPlainShares (.pane paneId)
  | split (splits : SplitNode LayoutNode) (weights : ∀ weight ∈ splits.weights, weight.IsPlainShare)
      (children : ∀ child ∈ splits.children, HasPlainShares child) : HasPlainShares (.split splits)

theorem isPlainShare_default : SizeWeight.default.IsPlainShare := ⟨1, Nat.le_refl 1, rfl⟩

theorem isPlainShare_getD (h : ∀ weight ∈ weights, weight.IsPlainShare) (place : Nat) :
    (weights.getD place .default).IsPlainShare := by
  rw [getD_eq_getElem?_getD]
  cases hg : weights[place]? with
  | none => exact isPlainShare_default
  | some weight => exact h weight (mem_of_getElem? hg)

namespace SizeWeight.IsPlainShare

variable {weight : SizeWeight} (h : weight.IsPlainShare)

include h

theorem getFlexShare_pos : 0 < getFlexShare weight := by
  obtain ⟨flexWeight, hpos, rfl⟩ := h
  rw [getFlexShare_flex]
  exact hpos

theorem canonicalizeWeight_eq : canonicalizeSizeWeight weight = weight := by
  obtain ⟨flexWeight, hpos, rfl⟩ := h
  exact canonicalizeWeight_of_isClamped (isClamped_flex hpos)

end SizeWeight.IsPlainShare

theorem sum_getFlexShare_pos (hne : weights ≠ [])
    (h : ∀ weight ∈ weights, weight.IsPlainShare) : 0 < (weights.map getFlexShare).sum := by
  obtain ⟨weight, hm⟩ := exists_mem_of_ne_nil _ hne
  have hle := single_le_sum (by simp) _ (List.mem_map_of_mem (f := getFlexShare) hm)
  have hpos := (h weight hm).getFlexShare_pos
  omega

/-! ### Merging moves no share -/

def NormalizedChild.slot (child : NormalizedChild) : ChildSlot := (child.layoutNode, child.sizeWeight)

structure NormalizedChild.IsPlain (child : NormalizedChild) : Prop where
  paired : child.layoutNode.WeightsPaired
  plain : child.layoutNode.HasPlainShares
  weight : child.sizeWeight.IsPlainShare

theorem NormalizedChild.mergeFactor_eq_sum {dir : SplitDirection} {child : NormalizedChild}
    {inner : SplitNode LayoutNode} (hmg : child.mergeFactor dir ≠ 1) (hno : child.layoutNode = .split inner) :
    child.mergeFactor dir = (inner.weights.map getFlexShare).sum := by
  unfold mergeFactor at hmg ⊢
  have hsums : ∀ {total : Nat} {weights : List SizeWeight} {sum : Nat}, sumPlainFlexWeights total weights = some sum →
      sum = total + (weights.map getFlexShare).sum := by
    intro total weights
    induction weights generalizing total with
    | nil =>
      intro sum hsum
      simpa [sumPlainFlexWeights] using hsum.symm
    | cons weight weights ih =>
      intro sum hsum
      rw [sumPlainFlexWeights] at hsum
      cases hpl : getPlainFlexWeight weight with
      | none => simp [hpl] at hsum
      | some share =>
        rw [hpl] at hsum
        dsimp only at hsum
        split_ifs at hsum
        rw [ih hsum, map_cons, sum_cons, getFlexShare, hpl, getD_some, Nat.add_assoc]
  cases hsum : computeMergeableWeightSum dir child with
  | none => simp [hsum] at hmg
  | some factor =>
    rw [getD_some]
    unfold computeMergeableWeightSum at hsum
    rw [hno] at hsum
    dsimp only at hsum
    split_ifs at hsum
    split at hsum
    · cases hsum
    · split at hsum
      · cases hsum
      · next hinn =>
        split_ifs at hsum
        rw [← Option.some.inj hsum, hsums hinn, Nat.zero_add]

section Merge

variable {dir : SplitDirection} {product : Nat} {child : NormalizedChild}

theorem sum_inlineChild (hpaired : child.layoutNode.WeightsPaired) (hdvd : child.mergeFactor dir ∣ product) :
    ((child.inlineChild dir product).map fun inner => getFlexShare inner.sizeWeight).sum =
      getFlexShare child.sizeWeight * product := by
  by_cases hk : child.mergeFactor dir = 1
  · rw [inlineChild_of_kept hk]
    simp [getFlexShare_flex]
  · obtain ⟨nested, hno, -, -, -⟩ := mergeFactor_ne_one hk
    have hlengths : nested.weights.length = nested.children.length := by
      rw [hno] at hpaired
      cases hpaired with
      | split _ lengths _ => exact lengths
    have hsum := mergeFactor_eq_sum hk hno
    have hws : (nested.children.zip nested.weights).map (·.2) = nested.weights := by
      rw [map_snd_zip]
      omega
    rw [inlineChild_of_split hk hno, List.map_map]
    simp only [comp_def, getFlexShare_flex]
    rw [show (fun slot : LayoutNode × SizeWeight => getFlexShare slot.2 * getFlexShare child.sizeWeight *
      (product / child.mergeFactor dir)) = (fun weight => getFlexShare weight * getFlexShare child.sizeWeight *
        (product / child.mergeFactor dir)) ∘ Prod.snd from rfl, ← List.map_map, hws, sum_map_mul_right,
      sum_map_mul_right, ← hsum]
    obtain ⟨scale, rfl⟩ := hdvd
    rw [Nat.mul_div_cancel_left _ (child.mergeFactor_pos dir)]
    ring

theorem inlineChild_shares (axis : SplitDirection) (hch : child.IsPlain) (hdvd : child.mergeFactor dir ∣ product)
    (hprod : 0 < product) {weights mergedWeights : List SizeWeight} (hpos : 0 < (weights.map getFlexShare).sum)
    (hmg : (mergedWeights.map getFlexShare).sum = (weights.map getFlexShare).sum * product) :
    ((child.inlineChild dir product).flatMap fun inner =>
      scaleShares (computeWeightFraction axis dir mergedWeights inner.sizeWeight) (inner.layoutNode.leafShares axis)) =
      scaleShares (computeWeightFraction axis dir weights child.sizeWeight) (child.layoutNode.leafShares axis) := by
  have htot : ((weights.map getFlexShare).sum : ℚ) ≠ 0 := by exact_mod_cast hpos.ne'
  have hscale : (product : ℚ) ≠ 0 := by exact_mod_cast hprod.ne'
  by_cases hk : child.mergeFactor dir = 1
  · rw [inlineChild_of_kept hk, flatMap_singleton]
    congr 1
    rw [computeWeightFraction, computeWeightFraction, hmg]
    split_ifs
    · rw [getFlexShare_flex]
      push_cast
      exact mul_div_mul_right _ _ hscale
    · rfl
  · obtain ⟨nested, hno, hdir, -, -⟩ := mergeFactor_ne_one hk
    have hlengths : nested.weights.length = nested.children.length := by
      have hpaired := hch.paired
      rw [hno] at hpaired
      cases hpaired with
      | split _ lengths _ => exact lengths
    have hsum := mergeFactor_eq_sum hk hno
    have hfactor : ((child.mergeFactor dir : Nat) : ℚ) ≠ 0 := by
      exact_mod_cast (child.mergeFactor_pos dir).ne'
    have hslots : nested.listSlots = nested.children.zip nested.weights := by
      have hf : (nested.children.zip nested.weights).map (·.1) = nested.children := by
        rw [map_fst_zip]
        omega
      have hse : (nested.children.zip nested.weights).map (·.2) = nested.weights := by
        rw [map_snd_zip]
        omega
      have := listSlots_of_slots nested.direction (nested.children.zip nested.weights) nested.activeChildIndex
      rwa [hf, hse] at this
    have hws : nested.listSlots.map (·.2) = nested.weights := by
      rw [hslots, map_snd_zip]
      omega
    rw [inlineChild_of_split hk hno, flatMap_map, hno, leafShares_split, slotShares,
      scaleShares_flatMap, hws, hslots, hdir]
    refine flatMap_congr fun slot _ => ?_
    rw [scaleShares_scaleShares]
    congr 1
    -- u·w·(P/m) over P·T is u/m times w/T
    rw [computeWeightFraction, computeWeightFraction, computeWeightFraction, hmg, ← hsum]
    split_ifs
    · rw [getFlexShare_flex]
      obtain ⟨scale, rfl⟩ := hdvd
      rw [Nat.mul_div_cancel_left _ (child.mergeFactor_pos dir)]
      have hscale' : (scale : ℚ) ≠ 0 := by
        intro hz
        apply hscale
        push_cast
        rw [hz, mul_zero]
      push_cast
      field_simp
    · rw [one_mul]

theorem isPlain_of_mem_inlineChild (hch : child.IsPlain) (hscale : 0 < product / child.mergeFactor dir)
    {inner : NormalizedChild} (hinn : inner ∈ child.inlineChild dir product) : inner.IsPlain := by
  by_cases hk : child.mergeFactor dir = 1
  · rw [inlineChild_of_kept hk, mem_singleton] at hinn
    rw [hk, Nat.div_one] at hscale
    rw [hinn]
    exact ⟨hch.paired, hch.plain, _, Nat.mul_pos hch.weight.getFlexShare_pos hscale, rfl⟩
  · obtain ⟨nested, hno, -, -, -⟩ := mergeFactor_ne_one hk
    rw [inlineChild_of_split hk hno] at hinn
    obtain ⟨⟨childNode, weight⟩, hslot, rfl⟩ := List.mem_map.1 hinn
    obtain ⟨hnodeMem, hweightMem⟩ := of_mem_zip hslot
    obtain ⟨hpaired, hpl, hwt⟩ := hch
    rw [hno] at hpaired hpl
    cases hpaired with
    | split _ _ hchildrenPaired =>
      cases hpl with
      | split _ hws hchildrenPlain =>
        exact ⟨hchildrenPaired _ hnodeMem, hchildrenPlain _ hnodeMem, _,
          Nat.mul_pos (Nat.mul_pos (hws _ hweightMem).getFlexShare_pos hwt.getFlexShare_pos) hscale, rfl⟩

end Merge

variable {children : List NormalizedChild}

/-- **Merging keeps every share**, and the weights plain. -/
theorem mergeSameDirection_shares (axis dir : SplitDirection) (hpl : ∀ child ∈ children, child.IsPlain) :
    ∃ mergedChildren, mergeSameDirection dir children = some mergedChildren ∧
      (∀ child ∈ mergedChildren, child.IsPlain) ∧
      slotShares axis dir (mergedChildren.map (·.slot)) = slotShares axis dir (children.map (·.slot)) := by
  by_cases hsettled : IsSettled dir children
  · exact ⟨children, mergeSameDirection_of_isSettled (fun child h => (hpl child h).paired) hsettled, hpl, rfl⟩
  refine ⟨_, mergeSameDirection_of_not_isSettled (fun child h => (hpl child h).paired) hsettled, ?_, ?_⟩
  · intro inner hinn
    obtain ⟨child, hch, hinn⟩ := mem_flatMap.1 hinn
    exact isPlain_of_mem_inlineChild (hpl child hch) (div_mergeFactor_pos hch) hinn
  · have hdvd : ∀ child ∈ children, child.mergeFactor dir ∣ mergeProduct dir children :=
      fun child hch => dvd_prod (List.mem_map_of_mem hch)
    have hpositive := mergeProduct_pos dir children
    generalize mergeProduct dir children = product at hdvd hpositive
    have hne : children ≠ [] := by
      rintro rfl
      exact hsettled (Or.inl (by simp))
    have hpos : 0 < (((children.map (·.slot)).map (·.2)).map getFlexShare).sum := by
      refine sum_getFlexShare_pos (by simpa using hne) fun weight hwt => ?_
      simp only [List.map_map, List.mem_map, comp_apply] at hwt
      obtain ⟨child, hch, rfl⟩ := hwt
      exact (hpl child hch).weight
    have hmg : ((((children.flatMap (·.inlineChild dir product)).map (·.slot)).map (·.2)).map
        getFlexShare).sum = (((children.map (·.slot)).map (·.2)).map getFlexShare).sum * product := by
      simp only [List.map_map, comp_def, slot]
      clear hsettled hne hpos
      induction children with
      | nil => simp
      | cons child children ih =>
        rw [flatMap_cons, map_append, sum_append, map_cons, sum_cons, Nat.add_mul,
          sum_inlineChild (hpl child (by simp)).paired (hdvd child (by simp)),
          ih (fun other h => hpl other (by simp [h])) (fun other h => hdvd other (by simp [h]))]
    simp only [slotShares, flatMap_map, flatMap_assoc]
    exact flatMap_congr fun child hch =>
      inlineChild_shares axis (hpl child hch) (hdvd child hch) hpositive hpos hmg

theorem buildNormalizedSplit_shares (axis dir : SplitDirection) (active : Nat) (hpl : ∀ child ∈ children, child.IsPlain)
    (hne : children ≠ []) :
    ∃ result, buildNormalizedSplit dir active children = some (some result) ∧
      result.WeightsPaired ∧ result.HasPlainShares ∧
      result.leafShares axis = slotShares axis dir (children.map (·.slot)) := by
  obtain ⟨merged, hmg, hmergedPlain, hshares⟩ : ∃ merged, (if dir = .stacked then some children else
      mergeSameDirection dir children) = some merged ∧ (∀ child ∈ merged, child.IsPlain) ∧
      slotShares axis dir (merged.map (·.slot)) = slotShares axis dir (children.map (·.slot)) := by
    split_ifs
    · exact ⟨children, rfl, hpl, rfl⟩
    · exact mergeSameDirection_shares axis dir hpl
  have hsp : ∀ active : Nat, (split ⟨dir, merged.map (·.layoutNode),
      merged.map (·.sizeWeight), active⟩).WeightsPaired ∧ (split ⟨dir,
      merged.map (·.layoutNode), merged.map (·.sizeWeight), active⟩).HasPlainShares ∧
      (split ⟨dir, merged.map (·.layoutNode), merged.map (·.sizeWeight),
        active⟩).leafShares axis = slotShares axis dir (children.map (·.slot)) := by
    intro active
    refine ⟨.split _ (by simp) ?_, .split _ ?_ ?_, ?_⟩
    · intro nd hno
      obtain ⟨child, hch, rfl⟩ := List.mem_map.1 hno
      exact (hmergedPlain child hch).paired
    · intro weight hwt
      obtain ⟨child, hch, rfl⟩ := List.mem_map.1 hwt
      exact (hmergedPlain child hch).weight
    · intro nd hno
      obtain ⟨child, hch, rfl⟩ := List.mem_map.1 hno
      exact (hmergedPlain child hch).plain
    · have hslots := listSlots_of_slots dir (merged.map (·.slot)) active
      rw [List.map_map, List.map_map] at hslots
      rw [leafShares_split, ← hshares]
      exact congrArg _ hslots
  simp only [buildNormalizedSplit]
  rw [if_neg hne, hmg]
  rcases merged with _ | ⟨child, _ | ⟨second, others⟩⟩
  · exact ⟨_, rfl, hsp _⟩
  · have hch := hmergedPlain child (by simp)
    refine ⟨_, rfl, hch.paired, hch.plain, ?_⟩
    rw [← hshares]
    have hpos : ((getFlexShare child.sizeWeight : Nat) : ℚ) ≠ 0 := by exact_mod_cast hch.weight.getFlexShare_pos.ne'
    have hwhole : computeWeightFraction axis dir [child.sizeWeight] child.sizeWeight = 1 := by
      rw [computeWeightFraction]
      split_ifs
      · simp [hpos]
      · rfl
    simp [slotShares, slot, hwhole, scaleShares_one]
  · exact ⟨_, rfl, hsp _⟩

/-! ### Normalization moves no share -/

/-- Normalizing the tree keeps the shares it has without its leafless splits. -/
def KeepsShares (axis : SplitDirection) (live : List PaneId) (tree : LayoutNode) : Prop :=
  ∃ result, normalizeLayoutTree live tree = some result ∧
    (result = none ↔ tree.listLeafPaneIds = []) ∧
    ∀ normal ∈ result, normal.WeightsPaired ∧ normal.HasPlainShares ∧
      normal.leafShares axis = tree.dropLeafless.leafShares axis

theorem normalizeChildren_shares {axis : SplitDirection} {live : List PaneId}
    (hws : ∀ weight ∈ weights, weight.IsPlainShare) {children : List LayoutNode}
    (hcs : ∀ child ∈ children, KeepsShares axis live child) (place : Nat) :
    ∃ norm, normalizeChildren live weights place children = some norm ∧
      (∀ child ∈ norm, child.IsPlain) ∧
      (norm = [] ↔ children.flatMap listLeafPaneIds = []) ∧
      List.Forall₂ (fun slot other : ChildSlot => slot.2 = other.2 ∧ slot.1.leafShares axis = other.1.leafShares axis)
        (norm.map (·.slot)) (dropLeaflessChildren weights place children) := by
  induction children generalizing place with
  | nil => exact ⟨[], rfl, by simp, by simp, by simp [dropLeaflessChildren]⟩
  | cons child children ih =>
    obtain ⟨norm, hresult, hpl, hem, hslots⟩ :=
      ih (fun other h => hcs other (mem_cons_of_mem _ h)) (place + 1)
    obtain ⟨result, hres, hnone, hk⟩ := hcs child mem_cons_self
    rw [normalizeChildren, hres, dropLeaflessChildren, flatMap_cons]
    cases result with
    | none =>
      have hleafless := hnone.1 rfl
      rw [if_pos hleafless, hleafless, nil_append]
      exact ⟨norm, hresult, hpl, hem, hslots⟩
    | some normalizedNode =>
      have hleaf : child.listLeafPaneIds ≠ [] := fun h => by cases hnone.2 h
      obtain ⟨hpaired, hnodePlain, hshares⟩ := hk normalizedNode rfl
      have hwt := isPlainShare_getD hws place
      rw [if_neg hleaf]
      refine ⟨_, by simp only [hresult, map_some]; rfl, ?_, ?_, ?_⟩
      · intro other ho
        rcases mem_cons.1 ho with rfl | ho
        · refine ⟨hpaired, hnodePlain, ?_⟩
          dsimp only
          rw [hwt.canonicalizeWeight_eq]
          exact hwt
        · exact hpl other ho
      · exact iff_of_false (by simp) fun h => hleaf (append_eq_nil_iff.1 h).1
      · exact .cons ⟨hwt.canonicalizeWeight_eq, hshares⟩ hslots

/-- **Normalization keeps every share** of a tree of plain flex weights whose leaves are all live. -/
theorem normalizeTree_shares {live : List PaneId} {t : LayoutNode} (hlive : ∀ paneId ∈ t.listLeafPaneIds, paneId ∈ live)
    (hpl : t.HasPlainShares) :
    KeepsShares axis live t := by
  induction hpl with
  | pane paneId =>
    refine ⟨some (.pane paneId), ?_, by simp, ?_⟩
    · rw [normalizeLayoutTree, if_pos (contains_iff_mem.2 (hlive paneId (by simp)))]
    · rintro normal ⟨⟩
      exact ⟨.pane paneId, .pane paneId, rfl⟩
  | split splits hws _ ih =>
    obtain ⟨dir, children, weights, active⟩ := splits
    rw [listLeafPaneIds_split] at hlive
    obtain ⟨norm, hresult, hchildPlain, hem, hslots⟩ := normalizeChildren_shares hws
      (fun child hch => ih child hch fun paneId hpa => hlive paneId (mem_flatMap.2 ⟨child, hch, hpa⟩)) 0
    rw [KeepsShares, normalizeLayoutTree, hresult, listLeafPaneIds_split]
    by_cases hnil : norm = []
    · refine ⟨none, by rw [hnil]; rfl, iff_of_true rfl (hem.1 hnil), ?_⟩
      rintro normal ⟨⟩
    · obtain ⟨result, hbuilt, hpaired, hnodePlain, hshares⟩ :=
        buildNormalizedSplit_shares axis dir active hchildPlain hnil
      refine ⟨some result, hbuilt, iff_of_false (by simp) fun h => hnil (hem.2 h), ?_⟩
      rintro normal ⟨⟩
      refine ⟨hpaired, hnodePlain, ?_⟩
      rw [hshares, slotShares_congr axis dir hslots, dropLeafless, leafShares_split]
      exact congrArg _ (listSlots_of_slots dir _ active).symm

theorem dropLeafless_shares {t : LayoutNode} (hgood : t.hasNoLeaflessSplit = true) :
    t.dropLeafless.leafShares axis = t.leafShares axis := by
  induction t with
  | pane paneId => rfl
  | split splits ih =>
    obtain ⟨dir, children, weights, active⟩ := splits
    have hcs := ((hasNoLeaflessSplit_split _).1 hgood).2
    have hslots : ∀ place, List.Forall₂ (fun slot other : ChildSlot => slot.2 = other.2 ∧
        slot.1.leafShares axis = other.1.leafShares axis) (dropLeaflessChildren weights place children)
        ((children.zipIdx place).map fun (child, place) => (child, weights.getD place .default)) := by
      clear hgood
      induction children with
      | nil => exact fun _ => .nil
      | cons child children ihChildren =>
        intro place
        rw [dropLeaflessChildren, if_neg (listLeafPaneIds_ne_nil (hcs child mem_cons_self)), zipIdx_cons, map_cons]
        exact .cons ⟨rfl, ih child mem_cons_self (hcs child mem_cons_self)⟩
          (ihChildren (fun other h => ih other (mem_cons_of_mem _ h)) (fun other h => hcs other (mem_cons_of_mem _ h))
            (place + 1))
    rw [dropLeafless, leafShares_split, leafShares_split,
      listSlots_of_slots dir (dropLeaflessChildren weights 0 children) active]
    exact slotShares_congr axis dir (hslots 0)

/-- **Normalization of a tree of live leaves with plain flex weights keeps every leaf's exact share of each axis**,
counted without the splits that hold no leaf; and where the rescaled weights would overflow, the children of a split
stay nested as they are. -/
theorem normalizeLayoutTree_keeps_shares (axis : SplitDirection) (livePaneIds : List PaneId) (layoutTree : LayoutNode)
    (hlive : ∀ paneId ∈ layoutTree.listLeafPaneIds, paneId ∈ livePaneIds) (hplain : layoutTree.HasPlainShares) :
    (∃ result, normalizeLayoutTree livePaneIds layoutTree = some result ∧
      (result = none ↔ layoutTree.listLeafPaneIds = []) ∧ ∀ normalized ∈ result,
        normalized.leafShares axis = layoutTree.dropLeafless.leafShares axis ∧
        (layoutTree.hasNoLeaflessSplit = true → normalized.leafShares axis = layoutTree.leafShares axis)) ∧
    ∀ splitNode, LayoutNode.Subnode (.split splitNode) layoutTree → ∀ results,
      normalizeChildren livePaneIds splitNode.weights 0 splitNode.children = some results →
      MergeOverflows splitNode.direction results →
      mergeSameDirection splitNode.direction results = some results := by
  constructor
  · obtain ⟨result, hresult, hnone, hkept⟩ := normalizeTree_shares axis hlive hplain
    refine ⟨result, hresult, hnone, fun normalized hmem => ?_⟩
    obtain ⟨-, -, hshares⟩ := hkept normalized hmem
    exact ⟨hshares, fun hgood => hshares.trans (dropLeafless_shares axis hgood)⟩
  · intro splitNode hsub results hnormalized hoverflows
    obtain ⟨children, hchildren, -, hpaired⟩ := normalizeChildren_leaves splitNode.weights 0
      fun child (_ : child ∈ splitNode.children) => normalizeTree_normalizes livePaneIds child
    obtain rfl := Option.some.inj (hnormalized.symm.trans hchildren)
    exact mergeSameDirection_of_isSettled (fun child hchild => (hpaired child hchild).2) (Or.inr (Or.inr hoverflows))

/-- A row in a row: the inner panes get a third and two thirds of their half. -/
theorem normalizeLayoutTree_keeps_shares_rowInRow :
    ∃ normalized, normalizeLayoutTree [⟨1⟩, ⟨2⟩, ⟨3⟩] (.split ⟨.horizontal, [.pane ⟨1⟩,
        .split ⟨.horizontal, [.pane ⟨2⟩, .pane ⟨3⟩], [.fromPrimaryConstraint (.flex 1),
          .fromPrimaryConstraint (.flex 2)], 0⟩], [.default, .default], 0⟩) = some (some normalized) ∧
      normalized.leafShares .horizontal = [(⟨1⟩, 1 / 2), (⟨2⟩, 1 / 6), (⟨3⟩, 1 / 3)] := by
  have hplain : (split ⟨.horizontal, [.pane ⟨1⟩, .split ⟨.horizontal, [.pane ⟨2⟩, .pane ⟨3⟩],
      [.fromPrimaryConstraint (.flex 1), .fromPrimaryConstraint (.flex 2)], 0⟩],
      [.default, .default], 0⟩).HasPlainShares := by
    refine .split _ ?_ ?_
    · intro weight hmem
      obtain rfl : weight = .default := by simpa using hmem
      exact isPlainShare_default
    · intro child hmem
      simp only [mem_cons, not_mem_nil, or_false] at hmem
      rcases hmem with rfl | rfl
      · exact .pane _
      · refine .split _ ?_ ?_
        · intro weight hmem
          simp only [mem_cons, not_mem_nil, or_false] at hmem
          rcases hmem with rfl | rfl
          · exact ⟨1, Nat.le_refl 1, rfl⟩
          · exact ⟨2, Nat.le_succ 1, rfl⟩
        · intro child hmem
          simp only [mem_cons, not_mem_nil, or_false] at hmem
          rcases hmem with rfl | rfl <;> exact .pane _
  obtain ⟨result, hresult, hnone, hshares⟩ := (normalizeLayoutTree_keeps_shares .horizontal
    [⟨1⟩, ⟨2⟩, ⟨3⟩] _ (by decide) hplain).1
  cases result with
  | none => exact absurd (hnone.1 rfl) (by decide)
  | some normalized =>
    refine ⟨normalized, hresult, ((hshares normalized rfl).2 (by decide)).trans ?_⟩
    decide +kernel

end Koshi.Layout
