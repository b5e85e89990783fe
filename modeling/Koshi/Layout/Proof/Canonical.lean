import Mathlib.Tactic
import Koshi.Layout.Proof.Merge

/-!
# Normalization gives a canonical tree

A normalized tree has no split of fewer than two children, weights paired with the children and in range, and a
same-direction split nested in another only where the merge rule leaves it there. Such a tree is a fixed point of
normalization.
-/

namespace Koshi.Layout

open Koshi.Core Base List Option NormalizedChild

variable {dir : SplitDirection} {children : List NormalizedChild} {livePaneIds : List PaneId}

/-! ### Canonical trees -/

/-- A weight in its valid ranges. -/
structure SizeWeight.IsClamped (weight : SizeWeight) : Prop where
  primary : match weight.primaryConstraint with
    | .flex flexWeight => 1 ≤ flexWeight
    | .percent percentValue => 1 ≤ percentValue ∧ percentValue ≤ 100
    | .fixed cellCount => 1 ≤ cellCount
    | .minimum cellCount => 1 ≤ cellCount
    | .preferred cellCount => 1 ≤ cellCount
  minimum : weight.minimumCellCount ≠ some 0
  preferred : weight.preferredCellCount ≠ some 0

/-- Why a split stays nested in a same-direction split: a weight involved is no plain flex share, or merging would
overflow the inner sum, the product of the sums, or a share. -/
def SplitNode.KeepsNested (splitNode inner : SplitNode LayoutNode) : Prop :=
  (∃ weight ∈ splitNode.weights, getPlainFlexWeight weight = none) ∨
  (∃ weight ∈ inner.weights, getPlainFlexWeight weight = none) ∨
  u32Max < (inner.weights.map getFlexShare).sum ∨
  MergeOverflows splitNode.direction splitNode.listNormalizedChildren

/-- A tree in canonical shape. -/
inductive LayoutNode.IsCanonical : LayoutNode → Prop
  | pane (paneId : PaneId) : IsCanonical (.pane paneId)
  | split (splitNode : SplitNode LayoutNode) (twoChildren : 2 ≤ splitNode.children.length)
      (lengths : splitNode.weights.length = splitNode.children.length)
      (clamped : ∀ weight ∈ splitNode.weights, weight.IsClamped)
      (active : if splitNode.direction = .stacked then splitNode.activeChildIndex < splitNode.children.length
        else splitNode.activeChildIndex = 0)
      (nested : splitNode.direction ≠ .stacked → ∀ inner, .split inner ∈ splitNode.children →
        inner.direction = splitNode.direction → splitNode.KeepsNested inner)
      (children : ∀ child ∈ splitNode.children, IsCanonical child) : IsCanonical (.split splitNode)

/-- A tree that normalization leaves alone: `IsCanonical` with the merge rule as the pass applies it. -/
inductive LayoutNode.IsNormal : LayoutNode → Prop
  | pane (paneId : PaneId) : IsNormal (.pane paneId)
  | split (splitNode : SplitNode LayoutNode) (twoChildren : 2 ≤ splitNode.children.length)
      (lengths : splitNode.weights.length = splitNode.children.length)
      (clamped : ∀ weight ∈ splitNode.weights, weight.IsClamped)
      (active : if splitNode.direction = .stacked then splitNode.activeChildIndex < splitNode.children.length
        else splitNode.activeChildIndex = 0)
      (settled : splitNode.direction ≠ .stacked → IsSettled splitNode.direction splitNode.listNormalizedChildren)
      (children : ∀ child ∈ splitNode.children, IsNormal child) : IsNormal (.split splitNode)

/-! ### Weights -/

theorem isClamped_canonicalizeWeight (wt : SizeWeight) : (canonicalizeSizeWeight wt).IsClamped := by
  obtain ⟨primary, minimum, preferred, resizeDelta⟩ := wt
  refine ⟨?_, ?_, ?_⟩
  · obtain (_ | _) | percentValue | (_ | _) | (_ | _) | (_ | _) := primary <;>
      simp only [canonicalizeSizeWeight] <;> omega
  · cases minimum <;> simp [canonicalizeSizeWeight, Option.filter, Nat.pos_iff_ne_zero]
  · cases preferred <;> simp [canonicalizeSizeWeight, Option.filter, Nat.pos_iff_ne_zero]

theorem canonicalizeWeight_of_isClamped {weight : SizeWeight} (h : weight.IsClamped) :
    canonicalizeSizeWeight weight = weight := by
  obtain ⟨primary, minimum, preferred, resizeDelta⟩ := weight
  obtain ⟨hprimary, hmin, hpref⟩ := h
  have hoverlay : ∀ {cellCount : Option Nat}, cellCount ≠ some 0 → cellCount.filter (· > 0) = cellCount := by
    rintro (_ | _ | cellCount) hc
    · rfl
    · exact absurd rfl hc
    · simp
  rw [canonicalizeSizeWeight, hoverlay hmin, hoverlay hpref]
  obtain (_ | _) | percentValue | (_ | _) | (_ | _) | (_ | _) := primary <;> simp at hprimary ⊢
  omega

theorem SizeWeight.IsClamped.getFlexShare_pos {weight : SizeWeight} (h : weight.IsClamped)
    (hpl : (getPlainFlexWeight weight).isSome) : 0 < getFlexShare weight := by
  obtain ⟨primary, minimum, preferred, resizeDelta⟩ := weight
  have hprimary := h.primary
  rw [getFlexShare]
  cases primary with
  | flex flexWeight =>
    simp only [getPlainFlexWeight] at hpl ⊢
    split_ifs at hpl ⊢ with hoverlays
    · exact hprimary
    · simp at hpl
  | _ => simp [getPlainFlexWeight] at hpl

theorem isClamped_flex {flexWeightShare : Nat} (h : 0 < flexWeightShare) :
    (SizeWeight.fromPrimaryConstraint (.flex flexWeightShare)).IsClamped :=
  ⟨h, by simp [SizeWeight.fromPrimaryConstraint], by simp [SizeWeight.fromPrimaryConstraint]⟩

theorem sumPlainFlexWeights_eq {total : Nat} {weights : List SizeWeight}
    (hpl : ∀ wt ∈ weights, (getPlainFlexWeight wt).isSome) (hsum : total + (weights.map getFlexShare).sum ≤ u32Max) :
    sumPlainFlexWeights total weights = some (total + (weights.map getFlexShare).sum) := by
  induction weights generalizing total with
  | nil => rfl
  | cons wt weights ih =>
    rw [map_cons, sum_cons] at hsum ⊢
    rw [sumPlainFlexWeights, getPlainFlexWeight_eq_some (hpl wt (by simp))]
    simp only
    rw [if_pos (by omega), ih (fun other h => hpl other (by simp [h])) (by omega), Nat.add_assoc]

/-! ### Normal trees -/

namespace LayoutNode.IsNormal

variable {splitNode : SplitNode LayoutNode}

theorem weightsPaired {nd : LayoutNode} (h : nd.IsNormal) : nd.WeightsPaired := by
  induction h with
  | pane paneId => exact .pane paneId
  | split splitNode _ lengths _ _ _ _ ih => exact .split splitNode lengths ih

section

variable (h : (LayoutNode.split splitNode).IsNormal)

include h

theorem children_ne_nil : splitNode.children ≠ [] := by
  cases h with
  | split _ twoChildren _ _ _ _ _ =>
    rintro hnil
    simp [hnil] at twoChildren

theorem two_le_sum (hpl : ∀ wt ∈ splitNode.weights, (getPlainFlexWeight wt).isSome) :
    2 ≤ (splitNode.weights.map getFlexShare).sum := by
  cases h with
  | split _ twoChildren lengths clamped _ _ _ =>
    have hlen := length_le_sum_of_one_le (splitNode.weights.map getFlexShare) (by
      intro share hshare
      obtain ⟨wt, hwt, rfl⟩ := List.mem_map.1 hshare
      exact (clamped wt hwt).getFlexShare_pos (hpl wt hwt))
    rw [length_map] at hlen
    omega

theorem keepsNested {nested : SplitNode LayoutNode} (hdirectional : splitNode.direction ≠ .stacked)
    (hm : .split nested ∈ splitNode.children)
    (hdir : nested.direction = splitNode.direction) : splitNode.KeepsNested nested := by
  cases h with
  | split _ _ lengths _ _ settled children =>
    have hinn := children _ hm
    rw [← map_fst_zip (le_of_eq lengths.symm)] at hm
    obtain ⟨⟨childNode, wt⟩, hslot, rfl⟩ := List.mem_map.1 hm
    have hch : (⟨.split nested, wt, 0⟩ : NormalizedChild) ∈ splitNode.listNormalizedChildren :=
      List.mem_map.2 ⟨_, hslot, rfl⟩
    rcases settled hdirectional with hk | ⟨child, ho, hnone⟩ | hover
    · have hk := hk _ hch
      by_cases hwt : getPlainFlexWeight wt = none
      · exact .inl ⟨wt, (of_mem_zip hslot).2, hwt⟩
      by_cases hinnerPlain : ∀ inner ∈ nested.weights, (getPlainFlexWeight inner).isSome
      · refine .inr (.inr (.inl (Nat.not_le.1 fun hsum => ?_)))
        -- the sum of two or more shares is at least two, so the split would merge
        have htwo := hinn.two_le_sum hinnerPlain
        have hsumEq := @sumPlainFlexWeights_eq 0 _ hinnerPlain (by omega)
        rw [Nat.zero_add] at hsumEq
        obtain ⟨share, hshare⟩ := ne_none_iff_exists'.1 hwt
        simp only [mergeFactor, computeMergeableWeightSum, hdir, hshare, hsumEq] at hk
        rw [if_neg (by simpa using hinn.children_ne_nil), if_pos (by omega), getD_some] at hk
        omega
      · obtain ⟨inner, hmemInner, hnone⟩ : ∃ inner ∈ nested.weights, getPlainFlexWeight inner = none := by
          simpa using hinnerPlain
        exact .inr (.inl ⟨inner, hmemInner, hnone⟩)
    · obtain ⟨⟨childNode, wt⟩, hslot, rfl⟩ := List.mem_map.1 ho
      exact .inl ⟨wt, (of_mem_zip hslot).2, hnone⟩
    · exact .inr (.inr (.inr hover))

end

theorem isCanonical {nd : LayoutNode} (h : nd.IsNormal) : nd.IsCanonical := by
  induction h with
  | pane paneId => exact .pane paneId
  | split splitNode twoChildren lengths clamped active settled children ih =>
    exact .split splitNode twoChildren lengths clamped active
      (fun hdir inner => (IsNormal.split splitNode twoChildren lengths clamped active settled
        children).keepsNested hdir) ih

end LayoutNode.IsNormal

/-! ### The pass -/

/-- What every surviving child brings to its split. -/
structure NormalizedChild.IsNormal (child : NormalizedChild) : Prop where
  node : child.layoutNode.IsNormal
  clamped : child.sizeWeight.IsClamped

theorem isNormal_of_mem_inlineChild {child inlined : NormalizedChild} (hch : child ∈ children)
    (hnormal : child.IsNormal) (hpl : (getPlainFlexWeight child.sizeWeight).isSome)
    (h : inlined ∈ child.inlineChild dir (mergeProduct dir children)) : inlined.IsNormal := by
  have hshare := hnormal.clamped.getFlexShare_pos hpl
  by_cases hk : child.mergeFactor dir = 1
  · rw [inlineChild_of_kept hk, mem_singleton] at h
    subst h
    exact ⟨hnormal.node, isClamped_flex (Nat.mul_pos hshare (mergeProduct_pos ..))⟩
  · obtain ⟨inner, hno, -, -, hinnerPlain⟩ := mergeFactor_ne_one hk
    have hsp := hnormal.node
    rw [hno] at hsp
    cases hsp with
    | split _ _ _ clamped _ _ innerNormal =>
      rw [inlineChild_of_split hk hno] at h
      obtain ⟨⟨childNode, wt⟩, hslot, rfl⟩ := List.mem_map.1 h
      obtain ⟨hmemNode, hmemWeight⟩ := of_mem_zip hslot
      refine ⟨innerNormal childNode hmemNode, isClamped_flex ?_⟩
      exact Nat.mul_pos (Nat.mul_pos ((clamped wt hmemWeight).getFlexShare_pos (hinnerPlain wt hmemWeight))
        hshare) (div_mergeFactor_pos hch)

theorem inlineChild_ne_nil {product : Nat} {child : NormalizedChild}
    (hnormal : child.IsNormal) : child.inlineChild dir product ≠ [] := by
  by_cases hk : child.mergeFactor dir = 1
  · rw [inlineChild_of_kept hk]
    simp
  · obtain ⟨inner, hno, -, -, -⟩ := mergeFactor_ne_one hk
    have hsp := hnormal.node
    rw [hno] at hsp
    cases hsp with
    | split _ twoChildren lengths _ _ _ _ =>
      rw [inlineChild_of_split hk hno, Ne, map_eq_nil_iff, ← length_eq_zero_iff, length_zip]
      omega

theorem mergeSameDirection_isNormal (hdirectional : dir ≠ .stacked) (hnormal : ∀ child ∈ children, child.IsNormal) :
    ∃ mergedChildren, mergeSameDirection dir children = some mergedChildren ∧
      IsSettled dir mergedChildren ∧ (children ≠ [] → mergedChildren ≠ []) ∧
      ∀ child ∈ mergedChildren, child.IsNormal := by
  have hpaired : ∀ child ∈ children, child.layoutNode.WeightsPaired := fun child hch =>
    (hnormal child hch).node.weightsPaired
  by_cases hsettled : IsSettled dir children
  · exact ⟨children, mergeSameDirection_of_isSettled hpaired hsettled, hsettled, id, hnormal⟩
  · refine ⟨_, mergeSameDirection_of_not_isSettled hpaired hsettled, ?_, ?_, ?_⟩
    · refine isSettled_flatMap_inlineChild ?_ (fun child hch => (hnormal child hch).clamped.getFlexShare_pos) hsettled
      intro child hch inner hno hdir
      have hsp := (hnormal child hch).node
      rw [hno] at hsp
      cases hsp with
      | split _ _ _ _ _ settled _ => exact hdir ▸ settled (hdir ▸ hdirectional)
    · intro hne hnil
      obtain ⟨child, hch⟩ := exists_mem_of_ne_nil children hne
      exact inlineChild_ne_nil (hnormal child hch) (flatMap_eq_nil_iff.1 hnil child hch)
    · intro inlined hm
      obtain ⟨child, hch, hinlined⟩ := mem_flatMap.1 hm
      refine isNormal_of_mem_inlineChild hch (hnormal child hch) ?_ hinlined
      exact isSome_iff_ne_none.2 fun hnone => hsettled (.inr (.inl ⟨child, hch, hnone⟩))

/-- The child without the index it had in the original split. -/
def NormalizedChild.forgetIndex (child : NormalizedChild) : NormalizedChild := { child with originalChildIndex := 0 }

theorem isSettled_forgetIndex (dir : SplitDirection) (children : List NormalizedChild) :
    IsSettled dir (children.map forgetIndex) ↔ IsSettled dir children := by
  have hprod : mergeProduct dir (children.map forgetIndex) = mergeProduct dir children := by
    rw [mergeProduct, List.map_map]
    rfl
  unfold IsSettled MergeOverflows
  rw [hprod]
  simp only [List.mem_map, forall_exists_index, and_imp, forall_apply_eq_imp_iff₂, exists_exists_and_eq_and]
  rfl

theorem listNormalizedChildren_map (dir : SplitDirection) (children : List NormalizedChild) (active : Nat) :
    SplitNode.listNormalizedChildren ⟨dir, children.map (·.layoutNode), children.map (·.sizeWeight),
      active⟩ = children.map forgetIndex := by
  rw [SplitNode.listNormalizedChildren, zip_map', List.map_map]
  rfl

theorem buildNormalizedSplit_isNormal {active : Nat} (hnormal : ∀ child ∈ children, child.IsNormal)
    {layoutNode : LayoutNode}
    (h : buildNormalizedSplit dir active children = some (some layoutNode)) : layoutNode.IsNormal := by
  unfold buildNormalizedSplit at h
  split_ifs at h with hem
  · simp at h
  have hpos : ∀ index, children.findIdx? (·.originalChildIndex ≥ active) = some index →
      index < children.length := fun index hidx => (List.findIdx?_eq_some_iff_getElem.1 hidx).1
  obtain ⟨kept, hk, hsettled, hnonempty, hkeptNormal, hlen⟩ : ∃ kept,
      (if dir = .stacked then some children else mergeSameDirection dir children) = some kept ∧
      (dir ≠ .stacked → IsSettled dir kept) ∧ kept ≠ [] ∧
      (∀ child ∈ kept, child.IsNormal) ∧ (dir = .stacked → kept = children) := by
    by_cases hsk : dir = .stacked
    · exact ⟨children, if_pos hsk, fun hne => absurd hsk hne, hem, hnormal, fun _ => rfl⟩
    · obtain ⟨mergedChildren, hmg, hsettled, hnonempty, hmergedNormal⟩ :=
        mergeSameDirection_isNormal hsk hnormal
      exact ⟨mergedChildren, by rw [if_neg hsk, hmg], fun _ => hsettled, hnonempty hem, hmergedNormal,
        fun hne => absurd hne hsk⟩
  simp only at h
  rw [hk] at h
  match kept, hnonempty with
  | [child], _ =>
    obtain rfl := Option.some.inj (Option.some.inj h)
    exact (hkeptNormal child (by simp)).node
  | first :: second :: others, _ =>
    obtain rfl := Option.some.inj (Option.some.inj h)
    refine .split _ (by simp) (by simp) ?_ ?_ ?_ ?_
    · intro weight hwt
      obtain ⟨child, hch, rfl⟩ := List.mem_map.1 hwt
      exact (hkeptNormal child hch).clamped
    · simp only [length_map]
      split_ifs with hsk
      · rw [hlen hsk]
        cases hfo : children.findIdx? (·.originalChildIndex ≥ active) with
        | some index => exact hpos index hfo
        | none => exact Nat.sub_lt (length_pos_iff.2 hem) Nat.one_pos
      · rfl
    · intro hdir
      rw [listNormalizedChildren_map]
      exact (isSettled_forgetIndex dir _).2 (hsettled hdir)
    · intro node hno
      obtain ⟨child, hch, rfl⟩ := List.mem_map.1 hno
      exact (hkeptNormal child hch).node

theorem normalizeChildren_isNormal {weights : List SizeWeight} {place : Nat}
    {children : List LayoutNode} (hcs : ∀ child ∈ children, ∀ nd,
      normalizeLayoutTree livePaneIds child = some (some nd) → nd.IsNormal)
    {norm : List NormalizedChild} (h : normalizeChildren livePaneIds weights place children = some norm) :
    ∀ child ∈ norm, child.IsNormal := by
  induction children generalizing place norm with
  | nil =>
    obtain rfl := Option.some.inj h
    simp
  | cons child children ih =>
    have ih := @ih (place + 1) fun other ho => hcs other (mem_cons_of_mem _ ho)
    rw [normalizeChildren] at h
    cases hch : normalizeLayoutTree livePaneIds child with
    | none => simp [hch] at h
    | some result =>
      cases result with
      | none =>
        simp only [hch] at h
        exact ih h
      | some nd =>
        simp only [hch, map_eq_some_iff] at h
        obtain ⟨others, hothers, rfl⟩ := h
        rintro other (_ | ⟨_, ho⟩)
        · exact ⟨hcs child (by simp) nd hch, isClamped_canonicalizeWeight _⟩
        · exact ih hothers other ho

theorem normalizeTree_isNormal (livePaneIds : List PaneId) (t : LayoutNode) :
    ∀ nd, normalizeLayoutTree livePaneIds t = some (some nd) → nd.IsNormal := by
  induction t with
  | pane paneId =>
    intro nd h
    rw [normalizeLayoutTree] at h
    split_ifs at h
    · obtain rfl := Option.some.inj (Option.some.inj h)
      exact .pane paneId
    · simp at h
  | split splitNode ih =>
    intro nd h
    obtain ⟨dir, children, weights, active⟩ := splitNode
    rw [normalizeLayoutTree] at h
    cases hcs : normalizeChildren livePaneIds weights 0 children with
    | none => simp [hcs] at h
    | some norm =>
      simp only [hcs] at h
      exact buildNormalizedSplit_isNormal (normalizeChildren_isNormal ih hcs) h

/-! ### A second pass -/

/-- The children of a second pass: the first pass's children with their canonical weights, each at its own index. -/
def listIndexedChildren (weights : List SizeWeight) (place : Nat) (children : List LayoutNode) : List NormalizedChild :=
  (children.zipIdx place).map fun (child, index) =>
    ⟨child, canonicalizeSizeWeight (weights.getD index .default), index⟩

theorem normalizeChildren_of_fixed (weights : List SizeWeight) (place : Nat) {children : List LayoutNode}
    (hfixed : ∀ child ∈ children, normalizeLayoutTree livePaneIds child = some (some child)) :
    normalizeChildren livePaneIds weights place children = some (listIndexedChildren weights place children) := by
  induction children generalizing place with
  | nil => rfl
  | cons child children ih =>
    rw [normalizeChildren, hfixed child (by simp)]
    simp only
    rw [ih (place + 1) fun other ho => hfixed other (mem_cons_of_mem _ ho)]
    rfl

section

variable {weights : List SizeWeight} {children : List LayoutNode}

theorem map_layoutNode_listIndexedChildren :
    (listIndexedChildren weights 0 children).map (·.layoutNode) = children := by
  rw [listIndexedChildren, List.map_map]
  exact zipIdx_map_fst ..

theorem map_sizeWeight_listIndexedChildren (lengths : weights.length = children.length)
    (clamped : ∀ weight ∈ weights, weight.IsClamped) :
    (listIndexedChildren weights 0 children).map (·.sizeWeight) = weights := by
  rw [listIndexedChildren, List.map_map]
  refine ext_getElem (by simp [lengths]) fun index hidx hwt => ?_
  simp only [getElem_map, getElem_zipIdx, Function.comp_apply, Nat.zero_add,
    getD_eq_getElem?_getD, List.getElem?_eq_getElem hwt, getD_some]
  exact canonicalizeWeight_of_isClamped (clamped _ (getElem_mem hwt))

theorem findIdx?_listIndexedChildren {active : Nat} (hact : active < children.length) :
    (listIndexedChildren weights 0 children).findIdx? (·.originalChildIndex ≥ active) = some active := by
  rw [List.findIdx?_eq_some_iff_getElem]
  refine ⟨by simpa [listIndexedChildren] using hact, by simp [listIndexedChildren], fun index hidx => ?_⟩
  simpa [listIndexedChildren] using hidx

end

theorem LayoutNode.IsNormal.normalizeLayoutTree_eq {t : LayoutNode} (h : t.IsNormal)
    (hlive : ∀ paneId ∈ t.listLeafPaneIds, livePaneIds.contains paneId = true) :
    normalizeLayoutTree livePaneIds t = some (some t) := by
  induction h with
  | pane paneId =>
    rw [normalizeLayoutTree, if_pos (hlive paneId (by simp))]
  | split splitNode twoChildren lengths clamped active settled childrenNormal ih =>
    obtain ⟨dir, children, weights, activeChildIndex⟩ := splitNode
    rw [LayoutNode.listLeafPaneIds_split] at hlive
    have hfixed : ∀ child ∈ children, normalizeLayoutTree livePaneIds child = some (some child) := fun child hch =>
      ih child hch fun paneId hpa => hlive paneId (mem_flatMap.2 ⟨child, hch, hpa⟩)
    have hnodes : (listIndexedChildren weights 0 children).map (·.layoutNode) = children :=
      map_layoutNode_listIndexedChildren
    have hws := map_sizeWeight_listIndexedChildren lengths clamped
    have hforget := listNormalizedChildren_map dir (listIndexedChildren weights 0 children) activeChildIndex
    rw [hnodes, hws] at hforget
    have hk : (if dir = .stacked then some (listIndexedChildren weights 0 children)
        else mergeSameDirection dir (listIndexedChildren weights 0 children)) =
        some (listIndexedChildren weights 0 children) := by
      split_ifs with hsk
      · rfl
      · refine mergeSameDirection_of_isSettled (fun child hch => ?_)
          ((isSettled_forgetIndex dir _).1 (hforget ▸ settled hsk))
        exact (childrenNormal _ (hnodes ▸ List.mem_map_of_mem hch)).weightsPaired
    have hact : (if dir = .stacked then
        ((listIndexedChildren weights 0 children).findIdx? (·.originalChildIndex ≥ activeChildIndex)).getD
          ((listIndexedChildren weights 0 children).length - 1)
        else 0) = activeChildIndex := by
      simp only at active
      split_ifs at active ⊢ with hsk
      · rw [findIdx?_listIndexedChildren active, getD_some]
      · exact active.symm
    have hlen : 2 ≤ (listIndexedChildren weights 0 children).length := by
      rw [← length_map, hnodes]
      exact twoChildren
    rw [normalizeLayoutTree, normalizeChildren_of_fixed weights 0 hfixed]
    simp only [buildNormalizedSplit]
    rw [if_neg (by intro hnil; simp [hnil] at hlen), hk, hact]
    generalize listIndexedChildren weights 0 children = indexedChildren at hnodes hws hlen
    rcases indexedChildren with _ | ⟨first, _ | ⟨second, others⟩⟩
    · simp at hlen
    · simp at hlen
    · simp only [hnodes, hws]

/-- **Normalization gives a canonical tree.** It gives no tree exactly when no leaf is live, and otherwise a canonical
tree with the live leaves in order, which a second pass returns as it is. -/
theorem normalizeLayoutTree_canonical (livePaneIds : List PaneId) (tree : LayoutNode) :
    ∃ result, normalizeLayoutTree livePaneIds tree = some result ∧
      (result = none ↔ ∀ paneId ∈ tree.listLeafPaneIds, paneId ∉ livePaneIds) ∧
      ∀ normalized, result = some normalized →
        normalized.listLeafPaneIds = tree.listLeafPaneIds.filter (livePaneIds.contains ·) ∧
        normalized.IsCanonical ∧
        normalizeLayoutTree livePaneIds normalized = some (some normalized) := by
  obtain ⟨result, runs, leaves, leaf, -⟩ := normalizeTree_normalizes livePaneIds tree
  refine ⟨result, runs, ?_, ?_⟩
  · constructor
    · rintro rfl paneId hpane hlive
      have hmem : paneId ∈ tree.listLeafPaneIds.filter (livePaneIds.contains ·) :=
        mem_filter.2 ⟨hpane, contains_iff_mem.2 hlive⟩
      rw [← leaves] at hmem
      simp at hmem
    · intro hdead
      cases result with
      | none => rfl
      | some normalized =>
        refine absurd ?_ (leaf normalized rfl)
        have hfilter : tree.listLeafPaneIds.filter (livePaneIds.contains ·) = [] := by
          simpa using hdead
        exact leaves.trans hfilter
  · rintro normalized rfl
    have hleaves : normalized.listLeafPaneIds = tree.listLeafPaneIds.filter (livePaneIds.contains ·) := leaves
    have hnormal := normalizeTree_isNormal livePaneIds tree normalized runs
    refine ⟨hleaves, hnormal.isCanonical, hnormal.normalizeLayoutTree_eq fun paneId hpane => ?_⟩
    rw [hleaves] at hpane
    exact (mem_filter.1 hpane).2

def rowInFixedSlot : SplitNode LayoutNode where
  direction := .horizontal
  children := [.split ⟨.horizontal, [.pane ⟨1⟩, .pane ⟨2⟩], [.default, .default], 0⟩, .pane ⟨3⟩]
  weights := [.fromPrimaryConstraint (.fixed 10), .default]
  activeChildIndex := 0

def stackInStack : SplitNode LayoutNode where
  direction := .stacked
  children := [.split ⟨.stacked, [.pane ⟨1⟩, .pane ⟨2⟩], [.default, .default], 0⟩, .pane ⟨3⟩]
  weights := [.default, .default]
  activeChildIndex := 0

/-- Normalization leaves the tree as it is, a split nested in one of its own direction, though merging overflows
nothing. -/
structure StaysNested (splitNode : SplitNode LayoutNode) : Prop where
  normalize : normalizeLayoutTree [⟨1⟩, ⟨2⟩, ⟨3⟩] (.split splitNode) = some (some (.split splitNode))
  nested : ∃ inner, .split inner ∈ splitNode.children ∧ inner.direction = splitNode.direction ∧
    (inner.weights.map getFlexShare).sum ≤ u32Max
  fits : ¬ MergeOverflows splitNode.direction splitNode.listNormalizedChildren

/-- Normalization keeps the row and the stack nested: a slot of a fixed size is no flex share, and a stack never
merges. -/
theorem normalizeLayoutTree_keeps_nested : StaysNested rowInFixedSlot ∧ StaysNested stackInStack := by
  have hchildren : ∀ splitNode ∈ [rowInFixedSlot, stackInStack], ∀ child ∈ splitNode.listNormalizedChildren,
      child = ⟨.split ⟨splitNode.direction, [.pane ⟨1⟩, .pane ⟨2⟩], [.default, .default], 0⟩,
        splitNode.weights.headD .default, 0⟩ ∨ child = ⟨.pane ⟨3⟩, .default, 0⟩ := by
    intro splitNode hmem
    rcases mem_pair.1 hmem with rfl | rfl <;> simp [SplitNode.listNormalizedChildren, rowInFixedSlot, stackInStack]
  constructor
  · refine ⟨rfl, ⟨_, mem_cons_self, rfl, by decide⟩, ?_⟩
    rintro (hover | ⟨child, hchild, hover⟩)
    · exact absurd hover (by decide)
    · rcases hchildren rowInFixedSlot (by simp) child hchild with rfl | rfl <;>
        obtain ⟨-, hover⟩ | ⟨hmerged, -⟩ := hover
      · exact absurd hover (by decide)
      · exact absurd rfl hmerged
      · exact absurd hover (by decide)
      · exact absurd rfl hmerged
  · refine ⟨rfl, ⟨_, mem_cons_self, rfl, by decide⟩, ?_⟩
    rintro (hover | ⟨child, hchild, hover⟩)
    · exact absurd hover (by decide)
    · rcases hchildren stackInStack (by simp) child hchild with rfl | rfl <;>
        obtain ⟨hkept, hover⟩ | ⟨hmerged, inner, hnode, weight, hweight, hover⟩ := hover
      · exact absurd hkept (by decide)
      · obtain rfl := LayoutNode.split.inj hnode
        obtain rfl : weight = .default := by simpa using hweight
        exact absurd hover (by decide)
      · exact absurd hover (by decide)
      · exact absurd rfl hmerged

end Koshi.Layout
