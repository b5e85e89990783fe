import Mathlib.Tactic
import Koshi.Layout.Normalize

/-!
# Normalization keeps the live leaves

Normalization never panics, gives no tree exactly when no leaf is live, and otherwise a tree whose leaves are
the live leaves in the same order. Merging needs that every normalized split pairs its weights with its
children, which is carried along as `WeightsPaired`.
-/

namespace Koshi.Layout

open Koshi.Core Base List Option LayoutNode

variable (dir : SplitDirection) {normalized : List NormalizedChild}

inductive LayoutNode.WeightsPaired : LayoutNode → Prop
  | pane (paneId : PaneId) : WeightsPaired (.pane paneId)
  | split (splitNode : SplitNode LayoutNode) (lengths : splitNode.weights.length = splitNode.children.length)
      (children : ∀ child ∈ splitNode.children, WeightsPaired child) : WeightsPaired (.split splitNode)

def listNormalizedLeafPaneIds (normalized : List NormalizedChild) : List PaneId :=
  normalized.flatMap (·.layoutNode.listLeafPaneIds)

/-! ### Merging -/

theorem sumPlainFlexWeights_isSome {total : Nat} {weights : List SizeWeight}
    (hsum : (sumPlainFlexWeights total weights).isSome) : ∀ wt ∈ weights, (getPlainFlexWeight wt).isSome := by
  induction weights generalizing total with
  | nil => simp
  | cons wt weights ih =>
    rw [sumPlainFlexWeights] at hsum
    cases hwt : getPlainFlexWeight wt with
    | none =>
      rw [hwt] at hsum
      simp at hsum
    | some share =>
      rw [hwt] at hsum
      simp only at hsum
      split at hsum
      · intro other hm
        rcases mem_cons.1 hm with rfl | hm
        · rw [hwt]
          rfl
        · exact ih hsum other hm
      · simp at hsum

theorem mergeableWeightSum_some {dir : SplitDirection} {newChild : NormalizedChild} {mergeFactor : Nat}
    (hsum : computeMergeableWeightSum dir newChild = some mergeFactor) :
    ∃ inner, newChild.layoutNode = .split inner ∧
      (getPlainFlexWeight newChild.sizeWeight).isSome ∧
      ∀ weight ∈ inner.weights, (getPlainFlexWeight weight).isSome := by
  unfold computeMergeableWeightSum at hsum
  split at hsum
  · simp at hsum
  · next inner hno =>
    split at hsum
    · simp at hsum
    · split at hsum
      · simp at hsum
      · next hslot =>
        split at hsum
        · simp at hsum
        · next hinn =>
          refine ⟨inner, hno, by rw [hslot]; rfl, ?_⟩
          exact @sumPlainFlexWeights_isSome 0 _ (by rw [hinn]; rfl)

theorem inlinedWeights_spec (slotShare mergeScale : Nat) {weights : List SizeWeight}
    (hpl : ∀ wt ∈ weights, (getPlainFlexWeight wt).isSome) :
    ∃ planned, computeInlinedSizeWeights slotShare mergeScale weights = some planned ∧
      ∀ sizeWeights ∈ planned, sizeWeights.length = weights.length := by
  induction weights with
  | nil => exact ⟨some [], rfl, by simp⟩
  | cons wt weights ih =>
    obtain ⟨planned, hpln, hlen⟩ := ih fun other h => hpl other (by simp [h])
    obtain ⟨share, hshare⟩ := isSome_iff_exists.1 (hpl wt (by simp))
    rw [computeInlinedSizeWeights, hshare]
    simp only
    split
    · split
      · exact ⟨none, rfl, by simp⟩
      · next sizeWeight _ =>
        refine ⟨planned.map (sizeWeight :: ·), by rw [hpln]; rfl, ?_⟩
        intro sizeWeights hm
        obtain ⟨others, hothers, rfl⟩ := map_eq_some_iff.1 hm
        rw [length_cons, length_cons, hlen others hothers]
    · exact ⟨none, rfl, by simp⟩

theorem mergedWeights_spec (newChild : NormalizedChild) (mergeScale : Nat) :
    ∃ planned, computeMergedSizeWeights newChild
        ((computeMergeableWeightSum dir newChild).getD 1) mergeScale = some planned ∧
      ∀ weights ∈ planned, (computeMergeableWeightSum dir newChild).getD 1 = 1 ∧ weights.length = 1 ∨
        (computeMergeableWeightSum dir newChild).getD 1 ≠ 1 ∧ ∃ inner,
          newChild.layoutNode = .split inner ∧ weights.length = inner.weights.length := by
  unfold computeMergedSizeWeights
  by_cases hk : (computeMergeableWeightSum dir newChild).getD 1 = 1
  · rw [if_pos hk]
    refine ⟨_, rfl, ?_⟩
    intro weights hm
    obtain ⟨sizeWeight, -, rfl⟩ := map_eq_some_iff.1 hm
    exact Or.inl ⟨hk, rfl⟩
  · rw [if_neg hk]
    cases hsum : computeMergeableWeightSum dir newChild with
    | none =>
      rw [hsum] at hk
      exact absurd rfl hk
    | some mergeFactor =>
      obtain ⟨inner, hno, hslot, hinn⟩ := mergeableWeightSum_some hsum
      obtain ⟨share, hshare⟩ := isSome_iff_exists.1 hslot
      obtain ⟨planned, hpln, hlen⟩ := inlinedWeights_spec share mergeScale hinn
      rw [hno, hshare]
      rw [hsum] at hk
      exact ⟨planned, hpln, fun weights hm =>
        Or.inr ⟨hk, inner, rfl, hlen weights hm⟩⟩

theorem flatMap_zip_leaves (children : List LayoutNode) (weights : List SizeWeight) (childIndex : Nat)
    (hlen : weights.length = children.length) :
    listNormalizedLeafPaneIds ((children.zip weights).map fun (childNode, sizeWeight) =>
      ⟨childNode, sizeWeight, childIndex⟩) = children.flatMap listLeafPaneIds := by
  induction children generalizing weights with
  | nil => rfl
  | cons child children ih =>
    obtain _ | ⟨sizeWeight, weights⟩ := weights
    · simp at hlen
    · have ih := ih weights (by simpa using hlen)
      simp only [listNormalizedLeafPaneIds, zip_cons_cons, map_cons, flatMap_cons] at ih ⊢
      rw [ih]

theorem planSizeWeights_inline (mergeProduct : Nat) (hpaired : ∀ child ∈ normalized, child.layoutNode.WeightsPaired) :
    ∃ planned, planSizeWeights mergeProduct (normalized.zip (normalized.map fun child =>
        (computeMergeableWeightSum dir child).getD 1)) = some planned ∧
      ∀ planned' ∈ planned, ∃ merged,
        inlinePlannedChildren ((normalized.zip (normalized.map fun child =>
          (computeMergeableWeightSum dir child).getD 1)).zip planned') = some merged ∧
        listNormalizedLeafPaneIds merged = listNormalizedLeafPaneIds normalized ∧
        ∀ child ∈ merged, child.layoutNode.WeightsPaired := by
  induction normalized with
  | nil => exact ⟨some [], rfl, fun planned' _ => ⟨[], rfl, rfl, by simp⟩⟩
  | cons child children ih =>
    obtain ⟨planned, hpln, hinline⟩ := ih fun other h => hpaired other (by simp [h])
    obtain ⟨weights, hws, hshape⟩ := mergedWeights_spec dir child
      (mergeProduct / (computeMergeableWeightSum dir child).getD 1)
    rw [map_cons, zip_cons_cons, planSizeWeights, hws]
    cases weights with
    | none => exact ⟨none, rfl, by simp⟩
    | some sizeWeights =>
      refine ⟨planned.map (sizeWeights :: ·), by rw [hpln]; rfl, ?_⟩
      intro planned' hm
      obtain ⟨others, hothers, rfl⟩ := map_eq_some_iff.1 hm
      obtain ⟨merged, hmg, hlv, hmergedPaired⟩ := hinline others hothers
      rw [zip_cons_cons, inlinePlannedChildren, hmg]
      rcases hshape sizeWeights rfl with ⟨hk, hone⟩ | ⟨hinlined, nested, hno, hlen⟩
      · obtain ⟨sizeWeight, rfl⟩ := length_eq_one_iff.1 hone
        simp only [hk, if_true, List.getElem?_cons_zero]
        refine ⟨[{ child with sizeWeight }] ++ merged, rfl, ?_, ?_⟩
        · simp only [listNormalizedLeafPaneIds, flatMap_append, flatMap_cons, flatMap_nil, append_nil] at hlv ⊢
          rw [hlv]
        · intro other ho
          rw [singleton_append, mem_cons] at ho
          rcases ho with rfl | ho
          · exact hpaired child (by simp)
          · exact hmergedPaired other ho
      · obtain ⟨hch, hinnerPaired⟩ : nested.weights.length = nested.children.length ∧
            ∀ inner ∈ nested.children, inner.WeightsPaired := by
          have hchildPaired := hpaired child (by simp)
          rw [hno] at hchildPaired
          cases hchildPaired with
          | split _ lengths children => exact ⟨lengths, children⟩
        simp only [hinlined, if_false, hno]
        refine ⟨_, rfl, ?_, ?_⟩
        · have hinn := flatMap_zip_leaves nested.children sizeWeights child.originalChildIndex (by omega)
          simp only [listNormalizedLeafPaneIds, flatMap_append, flatMap_cons, hno, listLeafPaneIds_split] at hinn hlv ⊢
          rw [hinn, hlv]
        · intro other ho
          rcases mem_append.1 ho with ho | ho
          · obtain ⟨⟨childNode, sizeWeight⟩, hpr, rfl⟩ := List.mem_map.1 ho
            exact hinnerPaired childNode (of_mem_zip hpr).1
          · exact hmergedPaired other ho

theorem mergeSameDirection_leaves (hpaired : ∀ child ∈ normalized, child.layoutNode.WeightsPaired) :
    ∃ merged, mergeSameDirection dir normalized = some merged ∧
      listNormalizedLeafPaneIds merged = listNormalizedLeafPaneIds normalized ∧
      ∀ child ∈ merged, child.layoutNode.WeightsPaired := by
  unfold mergeSameDirection
  simp only
  split
  · exact ⟨normalized, rfl, rfl, hpaired⟩
  · split
    · exact ⟨normalized, rfl, rfl, hpaired⟩
    · next mergeProduct _ =>
      obtain ⟨planned, hpln, hinline⟩ := planSizeWeights_inline dir mergeProduct hpaired
      rw [hpln]
      cases planned with
      | none => exact ⟨normalized, rfl, rfl, hpaired⟩
      | some planned' => exact hinline planned' rfl

/-! ### The pass -/

theorem buildNormalizedSplit_leaves (active : Nat) (hpaired : ∀ child ∈ normalized, child.layoutNode.WeightsPaired) :
    ∃ result, buildNormalizedSplit dir active normalized = some result ∧
      (result = none → normalized = []) ∧
      ∀ nd ∈ result, nd.listLeafPaneIds = listNormalizedLeafPaneIds normalized ∧ nd.WeightsPaired := by
  obtain ⟨kept, hk, hlv, hkeptPaired⟩ : ∃ kept,
      (if dir = .stacked then some normalized else mergeSameDirection dir normalized) = some kept ∧
      listNormalizedLeafPaneIds kept = listNormalizedLeafPaneIds normalized ∧
      ∀ child ∈ kept, child.layoutNode.WeightsPaired := by
    by_cases hsk : dir = .stacked
    · exact ⟨normalized, by simp [hsk], rfl, hpaired⟩
    · simpa [hsk] using mergeSameDirection_leaves dir hpaired
  unfold buildNormalizedSplit
  by_cases hem : normalized = []
  · exact ⟨none, by simp [hem], fun _ => hem, by simp⟩
  · rw [if_neg hem]
    simp only
    rw [hk]
    split
    · next child heq => simp at heq
    · next child heq =>
      obtain rfl : kept = [child] := Option.some.inj heq
      refine ⟨some child.layoutNode, rfl, by simp, ?_⟩
      rintro nd ⟨⟩
      refine ⟨?_, hkeptPaired child (by simp)⟩
      rw [← hlv]
      simp [listNormalizedLeafPaneIds]
    · next children _ heq =>
      obtain rfl : kept = children := Option.some.inj heq
      refine ⟨_, rfl, by simp, ?_⟩
      rintro nd ⟨⟩
      refine ⟨?_, .split _ (by simp) ?_⟩
      · rw [listLeafPaneIds_split, ← hlv]
        simp [listNormalizedLeafPaneIds, flatMap_map]
      · intro child hm
        obtain ⟨src, hsr, rfl⟩ := List.mem_map.1 hm
        exact hkeptPaired src hsr

/-- What normalization gives back for one tree. -/
structure Normalizes (live : List PaneId) (tree : LayoutNode) (result : Option LayoutNode) : Prop where
  runs : normalizeLayoutTree live tree = some result
  leaves : (result.map listLeafPaneIds).getD [] = tree.listLeafPaneIds.filter (live.contains ·)
  leaf : ∀ layoutNode ∈ result, layoutNode.listLeafPaneIds ≠ []
  paired : ∀ layoutNode ∈ result, layoutNode.WeightsPaired

theorem normalizeChildren_leaves {live : List PaneId} (weights : List SizeWeight) (index : Nat)
    {children : List LayoutNode} (hcs : ∀ child ∈ children, ∃ result, Normalizes live child result) :
    ∃ normalized, normalizeChildren live weights index children = some normalized ∧
      listNormalizedLeafPaneIds normalized = (children.flatMap listLeafPaneIds).filter (live.contains ·) ∧
      ∀ child ∈ normalized, child.layoutNode.listLeafPaneIds ≠ [] ∧ child.layoutNode.WeightsPaired := by
  induction children generalizing index with
  | nil => exact ⟨[], rfl, rfl, by simp⟩
  | cons child children ih =>
    obtain ⟨normalized, hnormalized, hlv, hk⟩ := ih (index + 1) fun other h => hcs other (by simp [h])
    obtain ⟨result, hres⟩ := hcs child (by simp)
    have hresultLeaves := hres.leaves
    rw [normalizeChildren, hres.runs]
    rw [flatMap_cons, filter_append, ← hlv, ← hresultLeaves]
    cases result with
    | none => exact ⟨normalized, hnormalized, by simp, hk⟩
    | some layoutNode =>
      refine ⟨_, by simp only [hnormalized, map_some]; rfl, by simp [listNormalizedLeafPaneIds], ?_⟩
      intro other ho
      rcases mem_cons.1 ho with rfl | ho
      · exact ⟨hres.leaf layoutNode rfl, hres.paired layoutNode rfl⟩
      · exact hk other ho

/-- **Normalization keeps the live leaves in order**, and gives no tree exactly when none is live. -/
theorem normalizeTree_normalizes (live : List PaneId) (t : LayoutNode) : ∃ result, Normalizes live t result := by
  induction t with
  | pane paneId =>
    cases hlive : live.contains paneId with
    | true =>
      refine ⟨some (.pane paneId), by simp only [normalizeLayoutTree, hlive, if_true], ?_, by simp, ?_⟩
      · rw [listLeafPaneIds_pane, filter_singleton, hlive]
        rfl
      · rintro layoutNode ⟨⟩
        exact .pane paneId
    | false =>
      refine ⟨none, by simp only [normalizeLayoutTree, hlive]; rfl, ?_, by simp, by simp⟩
      rw [listLeafPaneIds_pane, filter_singleton, hlive]
      rfl
  | split sp ih =>
    obtain ⟨dir, children, weights, active⟩ := sp
    obtain ⟨normalized, hnormalized, hlv, hk⟩ := normalizeChildren_leaves weights 0 ih
    obtain ⟨result, hres, hnone, hso⟩ := buildNormalizedSplit_leaves dir active fun child h => (hk child h).2
    refine ⟨result, by rw [normalizeLayoutTree, hnormalized]; exact hres, ?_, ?_, fun nd h => (hso nd h).2⟩
    · rw [listLeafPaneIds_split, ← hlv]
      cases result with
      | none =>
        rw [hnone rfl]
        rfl
      | some layoutNode => exact (hso layoutNode rfl).1
    · intro layoutNode hm
      rw [(hso layoutNode hm).1]
      -- a child that survives has a leaf, so the split has one
      intro hem
      have hall : ∀ child ∈ normalized, child.layoutNode.listLeafPaneIds = [] := by
        simpa [listNormalizedLeafPaneIds] using hem
      obtain ⟨child, hch⟩ : ∃ child, child ∈ normalized := by
        by_contra hnot
        have hnil : normalized = [] := eq_nil_iff_forall_not_mem.2 fun child h => hnot ⟨child, h⟩
        subst hnil
        simp only [buildNormalizedSplit, if_true, Option.some.injEq] at hres
        rw [← hres] at hm
        simp at hm
      exact (hk child hch).1 (hall child hch)

end Koshi.Layout
