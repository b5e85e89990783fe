import Mathlib.Tactic
import Koshi.Layout.Edit
import Koshi.Layout.Proof.Normalize

/-!
# What the edits do to the leaves

Removing a leaf erases its pane from the leaves and leaves every other node of the tree in place, shrunk by at
most that pane. Stacking adds the new panes to the leaves.
-/

namespace Koshi.Layout

open Koshi.Core List Option LayoutNode

variable {node layoutNode : LayoutNode} {path : List Nat}

/-! ### Removing a leaf -/

def PaneRemoval.Spec (paneId : PaneId) (leafIds : List PaneId) : PaneRemoval → Prop
  | .paneNotFound => paneId ∉ leafIds
  | .removed layoutNode => paneId ∈ leafIds ∧ layoutNode.listLeafPaneIds = leafIds.erase paneId
  | .subtreeEmpty => leafIds = [paneId]

def ChildRemoval.Spec (paneId : PaneId) (index : Nat) (children : List LayoutNode) : ChildRemoval → Prop
  | .paneNotFound => paneId ∉ children.flatMap listLeafPaneIds
  | .removed newChildren => paneId ∈ children.flatMap listLeafPaneIds ∧
      newChildren.flatMap listLeafPaneIds = (children.flatMap listLeafPaneIds).erase paneId
  | .childEmpty emptyIndex => ∃ before child after, children = before ++ child :: after ∧
      emptyIndex = index + before.length ∧ child.listLeafPaneIds = [paneId] ∧
      paneId ∉ before.flatMap listLeafPaneIds

theorem removeLeafInChildren_spec {paneId : PaneId} {children : List LayoutNode}
    (hcs : ∀ child ∈ children, (removeLeaf paneId child).Spec paneId child.listLeafPaneIds) (index : Nat) :
    (removeLeafInChildren paneId index children).Spec paneId index children := by
  induction children generalizing index with
  | nil => simp [removeLeafInChildren, ChildRemoval.Spec]
  | cons child children ih =>
    have hch := hcs child (by simp)
    have ih := ih (fun other h => hcs other (by simp [h])) (index + 1)
    rw [removeLeafInChildren]
    cases hrm : removeLeaf paneId child with
    | removed editedChild =>
      rw [hrm] at hch
      obtain ⟨hm, hlv⟩ := hch
      refine ⟨by simp [hm], ?_⟩
      rw [flatMap_cons, flatMap_cons, hlv, erase_append_left _ hm]
    | subtreeEmpty =>
      rw [hrm] at hch
      exact ⟨[], child, children, rfl, rfl, hch, by simp⟩
    | paneNotFound =>
      rw [hrm] at hch
      have hnot : paneId ∉ child.listLeafPaneIds := hch
      cases hr : removeLeafInChildren paneId (index + 1) children with
      | paneNotFound =>
        rw [hr] at ih
        have hrestNot : paneId ∉ children.flatMap listLeafPaneIds := ih
        simp only [ChildRemoval.Spec, flatMap_cons, mem_append, not_or]
        exact ⟨hnot, hrestNot⟩
      | removed newChildren =>
        rw [hr] at ih
        obtain ⟨hm, hlv⟩ := ih
        refine ⟨by rw [flatMap_cons]; exact mem_append_right _ hm, ?_⟩
        rw [flatMap_cons, flatMap_cons, hlv, erase_append_right _ hnot]
      | childEmpty emptyIndex =>
        rw [hr] at ih
        obtain ⟨before, emptied, after, hsp, hidx, hemptied, hb⟩ := ih
        refine ⟨child :: before, emptied, after, by rw [hsp]; rfl, ?_, hemptied, ?_⟩
        · rw [hidx, length_cons]
          omega
        · simp only [flatMap_cons, mem_append, not_or]
          exact ⟨hnot, hb⟩

variable (splits : SplitNode LayoutNode)

theorem dropEmptiedChild_eq {before after : List LayoutNode} {child : LayoutNode}
    (hcs : splits.children = before ++ child :: after) :
    dropEmptiedChild splits before.length = (if before ++ after = [] then .subtreeEmpty else
      .removed (.split (setActiveChildAfterRemoval { splits with
        children := before ++ after, weights := splits.weights.eraseIdx before.length } before.length))) := by
  have herase : splits.children.eraseIdx before.length = before ++ after := by
    rw [hcs, eraseIdx_append_of_length_le (Nat.le_refl _), Nat.sub_self]
    rfl
  simp only [dropEmptiedChild, herase]

theorem setActiveChildAfterRemoval_children (removedChildIndex : Nat) :
    (setActiveChildAfterRemoval splits removedChildIndex).children = splits.children := by
  unfold setActiveChildAfterRemoval
  simp only
  split <;> rfl

/-- **Removing a leaf erases its pane from the leaves.** -/
theorem removeLeaf_spec (paneId : PaneId) (layoutNode : LayoutNode) :
    (removeLeaf paneId layoutNode).Spec paneId layoutNode.listLeafPaneIds := by
  induction layoutNode with
  | pane layoutPaneId =>
    rw [removeLeaf]
    split_ifs with heq
    · rw [heq]
      rfl
    · simpa [PaneRemoval.Spec] using fun h => heq h.symm
  | split splits ih =>
    have hspec := removeLeafInChildren_spec ih 0
    obtain ⟨dir, children, weights, active⟩ := splits
    rw [removeLeaf, listLeafPaneIds_split]
    cases hrm : removeLeafInChildren paneId 0 children with
    | paneNotFound =>
      rw [hrm] at hspec
      exact hspec
    | removed newChildren =>
      rw [hrm] at hspec
      refine ⟨hspec.1, ?_⟩
      rw [listLeafPaneIds_split]
      exact hspec.2
    | childEmpty index =>
      rw [hrm] at hspec
      obtain ⟨before, child, after, hsp, hidx, hch, hb⟩ := hspec
      simp only at hsp
      rw [Nat.zero_add] at hidx
      subst hsp hidx
      simp only
      rw [dropEmptiedChild_eq ⟨dir, before ++ child :: after, weights, active⟩ rfl]
      have hlv : (before ++ child :: after).flatMap listLeafPaneIds =
          before.flatMap listLeafPaneIds ++ paneId :: after.flatMap listLeafPaneIds := by
        rw [flatMap_append, flatMap_cons, hch, singleton_append]
      split_ifs with hem
      · rw [append_eq_nil_iff] at hem
        obtain ⟨rfl, rfl⟩ := hem
        simpa [PaneRemoval.Spec] using hch
      · refine ⟨by rw [hlv]; simp, ?_⟩
        rw [listLeafPaneIds_split, setActiveChildAfterRemoval_children, hlv,
          erase_append_right _ hb, erase_cons_head, flatMap_append]

/-! ### Nodes that survive a removal -/

/-- `node` stands somewhere in the tree. -/
inductive LayoutNode.Subnode (node : LayoutNode) : LayoutNode → Prop
  | self : Subnode node node
  | inChild {splits : SplitNode LayoutNode} {child : LayoutNode} (mem : child ∈ splits.children)
      (hchild : Subnode node child) : Subnode node (.split splits)

theorem LayoutNode.Subnode.leaves_subset (hsub : Subnode node layoutNode) :
    node.listLeafPaneIds ⊆ layoutNode.listLeafPaneIds := by
  induction hsub with
  | self => exact List.Subset.refl _
  | inChild mem _ ih =>
    intro paneId hpa
    rw [listLeafPaneIds_split]
    exact mem_flatMap.2 ⟨_, mem, ih hpa⟩

theorem LayoutNode.Subnode.nodup (hsub : Subnode node layoutNode)
    (hnd : layoutNode.listLeafPaneIds.Nodup) : node.listLeafPaneIds.Nodup := by
  induction hsub with
  | self => exact hnd
  | inChild mem _ ih =>
    rw [listLeafPaneIds_split] at hnd
    exact ih ((nodup_flatMap.1 hnd).1 _ mem)

theorem LayoutNode.subnode_of_getNodeAtPath
    (hno : layoutNode.getNodeAtPath path = some node) : Subnode node layoutNode := by
  induction path generalizing layoutNode with
  | nil =>
    obtain rfl : layoutNode = node := by simpa [getNodeAtPath] using hno
    exact .self
  | cons splitChildIndex path ih =>
    cases layoutNode with
    | pane paneId => simp [getNodeAtPath] at hno
    | split splits =>
      rw [getNodeAtPath] at hno
      split at hno
      · simp at hno
      · next child hg => exact .inChild (mem_of_getElem? hg) (ih hno)

/-- What one removal does to the children: one child shrinks, or goes for being the leaf alone. -/
theorem removeLeafInChildren_removed {paneId : PaneId} {index : Nat} {children newChildren : List LayoutNode}
    (hrm : removeLeafInChildren paneId index children = .removed newChildren) :
    ∃ before child after editedChild, children = before ++ child :: after ∧
      removeLeaf paneId child = .removed editedChild ∧ newChildren = before ++ editedChild :: after := by
  induction children generalizing index newChildren with
  | nil => simp [removeLeafInChildren] at hrm
  | cons child children ih =>
    rw [removeLeafInChildren] at hrm
    cases hch : removeLeaf paneId child with
    | removed editedChild =>
      rw [hch] at hrm
      exact ⟨[], child, children, editedChild, rfl, hch, (ChildRemoval.removed.inj hrm).symm⟩
    | subtreeEmpty =>
      rw [hch] at hrm
      simp at hrm
    | paneNotFound =>
      rw [hch] at hrm
      simp only at hrm
      split at hrm
      · next others hothers =>
        obtain ⟨before, shrunk, after, editedChild, hsp, hshrunk, hed⟩ := ih hothers
        refine ⟨child :: before, shrunk, after, editedChild, by rw [hsp]; rfl, hshrunk, ?_⟩
        rw [← ChildRemoval.removed.inj hrm, hed]
        rfl
      · next ho =>
        exact absurd hrm (ho _)

/-- **A node with another leaf survives the removal of a pane**, without that pane. -/
theorem LayoutNode.Subnode.removeLeaf {editedNode : LayoutNode} {paneId : PaneId} (hsub : Subnode node layoutNode)
    (hnd : layoutNode.listLeafPaneIds.Nodup) (ho : ∃ j ∈ node.listLeafPaneIds, j ≠ paneId)
    (hrm : Layout.removeLeaf paneId layoutNode = .removed editedNode) :
    ∃ survivor, Subnode survivor editedNode ∧ survivor.listLeafPaneIds = node.listLeafPaneIds.erase paneId := by
  induction hsub generalizing editedNode with
  | self =>
    have hspec := removeLeaf_spec paneId node
    rw [hrm] at hspec
    exact ⟨editedNode, .self, hspec.2⟩
  | @inChild splits child mem hchildSub ih =>
    obtain ⟨dir, children, weights, active⟩ := splits
    simp only at mem
    rw [listLeafPaneIds_split] at hnd
    have hchildNodup : child.listLeafPaneIds.Nodup := (nodup_flatMap.1 hnd).1 child mem
    -- a child apart from the one that holds the pane stays as it is
    have hapart : ∀ {before after : List LayoutNode} {holder : LayoutNode}, children = before ++ holder :: after →
        paneId ∈ holder.listLeafPaneIds → child ∈ before ++ after →
        node.listLeafPaneIds.erase paneId = node.listLeafPaneIds := by
      intro before after holder hsp hholder hm
      apply erase_of_not_mem
      intro hpa
      have hchildPane := hchildSub.leaves_subset hpa
      simp only at hnd
      rw [hsp, flatMap_append, flatMap_cons] at hnd
      rw [nodup_append] at hnd
      obtain ⟨-, hright, hdisj⟩ := hnd
      rcases mem_append.1 hm with hm | hm
      · exact hdisj paneId (mem_flatMap.2 ⟨child, hm, hchildPane⟩) paneId (mem_append_left _ hholder) rfl
      · rw [nodup_append] at hright
        exact hright.2.2 paneId hholder paneId (mem_flatMap.2 ⟨child, hm, hchildPane⟩) rfl
    rw [Layout.removeLeaf] at hrm
    have hspec := @removeLeafInChildren_spec _ children (fun other _ => removeLeaf_spec paneId other) 0
    cases hr : removeLeafInChildren paneId 0 children with
    | paneNotFound =>
      rw [hr] at hrm
      simp at hrm
    | removed newChildren =>
      rw [hr] at hrm
      obtain rfl := PaneRemoval.removed.inj hrm
      obtain ⟨before, holder, after, editedHolder, hsp, hholder, hed⟩ := removeLeafInChildren_removed hr
      have hholderSpec := removeLeaf_spec paneId holder
      rw [hholder] at hholderSpec
      have hm : child ∈ before ++ holder :: after := by rw [← hsp]; exact mem
      by_cases hs : child ∈ before ++ after
      · refine ⟨node, .inChild (by rw [hed]; simp only [mem_append, mem_cons] at hs ⊢; tauto)
          hchildSub, (hapart hsp hholderSpec.1 hs).symm⟩
      · obtain rfl : child = holder := by
          simp only [mem_append, mem_cons] at hm hs
          tauto
        obtain ⟨survivor, hsurviving, hlv⟩ := ih hchildNodup hholder
        exact ⟨survivor, .inChild (by rw [hed]; simp) hsurviving, hlv⟩
    | childEmpty index =>
      rw [hr] at hrm hspec
      obtain ⟨before, holder, after, hsp, hidx, hholder, -⟩ := hspec
      rw [Nat.zero_add] at hidx
      subst hidx
      simp only at hrm
      rw [dropEmptiedChild_eq ⟨dir, children, weights, active⟩ hsp] at hrm
      split at hrm
      · simp at hrm
      · obtain rfl := PaneRemoval.removed.inj hrm
        have hm : child ∈ before ++ holder :: after := by rw [← hsp]; exact mem
        have hs : child ∈ before ++ after := by
          by_contra hnot
          obtain rfl : child = holder := by
            simp only [mem_append, mem_cons] at hm hnot
            tauto
          obtain ⟨j, hotherMem, hne⟩ := ho
          have := hchildSub.leaves_subset hotherMem
          rw [hholder, mem_singleton] at this
          exact hne this
        refine ⟨node, .inChild ?_ hchildSub, (hapart hsp (by rw [hholder]; simp) hs).symm⟩
        rw [setActiveChildAfterRemoval_children]
        exact hs

/-! ### Stacks along a path -/

theorem LayoutNode.getNodeAtPath_take (hno : layoutNode.getNodeAtPath path = some node) (depth : Nat) :
    ∃ ancestor, layoutNode.getNodeAtPath (path.take depth) = some ancestor := by
  induction path generalizing layoutNode depth with
  | nil => exact ⟨layoutNode, by simp [getNodeAtPath]⟩
  | cons splitChildIndex path ih =>
    cases depth with
    | zero => exact ⟨layoutNode, by simp [getNodeAtPath]⟩
    | succ depth =>
      cases layoutNode with
      | pane paneId => simp [getNodeAtPath] at hno
      | split splits =>
        rw [getNodeAtPath] at hno
        rw [take_succ_cons, getNodeAtPath]
        split at hno
        · simp at hno
        · exact ih hno depth

theorem LayoutNode.findStackDepth_spec (hno : layoutNode.getNodeAtPath path = some node) (depths : List Nat) :
    ∃ found, layoutNode.findStackDepth path depths = some found ∧
      ∀ stackDepth ∈ found, ∃ splits, layoutNode.getNodeAtPath (path.take stackDepth) = some (.split splits) := by
  induction depths with
  | nil => exact ⟨none, rfl, by simp⟩
  | cons depth depths ih =>
    obtain ⟨found, hfo, hstk⟩ := ih
    obtain ⟨ancestor, hancestor⟩ := getNodeAtPath_take hno depth
    unfold findStackDepth at hfo ⊢
    rw [List.findM?, hancestor, map_some]
    cases hisStack : ancestor.isStack with
    | true =>
      refine ⟨some depth, by simp [bind, pure], ?_⟩
      rintro stackDepth ⟨⟩
      cases ancestor with
      | pane paneId => simp [isStack] at hisStack
      | split splits => exact ⟨splits, hancestor⟩
    | false => exact ⟨found, by simpa [bind, pure] using hfo, hstk⟩

theorem addPanesToStack_leaves {t : LayoutNode} {anchorId : PaneId} (hanc : t.hasPane anchorId = true)
    (newIds : List PaneId) :
    ∃ stacked, addPanesToStack t anchorId newIds = some (.ok stacked) ∧
      stacked.listLeafPaneIds.Perm (t.listLeafPaneIds ++ newIds) := by
  unfold addPanesToStack
  rw [hanc]
  simp only [Bool.not_true, Bool.false_eq_true, if_false]
  split_ifs with hem
  · exact ⟨t, rfl, by simp [hem]⟩
  obtain ⟨panePath, hpath⟩ := isSome_iff_exists.1 (findPanePath_isSome ((hasPane_iff_mem _ _).1 hanc))
  have hleaf := getNodeAtPath_findPanePath hpath
  obtain ⟨found, hfo, hstk⟩ := findStackDepth_spec hleaf (List.range panePath.length).reverse
  simp only [hpath, bind, Option.bind, hfo]
  -- adding the panes after the leaves of one node adds them to the tree's
  have hperm : ∀ before node after : List PaneId, (before ++ (node ++ newIds) ++ after).Perm
      (before ++ node ++ after ++ newIds) := by
    intro before node after
    simp only [append_assoc]
    exact ((@List.perm_append_comm _ newIds after).append_left node).append_left before
  cases found with
  | some stackDepth =>
    obtain ⟨splits, hsplitNode⟩ := hstk stackDepth rfl
    obtain ⟨before, after, hlv, hedit⟩ := getNodeAtPath_leaves hsplitNode
    obtain ⟨ed, hed, heditedLeaves⟩ := hedit (appendStackMembers newIds)
    refine ⟨ed, by simp only [hed], ?_⟩
    have happend : (appendStackMembers newIds (.split splits)).listLeafPaneIds =
        (split splits).listLeafPaneIds ++ newIds := by
      simp [appendStackMembers, flatMap_map]
    rw [heditedLeaves, happend, hlv]
    exact hperm _ _ _
  | none =>
    obtain ⟨before, after, hlv, hedit⟩ := getNodeAtPath_leaves hleaf
    obtain ⟨ed, hed, heditedLeaves⟩ :=
      hedit fun _ => .split (.fromStackedPaneIds (anchorId :: newIds) 0)
    refine ⟨ed, by simp only [hed], ?_⟩
    have hnew : (split (.fromStackedPaneIds (anchorId :: newIds) 0)).listLeafPaneIds =
        (pane anchorId).listLeafPaneIds ++ newIds := by
      simp [SplitNode.fromStackedPaneIds, flatMap_map]
    rw [heditedLeaves, hnew, hlv]
    exact hperm _ _ _

/-! ### Removing a pane -/

/-- What removing a pane gives: an error on an absent pane and on the only leaf, and otherwise the leaves less it. -/
def RemovesPane (t : LayoutNode) (paneId : PaneId) : Except RemoveError LayoutNode → Prop
  | .error (.paneNotFound errorPaneId) => errorPaneId = paneId ∧ paneId ∉ t.listLeafPaneIds
  | .error (.lastPane errorPaneId) => errorPaneId = paneId ∧ t.listLeafPaneIds = [paneId]
  | .ok edited => paneId ∈ t.listLeafPaneIds ∧ edited.listLeafPaneIds ≠ [] ∧
      edited.listLeafPaneIds = t.listLeafPaneIds.erase paneId

theorem removePane_spec (t : LayoutNode) (paneId : PaneId) : RemovesPane t paneId (removePane t paneId) := by
  have hspec := removeLeaf_spec paneId t
  unfold removePane
  cases hrm : removeLeaf paneId t with
  | paneNotFound =>
    rw [hrm] at hspec
    exact ⟨rfl, hspec⟩
  | subtreeEmpty =>
    rw [hrm] at hspec
    exact ⟨rfl, hspec⟩
  | removed edited =>
    rw [hrm] at hspec
    obtain ⟨hm, hlv⟩ := hspec
    simp only
    split_ifs with hem
    · refine ⟨rfl, ?_⟩
      rw [hlv] at hem
      have hperm := perm_cons_erase hm
      rw [hem] at hperm
      exact perm_singleton.1 hperm
    · exact ⟨hm, hem, hlv⟩

theorem normalizeTree_self {t : LayoutNode} (hleaf : t.listLeafPaneIds ≠ []) :
    ∃ normalized, normalizeLayoutTree t.listLeafPaneIds t = some (some normalized) ∧
      normalized.listLeafPaneIds = t.listLeafPaneIds := by
  obtain ⟨result, hres⟩ := normalizeTree_normalizes t.listLeafPaneIds t
  have hfilter : t.listLeafPaneIds.filter (t.listLeafPaneIds.contains ·) = t.listLeafPaneIds :=
    filter_eq_self.2 fun paneId hm => by simpa using hm
  have hlv := hres.leaves
  rw [hfilter] at hlv
  cases result with
  | none => exact absurd hlv.symm hleaf
  | some normalized => exact ⟨normalized, hres.runs, hlv⟩

theorem removePaneAndNormalize_spec (t : LayoutNode) (paneId : PaneId) :
    ∃ result, removePaneAndNormalize t paneId = some result ∧ RemovesPane t paneId result := by
  have hspec := removePane_spec t paneId
  unfold removePaneAndNormalize
  cases hrm : removePane t paneId with
  | error removeError =>
    rw [hrm] at hspec
    exact ⟨.error removeError, rfl, hspec⟩
  | ok edited =>
    rw [hrm] at hspec
    obtain ⟨hm, hne, hlv⟩ := hspec
    obtain ⟨normalized, hnormalized, hs⟩ := normalizeTree_self hne
    refine ⟨.ok normalized, by simp only [hnormalized, map_some, getD_some], hm, ?_, ?_⟩
    · rwa [hs]
    · rw [hs, hlv]

end Koshi.Layout
