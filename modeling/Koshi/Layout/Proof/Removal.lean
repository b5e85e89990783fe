import Mathlib.Tactic
import Koshi.Layout.Proof.Edit

/-!
# What a removal does to every split

Taking a pane out of a tree touches the splits on the way to its leaf only: one child of each shrinks, and the
lowest split that stays drops the child that was the pane alone, with its weight. The member a stack shows stays the
same one, unless it was the one dropped.
-/

namespace Koshi.Layout

open Koshi.Core List

variable {paneId : PaneId} {newSplit : SplitNode LayoutNode}

inductive SplitAfterRemoval (paneId : PaneId) : SplitNode LayoutNode → SplitNode LayoutNode → Prop
  /-- The pane is not below the split. -/
  | kept (node : SplitNode LayoutNode) : SplitAfterRemoval paneId node node
  /-- The child holding the pane shrinks in its place. -/
  | shrunk (node : SplitNode LayoutNode) {before after : List LayoutNode} {child editedChild : LayoutNode}
      (hchildren : node.children = before ++ child :: after)
      (hleaves : editedChild.listLeafPaneIds = child.listLeafPaneIds.erase paneId) :
      SplitAfterRemoval paneId node { node with children := before ++ editedChild :: after }
  /-- The child that is the pane alone goes with its weight; the active child stays the same one, or gives its place
  to a child in range. -/
  | dropped (node : SplitNode LayoutNode) {before after : List LayoutNode} {child : LayoutNode}
      {active : Nat} (hchildren : node.children = before ++ child :: after)
      (hleaves : child.listLeafPaneIds = [paneId]) (hother : before ++ after ≠ [])
      (hearlier : node.getActiveChildIndex < before.length → active = node.getActiveChildIndex)
      (hlater : before.length < node.getActiveChildIndex → active = node.getActiveChildIndex - 1)
      (hactive : node.getActiveChildIndex = before.length → active < (before ++ after).length) :
      SplitAfterRemoval paneId node
        { direction := node.direction
          children := before ++ after
          weights := node.weights.eraseIdx before.length
          activeChildIndex := active }

variable {node : SplitNode LayoutNode}

theorem SplitAfterRemoval.parallel (haf : SplitAfterRemoval paneId node newSplit)
    (hparallel : node.weights.length = node.children.length) :
    newSplit.weights.length = newSplit.children.length := by
  cases haf with
  | kept => exact hparallel
  | shrunk hcs =>
    rw [hcs] at hparallel
    simpa using hparallel
  | dropped hcs =>
    rw [hcs] at hparallel
    simp only [length_append, length_cons] at hparallel ⊢
    rw [length_eraseIdx_of_lt (by omega)]
    omega

theorem SplitAfterRemoval.children_eq_nil (haf : SplitAfterRemoval paneId node newSplit)
    (hnil : newSplit.children = []) :
    node.children = [] := by
  cases haf with
  | kept => exact hnil
  | shrunk => simp at hnil
  | dropped _ _ ho => exact absurd hnil ho

theorem dropEmptiedChild_after (node : SplitNode LayoutNode) {before after : List LayoutNode} {child : LayoutNode}
    (hcs : node.children = before ++ child :: after) (hlv : child.listLeafPaneIds = [paneId])
    (ho : before ++ after ≠ []) :
    SplitAfterRemoval paneId node (setActiveChildAfterRemoval { node with
      children := before ++ after, weights := node.weights.eraseIdx before.length } before.length) := by
  have hlen : 0 < before.length + after.length := by
    rw [← length_append]
    exact length_pos_iff.2 ho
  have hact : node.getActiveChildIndex = min node.activeChildIndex (before.length + after.length) := by
    rw [SplitNode.getActiveChildIndex, hcs, length_append, length_cons]
    omega
  -- the index after the removal, clamped into the children left
  have heq : setActiveChildAfterRemoval { node with
      children := before ++ after, weights := node.weights.eraseIdx before.length } before.length =
      { direction := node.direction
        children := before ++ after
        weights := node.weights.eraseIdx before.length
        activeChildIndex := min (if before.length < node.activeChildIndex then node.activeChildIndex - 1
          else node.activeChildIndex) (before.length + after.length - 1) } := by
    unfold setActiveChildAfterRemoval SplitNode.getActiveChildIndex
    split <;> simp
  rw [heq]
  refine .dropped node hcs hlv ho ?_ ?_ ?_
  · intro hlt
    rw [hact] at hlt ⊢
    split_ifs <;> omega
  · intro hlt
    rw [hact] at hlt ⊢
    split_ifs <;> omega
  · intro _
    rw [length_append]
    omega

/-- **Every split of a tree that lost a pane is a split of the tree before**, changed by the removal only. -/
theorem removeLeaf_splits {layoutNode editedNode : LayoutNode}
    (hrm : removeLeaf paneId layoutNode = .removed editedNode)
    (hsub : LayoutNode.Subnode (.split newSplit) editedNode) :
    ∃ node, LayoutNode.Subnode (.split node) layoutNode ∧ SplitAfterRemoval paneId node newSplit := by
  induction layoutNode generalizing editedNode with
  | pane layoutPaneId =>
    rw [removeLeaf] at hrm
    split at hrm <;> cases hrm
  | split node ih =>
    obtain ⟨dir, children, weights, active⟩ := node
    have hspec := @removeLeafInChildren_spec paneId children (fun child _ => removeLeaf_spec paneId child) 0
    rw [removeLeaf] at hrm
    cases hr : removeLeafInChildren paneId 0 children with
    | paneNotFound =>
      rw [hr] at hrm
      cases hrm
    | removed editedChildren =>
      rw [hr] at hrm
      obtain rfl := PaneRemoval.removed.inj hrm
      obtain ⟨before, child, after, editedChild, rfl, hch, rfl⟩ := removeLeafInChildren_removed hr
      have hchildSpec := removeLeaf_spec paneId child
      rw [hch] at hchildSpec
      cases hsub with
      | self => exact ⟨_, .self, .shrunk _ rfl hchildSpec.2⟩
      | inChild mem hbelow =>
        -- below the edited child the induction speaks, below any other nothing changed
        simp only [mem_append, mem_cons] at mem
        rcases mem with mem | rfl | mem
        · exact ⟨_, .inChild (mem_append_left _ mem) hbelow, .kept _⟩
        · obtain ⟨node, hsp, haf⟩ := ih child (by simp) hch hbelow
          exact ⟨node, .inChild (by simp) hsp, haf⟩
        · exact ⟨_, .inChild (mem_append_right _ (mem_cons_of_mem _ mem)) hbelow, .kept _⟩
    | childEmpty index =>
      rw [hr] at hrm hspec
      obtain ⟨before, child, after, rfl, hidx, hlv, -⟩ := hspec
      rw [Nat.zero_add] at hidx
      subst hidx
      simp only at hrm
      rw [dropEmptiedChild_eq ⟨dir, before ++ child :: after, weights, active⟩ rfl] at hrm
      split at hrm
      · cases hrm
      · next ho =>
        obtain rfl := PaneRemoval.removed.inj hrm
        cases hsub with
        | self => exact ⟨_, .self, dropEmptiedChild_after _ rfl hlv ho⟩
        | inChild mem hbelow =>
          rw [setActiveChildAfterRemoval_children] at mem
          refine ⟨_, .inChild ?_ hbelow, .kept _⟩
          rcases mem_append.1 mem with mem | mem
          · exact mem_append_left _ mem
          · exact mem_append_right _ (mem_cons_of_mem _ mem)

theorem removeLeaf_of_removePane {t ed : LayoutNode} (hrm : removePane t paneId = .ok ed) :
    removeLeaf paneId t = .removed ed := by
  unfold removePane at hrm
  split at hrm
  · cases hrm
  · cases hrm
  · next hleaf =>
    split at hrm
    · cases hrm
    · rw [hleaf, Except.ok.inj hrm]

/-- **Removing a pane**: it fails with `PaneNotFound` exactly when the pane is absent and with `LastPane` exactly
when it is the only leaf. Otherwise the leaves are the others in their order, and every split of the result is a split
of the tree before, shrunk by the pane: its children and weights stay parallel, it has no child only if it had none,
and its active child is the same one, or one in range where the active child was the one dropped. -/
theorem removePane_keeps_splits (tree : LayoutNode) (paneId : PaneId) (hnodup : tree.listLeafPaneIds.Nodup) :
    (removePane tree paneId = .error (.paneNotFound paneId) ↔ paneId ∉ tree.listLeafPaneIds) ∧
    (removePane tree paneId = .error (.lastPane paneId) ↔ tree.listLeafPaneIds = [paneId]) ∧
    (paneId ∈ tree.listLeafPaneIds → tree.listLeafPaneIds ≠ [paneId] →
      ∃ edited, removePane tree paneId = .ok edited ∧
        edited.listLeafPaneIds = tree.listLeafPaneIds.filter (· ≠ paneId) ∧
        ∀ newSplit, LayoutNode.Subnode (.split newSplit) edited →
          ∃ splitNode, LayoutNode.Subnode (.split splitNode) tree ∧
            SplitAfterRemoval paneId splitNode newSplit ∧
            (splitNode.weights.length = splitNode.children.length →
              newSplit.weights.length = newSplit.children.length) ∧
            (newSplit.children = [] → splitNode.children = [])) := by
  have hspec := removePane_spec tree paneId
  cases hremove : removePane tree paneId with
  | error removeError =>
    rw [hremove] at hspec
    cases removeError with
    | paneNotFound errorPaneId =>
      obtain ⟨rfl, habsent⟩ := hspec
      refine ⟨iff_of_true rfl habsent, iff_of_false (by simp) ?_, fun hmem => absurd hmem habsent⟩
      intro hleaves
      exact habsent (by simp [hleaves])
    | lastPane errorPaneId =>
      obtain ⟨rfl, hleaves⟩ := hspec
      exact ⟨iff_of_false (by simp) (by simp [hleaves]), iff_of_true rfl hleaves, fun _ hother => absurd hleaves hother⟩
  | ok edited =>
    rw [hremove] at hspec
    obtain ⟨hmem, hne, hleaves⟩ := hspec
    refine ⟨iff_of_false (by simp) (not_not_intro hmem), iff_of_false (by simp) ?_, fun _ _ =>
      ⟨edited, rfl, ?_, fun newSplit hsub => ?_⟩⟩
    · intro honly
      rw [honly, erase_cons_head] at hleaves
      exact hne hleaves
    · rw [hleaves, hnodup.erase_eq_filter]
      simp only [bne, Bool.beq_eq_decide_eq, decide_not]
    · obtain ⟨splitNode, hsplit, hafter⟩ := removeLeaf_splits (removeLeaf_of_removePane hremove) hsub
      exact ⟨splitNode, hsplit, hafter, hafter.parallel, hafter.children_eq_nil⟩

/-- A row of a stack showing its last member and a pane. -/
def stackBesidePane : SplitNode LayoutNode where
  direction := .horizontal
  children := [.split ⟨.stacked, [.pane ⟨1⟩, .pane ⟨2⟩, .pane ⟨3⟩], List.replicate 3 .default, 2⟩, .pane ⟨4⟩]
  weights := List.replicate 2 .default
  activeChildIndex := 0

/-- The stack without its middle member. -/
theorem removePane_keeps_splits_stackBesidePane :
    ∃ edited, removePane (.split stackBesidePane) ⟨2⟩ = .ok edited ∧ edited.listLeafPaneIds = [⟨1⟩, ⟨3⟩, ⟨4⟩] := by
  obtain ⟨edited, hremove, hleaves, -⟩ :=
    (removePane_keeps_splits (.split stackBesidePane) ⟨2⟩ (by decide)).2.2 (by decide) (by decide)
  exact ⟨edited, hremove, by rw [hleaves]; decide⟩

/-- A split that had no child before stays in the tree, still with no child. -/
theorem removePane_keeps_empty_split :
    ¬ ∀ (tree edited : LayoutNode) (paneId : PaneId), tree.listLeafPaneIds.Nodup →
      removePane tree paneId = .ok edited →
      ∀ newSplit, LayoutNode.Subnode (.split newSplit) edited → newSplit.children ≠ [] := by
  intro h
  have hempty := h
    (.split ⟨.horizontal, [.pane ⟨1⟩, .pane ⟨2⟩, .split ⟨.vertical, [], [], 0⟩], List.replicate 3 .default, 0⟩)
    (.split ⟨.horizontal, [.pane ⟨1⟩, .split ⟨.vertical, [], [], 0⟩], List.replicate 2 .default, 0⟩) ⟨2⟩
    (by decide) rfl ⟨.vertical, [], [], 0⟩ (.inChild (mem_cons_of_mem _ mem_cons_self) .self)
  exact hempty rfl

end Koshi.Layout
