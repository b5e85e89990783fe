import Mathlib.Tactic
import Koshi.Core.Ids
import Koshi.Layout.Size

/-!
# The layout tree

Which panes a tab shows and how they divide its area (`koshi-layout/src/tree.rs`). Leaves are panes,
interior nodes are splits. A walk over the tree is a function on a node together with the same function
on a list of children; `LayoutNode.ind` is the induction that goes with it.
-/

namespace Koshi.Layout

open Koshi.Core List

structure SplitNode (Node : Type) where
  direction : SplitDirection
  children : List Node
  weights : List SizeWeight
  activeChildIndex : Nat
  deriving DecidableEq, Repr

/-- A node in the layout tree: a single pane, or a split holding children. -/
inductive LayoutNode where
  | pane (paneId : PaneId)
  | split (splitNode : SplitNode LayoutNode)
  deriving Repr

/-- Induction over a layout tree: a split is proved from all of its children. -/
@[elab_as_elim, induction_eliminator]
theorem LayoutNode.ind {P : LayoutNode → Prop} (pane : ∀ paneId, P (.pane paneId))
    (split : ∀ splitNode, (∀ child ∈ splitNode.children, P child) → P (.split splitNode))
    (layoutNode : LayoutNode) : P layoutNode :=
  LayoutNode.rec (motive_1 := P) (motive_2 := fun splitNode => ∀ child ∈ splitNode.children, P child)
    (motive_3 := fun children => ∀ child ∈ children, P child) pane split (fun _ _ _ _ h => h)
    (fun _ h => absurd h not_mem_nil)
    (fun _ _ hhead htail child hm => (mem_cons.1 hm).elim (fun h => h ▸ hhead) (htail child))
    layoutNode

variable (splitNode : SplitNode LayoutNode)

namespace LayoutNode

variable (paneId : PaneId)

mutual

def listLeafPaneIds : LayoutNode → List PaneId
  | .pane paneId => [paneId]
  | .split ⟨_, children, _, _⟩ => listChildLeafPaneIds children

def listChildLeafPaneIds : List LayoutNode → List PaneId
  | [] => []
  | child :: children => child.listLeafPaneIds ++ listChildLeafPaneIds children

end

mutual

/-- Some leaf of this subtree references `paneId`. -/
def hasPane (paneId : PaneId) : LayoutNode → Bool
  | .pane candidatePaneId => candidatePaneId == paneId
  | .split ⟨_, children, _, _⟩ => anyChildHasPane paneId children

def anyChildHasPane (paneId : PaneId) : List LayoutNode → Bool
  | [] => false
  | child :: children => child.hasPane paneId || anyChildHasPane paneId children

end

mutual

/-- Every split of the tree has a leaf below it. -/
def hasNoLeaflessSplit : LayoutNode → Bool
  | .pane _ => true
  | .split ⟨_, children, _, _⟩ =>
    !(listChildLeafPaneIds children).isEmpty && childrenHaveNoLeaflessSplit children

def childrenHaveNoLeaflessSplit : List LayoutNode → Bool
  | [] => true
  | child :: children => child.hasNoLeaflessSplit && childrenHaveNoLeaflessSplit children

end

@[simp] theorem listLeafPaneIds_pane : (pane paneId).listLeafPaneIds = [paneId] := rfl

theorem listChildLeafPaneIds_eq (children : List LayoutNode) :
    listChildLeafPaneIds children = children.flatMap listLeafPaneIds := by
  induction children with
  | nil => rfl
  | cons child children ih => rw [listChildLeafPaneIds, ih, flatMap_cons]

@[simp] theorem listLeafPaneIds_split :
    (split splitNode).listLeafPaneIds = splitNode.children.flatMap listLeafPaneIds :=
  listChildLeafPaneIds_eq splitNode.children

theorem anyChildHasPane_eq (children : List LayoutNode) :
    anyChildHasPane paneId children = children.any (hasPane paneId) := by
  induction children with
  | nil => rfl
  | cons child children ih => rw [anyChildHasPane, ih, any_cons]

@[simp] theorem hasPane_split : (split splitNode).hasPane paneId = splitNode.children.any (hasPane paneId) :=
  anyChildHasPane_eq paneId splitNode.children

theorem hasPane_iff_mem (layoutNode : LayoutNode) :
    layoutNode.hasPane paneId = true ↔ paneId ∈ layoutNode.listLeafPaneIds := by
  induction layoutNode with
  | pane leafPaneId =>
    rw [hasPane, beq_iff_eq, listLeafPaneIds_pane, mem_singleton]
    exact eq_comm
  | split splitNode ih =>
    simp only [hasPane_split, List.any_eq_true, listLeafPaneIds_split, mem_flatMap]
    exact exists_congr fun child => and_congr_right fun hm => ih child hm

theorem childrenHaveNoLeaflessSplit_eq (children : List LayoutNode) :
    childrenHaveNoLeaflessSplit children = children.all hasNoLeaflessSplit := by
  induction children with
  | nil => rfl
  | cons child children ih => rw [childrenHaveNoLeaflessSplit, ih, all_cons]

theorem hasNoLeaflessSplit_split :
    (split splitNode).hasNoLeaflessSplit = true ↔ splitNode.children.flatMap listLeafPaneIds ≠ [] ∧
      ∀ child ∈ splitNode.children, child.hasNoLeaflessSplit = true := by
  obtain ⟨direction, children, weights, activeChildIndex⟩ := splitNode
  rw [hasNoLeaflessSplit, childrenHaveNoLeaflessSplit_eq, listChildLeafPaneIds_eq]
  simp

theorem listLeafPaneIds_ne_nil {layoutNode : LayoutNode} (h : layoutNode.hasNoLeaflessSplit = true) :
    layoutNode.listLeafPaneIds ≠ [] := by
  cases layoutNode with
  | pane paneId => simp
  | split splitNode =>
    rw [listLeafPaneIds_split]
    exact ((hasNoLeaflessSplit_split splitNode).1 h).1

theorem children_ne_nil {splitNode : SplitNode LayoutNode} (h : (split splitNode).hasNoLeaflessSplit = true) :
    splitNode.children ≠ [] := by
  intro hnil
  have := ((hasNoLeaflessSplit_split splitNode).1 h).1
  rw [hnil] at this
  exact this rfl

end LayoutNode

namespace SplitNode

def getActiveChildIndex {Node : Type} (splitNode : SplitNode Node) : Nat :=
  min splitNode.activeChildIndex (splitNode.children.length - 1)

/-- The member a stack shows: the child holding the first pane of `focusHistory` that any child holds,
else the active child. -/
def getShownChildIndex (focusHistory : List PaneId) : Nat :=
  (focusHistory.findSome? fun historyPaneId =>
    splitNode.children.findIdx? (·.hasPane historyPaneId)).getD splitNode.getActiveChildIndex

@[simp] theorem getShownChildIndex_nil : splitNode.getShownChildIndex [] = splitNode.getActiveChildIndex := rfl

theorem getActiveChildIndex_lt {Node : Type} (splitNode : SplitNode Node)
    (h : splitNode.children ≠ []) : splitNode.getActiveChildIndex < splitNode.children.length := by
  have := length_pos_iff.2 h
  unfold getActiveChildIndex
  omega

end SplitNode

namespace LayoutNode

variable {child : LayoutNode}

mutual

/-- A stack on the path to `paneId` shows a member that does not hold `paneId`. -/
def isPaneCollapsed (paneId : PaneId) (focusHistory : List PaneId) : LayoutNode → Bool
  | .pane _ => false
  | .split ⟨direction, children, weights, activeChildIndex⟩ =>
    match children.findIdx? (·.hasPane paneId) with
    | none => false
    | some paneChildIndex =>
      if direction = .stacked ∧ paneChildIndex ≠
          SplitNode.getShownChildIndex ⟨direction, children, weights, activeChildIndex⟩ focusHistory then
        true
      else
        isPaneCollapsedInChild paneId focusHistory children paneChildIndex

def isPaneCollapsedInChild (paneId : PaneId) (focusHistory : List PaneId) : List LayoutNode → Nat → Bool
  | [], _ => false
  | child :: _, 0 => child.isPaneCollapsed paneId focusHistory
  | _ :: children, childIndex + 1 => isPaneCollapsedInChild paneId focusHistory children childIndex

end

theorem isPaneCollapsedInChild_eq (paneId : PaneId) (focusHistory : List PaneId) {children : List LayoutNode}
    {childIndex : Nat} (h : children[childIndex]? = some child) :
    isPaneCollapsedInChild paneId focusHistory children childIndex = child.isPaneCollapsed paneId focusHistory := by
  induction children generalizing childIndex with
  | nil => simp at h
  | cons head children ih =>
    cases childIndex with
    | zero =>
      rw [List.getElem?_cons_zero, Option.some.injEq] at h
      rw [isPaneCollapsedInChild, h]
    | succ childIndex => exact ih (by simpa using h)

/-- With distinct leaves, the first child holding a pane is the only one. -/
theorem findIdx?_hasPane {children : List LayoutNode} (hnd : (children.flatMap listLeafPaneIds).Nodup)
    {childIndex : Nat} (hch : children[childIndex]? = some child) {paneId : PaneId}
    (hpa : paneId ∈ child.listLeafPaneIds) : children.findIdx? (·.hasPane paneId) = some childIndex := by
  obtain ⟨hlt, rfl⟩ := List.getElem?_eq_some_iff.1 hch
  rw [List.findIdx?_eq_some_iff_getElem]
  refine ⟨hlt, (hasPane_iff_mem _ _).2 hpa, fun j hj ho => ?_⟩
  have hdisj := pairwise_iff_getElem.1 (nodup_flatMap.1 hnd).2 j childIndex (by omega) hlt hj
  exact hdisj ((hasPane_iff_mem _ _).1 ho) hpa

theorem isPaneCollapsed_split {splitNode : SplitNode LayoutNode} {paneId : PaneId} {focusHistory : List PaneId}
    (hnd : (splitNode.children.flatMap listLeafPaneIds).Nodup) {childIndex : Nat}
    (hch : splitNode.children[childIndex]? = some child) (hpa : paneId ∈ child.listLeafPaneIds) :
    (split splitNode).isPaneCollapsed paneId focusHistory = true ↔
      (splitNode.direction = .stacked ∧ childIndex ≠ splitNode.getShownChildIndex focusHistory) ∨
        child.isPaneCollapsed paneId focusHistory = true := by
  obtain ⟨direction, children, weights, activeChildIndex⟩ := splitNode
  rw [isPaneCollapsed, findIdx?_hasPane hnd hch hpa]
  dsimp only
  split_ifs with h
  · exact iff_of_true rfl (Or.inl h)
  · rw [isPaneCollapsedInChild_eq _ _ hch]
    exact ⟨Or.inr, fun hor => hor.resolve_left h⟩

end LayoutNode

end Koshi.Layout
