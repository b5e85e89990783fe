import Mathlib.Tactic
import Koshi.Layout.Tree

/-!
# Paths in the layout tree

The child index taken at each split on the way down to a node (`koshi-layout/src/tree.rs`). A walk along a
path that leaves the tree panics in the source; it gives `none` here. Editing one node is a one-hole context
on the leaves: what stands before and after the node stays.
-/

namespace Koshi.Layout

open Koshi.Core List

/-- The split axis a cardinal direction runs on. -/
def computeSplitDirection : Direction → SplitDirection
  | .left | .right => .horizontal
  | .up | .down => .vertical

namespace SplitNode

/-- A split of `direction` over `children` sharing space evenly. -/
def withEqualWeights {Node : Type} (direction : SplitDirection) (children : List Node) : SplitNode Node where
  direction := direction
  children := children
  weights := List.replicate children.length SizeWeight.default
  activeChildIndex := 0

def fromStackedPaneIds (paneIds : List PaneId) (activeChildIndex : Nat) : SplitNode LayoutNode where
  direction := .stacked
  children := paneIds.map LayoutNode.pane
  weights := List.replicate paneIds.length SizeWeight.default
  activeChildIndex := min activeChildIndex (paneIds.length - 1)

end SplitNode

namespace LayoutNode

variable {paneId : PaneId} {layoutNode : LayoutNode}

mutual

/-- The child index taken at each split down to the leaf holding `paneId`. -/
def findPanePath (paneId : PaneId) : LayoutNode → Option (List Nat)
  | .pane layoutPaneId => if layoutPaneId = paneId then some [] else none
  | .split ⟨_, children, _, _⟩ => findPanePathInChildren paneId 0 children

def findPanePathInChildren (paneId : PaneId) : Nat → List LayoutNode → Option (List Nat)
  | _, [] => none
  | splitChildIndex, child :: children =>
    match child.findPanePath paneId with
    | some panePath => some (splitChildIndex :: panePath)
    | none => findPanePathInChildren paneId (splitChildIndex + 1) children

end

def getNodeAtPath : LayoutNode → List Nat → Option LayoutNode
  | layoutNode, [] => some layoutNode
  | .pane _, _ :: _ => none
  | .split splitNode, splitChildIndex :: layoutPath =>
    match splitNode.children[splitChildIndex]? with
    | none => none
    | some child => child.getNodeAtPath layoutPath

/-- The tree with the node at `layoutPath` replaced by its image under `edit`. -/
def editNodeAtPath (edit : LayoutNode → LayoutNode) : LayoutNode → List Nat → Option LayoutNode
  | layoutNode, [] => some (edit layoutNode)
  | .pane _, _ :: _ => none
  | .split splitNode, splitChildIndex :: layoutPath =>
    match splitNode.children[splitChildIndex]? with
    | none => none
    | some child => (child.editNodeAtPath edit layoutPath).map fun editedChild =>
      .split { splitNode with children := splitNode.children.set splitChildIndex editedChild }

def isStack : LayoutNode → Bool
  | .pane _ => false
  | .split splitNode => splitNode.direction = .stacked

def findStackDepth (layoutNode : LayoutNode) (layoutPath : List Nat) (depths : List Nat) : Option (Option Nat) :=
  depths.findM? fun pathDepth => (layoutNode.getNodeAtPath (layoutPath.take pathDepth)).map isStack

/-! ### Walking a path -/

theorem findPanePathInChildren_some {splitChildIndex : Nat} {children : List LayoutNode} {panePath : List Nat}
    (hfi : findPanePathInChildren paneId splitChildIndex children = some panePath) :
    ∃ childIndex child childPath, panePath = (splitChildIndex + childIndex) :: childPath ∧
      children[childIndex]? = some child ∧ child.findPanePath paneId = some childPath := by
  induction children generalizing splitChildIndex with
  | nil => simp [findPanePathInChildren] at hfi
  | cons child children ih =>
    rw [findPanePathInChildren] at hfi
    cases hch : child.findPanePath paneId with
    | some childPath =>
      rw [hch] at hfi
      exact ⟨0, child, childPath, (Option.some.inj hfi).symm, rfl, hch⟩
    | none =>
      rw [hch] at hfi
      obtain ⟨childIndex, other, childPath, hpath, hg, ho⟩ := ih hfi
      refine ⟨childIndex + 1, other, childPath, ?_, by simpa using hg, ho⟩
      rw [hpath, Nat.add_right_comm, Nat.add_assoc]

theorem findPanePath_split (paneId : PaneId) (splitNode : SplitNode LayoutNode) :
    (split splitNode).findPanePath paneId = findPanePathInChildren paneId 0 splitNode.children := rfl

theorem getNodeAtPath_findPanePath {panePath : List Nat} (hfi : layoutNode.findPanePath paneId = some panePath) :
    layoutNode.getNodeAtPath panePath = some (.pane paneId) := by
  induction layoutNode generalizing panePath with
  | pane layoutPaneId =>
    simp only [findPanePath] at hfi
    split at hfi
    · next heq =>
      obtain rfl : [] = panePath := Option.some.inj hfi
      rw [getNodeAtPath, heq]
    · simp at hfi
  | split splitNode ih =>
    rw [findPanePath_split] at hfi
    obtain ⟨childIndex, child, childPath, rfl, hg, hch⟩ := findPanePathInChildren_some hfi
    rw [Nat.zero_add, getNodeAtPath, hg]
    exact ih child (mem_of_getElem? hg) hch

theorem findPanePathInChildren_isSome {children : List LayoutNode}
    (hcs : ∃ child ∈ children, (child.findPanePath paneId).isSome) (splitChildIndex : Nat) :
    (findPanePathInChildren paneId splitChildIndex children).isSome := by
  induction children generalizing splitChildIndex with
  | nil => simp at hcs
  | cons child children ih =>
    rw [findPanePathInChildren]
    cases hch : child.findPanePath paneId with
    | some childPath => rfl
    | none =>
      refine ih ?_ (splitChildIndex + 1)
      obtain ⟨other, hm, ho⟩ := hcs
      rcases mem_cons.1 hm with rfl | hm
      · rw [hch] at ho
        simp at ho
      · exact ⟨other, hm, ho⟩

theorem findPanePath_isSome (hpa : paneId ∈ layoutNode.listLeafPaneIds) : (layoutNode.findPanePath paneId).isSome := by
  induction layoutNode with
  | pane layoutPaneId =>
    obtain rfl : paneId = layoutPaneId := by simpa using hpa
    simp [findPanePath]
  | split splitNode ih =>
    rw [listLeafPaneIds_split, mem_flatMap] at hpa
    obtain ⟨child, hm, hch⟩ := hpa
    exact findPanePathInChildren_isSome ⟨child, hm, ih child hm hch⟩ 0

/-- What stands at the end of a path is below the tree's leaves. -/
theorem getNodeAtPath_leaves {node : LayoutNode} {layoutPath : List Nat}
    (hno : layoutNode.getNodeAtPath layoutPath = some node) :
    ∃ before after, layoutNode.listLeafPaneIds = before ++ node.listLeafPaneIds ++ after ∧
      ∀ edit, ∃ editedNode, layoutNode.editNodeAtPath edit layoutPath = some editedNode ∧
        editedNode.listLeafPaneIds = before ++ (edit node).listLeafPaneIds ++ after := by
  induction layoutPath generalizing layoutNode with
  | nil =>
    obtain rfl : layoutNode = node := by simpa [getNodeAtPath] using hno
    exact ⟨[], [], by simp, fun edit => ⟨edit layoutNode, by simp [editNodeAtPath], by simp⟩⟩
  | cons splitChildIndex layoutPath ih =>
    cases layoutNode with
    | pane paneId => simp [getNodeAtPath] at hno
    | split splitNode =>
      rw [getNodeAtPath] at hno
      cases hg : splitNode.children[splitChildIndex]? with
      | none =>
        rw [hg] at hno
        simp at hno
      | some child =>
        rw [hg] at hno
        obtain ⟨before, after, hlv, hedit⟩ := ih hno
        obtain ⟨hlt, hch⟩ := List.getElem?_eq_some_iff.1 hg
        have hsp : splitNode.children = splitNode.children.take splitChildIndex ++
            child :: splitNode.children.drop (splitChildIndex + 1) := by
          rw [← hch, cons_getElem_drop_succ, take_append_drop]
        refine ⟨(splitNode.children.take splitChildIndex).flatMap listLeafPaneIds ++ before,
          after ++ (splitNode.children.drop (splitChildIndex + 1)).flatMap listLeafPaneIds, ?_, ?_⟩
        · rw [listLeafPaneIds_split]
          conv_lhs => rw [hsp]
          rw [flatMap_append, flatMap_cons, hlv]
          simp only [append_assoc]
        · intro edit
          obtain ⟨editedChild, heditedChild, heditedLeaves⟩ := hedit edit
          refine ⟨.split { splitNode with children := splitNode.children.set splitChildIndex editedChild }, ?_, ?_⟩
          · rw [editNodeAtPath, hg]
            simp only [heditedChild, Option.map_some]
          · rw [listLeafPaneIds_split]
            simp only
            rw [set_eq_take_append_cons_drop, if_pos hlt, flatMap_append, flatMap_cons, heditedLeaves]
            simp only [append_assoc]

theorem getNodeAtPath_editNodeAtPath_leaf {editedNode : LayoutNode} {firstPath secondPath : List Nat}
    {firstPaneId secondPaneId newPaneId : PaneId} (hf : layoutNode.getNodeAtPath firstPath = some (.pane firstPaneId))
    (hse : layoutNode.getNodeAtPath secondPath = some (.pane secondPaneId)) (hne : firstPath ≠ secondPath)
    (hedit : layoutNode.editNodeAtPath (fun _ => .pane newPaneId) firstPath = some editedNode) :
    editedNode.getNodeAtPath secondPath = some (.pane secondPaneId) := by
  induction firstPath generalizing layoutNode editedNode secondPath with
  | nil =>
    obtain rfl : layoutNode = .pane firstPaneId := by simpa [getNodeAtPath] using hf
    cases secondPath with
    | nil => exact absurd rfl hne
    | cons childIndex secondPath => simp [getNodeAtPath] at hse
  | cons i₀ firstPath ih =>
    cases layoutNode with
    | pane paneId => simp [getNodeAtPath] at hf
    | split splitNode =>
      obtain _ | ⟨secondIndex, secondPath⟩ := secondPath
      · simp [getNodeAtPath] at hse
      · rw [getNodeAtPath] at hf hse
        rw [editNodeAtPath] at hedit
        cases hg : splitNode.children[i₀]? with
        | none =>
          rw [hg] at hf
          simp at hf
        | some child =>
          rw [hg] at hf hedit
          simp only [Option.map_eq_some_iff] at hf hedit
          obtain ⟨editedChild, heditedChild, rfl⟩ := hedit
          rw [getNodeAtPath]
          simp only
          by_cases hindex : i₀ = secondIndex
          · subst hindex
            have hlt := (List.getElem?_eq_some_iff.1 hg).1
            rw [hg] at hse
            rw [List.getElem?_set_self hlt]
            exact ih hf hse (fun h => hne (by rw [h])) heditedChild
          · rw [List.getElem?_set_ne hindex]
            exact hse

end LayoutNode

end Koshi.Layout
