import Mathlib.Tactic
import Koshi.Layout.Path
import Koshi.Layout.Normalize

/-!
# Structural edits to the layout tree

Splitting panes in, stacking them and taking them out (`koshi-layout/src/edit.rs`). Every edit is pure: it gives a new
tree, or an error and no tree. The outer `Option` is `none` where the source panics.
-/

namespace Koshi.Layout

open Koshi.Core

/-- A rejected split or stack edit. -/
inductive SplitError where
  | paneNotFound (targetPaneId : PaneId)
  deriving DecidableEq, Repr

/-- A rejected removal. -/
inductive RemoveError where
  | paneNotFound (paneId : PaneId)
  | lastPane (paneId : PaneId)
  deriving DecidableEq, Repr

/-- The split of an operand and the new pane with equal weights: `right` and `down` put the new pane after the
operand, `left` and `up` before it. -/
def buildOperandSplit (newPaneId : PaneId) (direction : Direction) (existingPaneSubtree : LayoutNode) : LayoutNode :=
  let splitChildren := match direction with
    | .right | .down => [existingPaneSubtree, .pane newPaneId]
    | .left | .up => [.pane newPaneId, existingPaneSubtree]
  .split (.withEqualWeights (computeSplitDirection direction) splitChildren)

variable (layoutTree : LayoutNode)

/-- Splits next to `targetPaneId`, placing `newPaneId` beside it. The operand is the outermost stack on the path to
the target, kept whole, or else the target's leaf. -/
def splitLeaf (targetPaneId newPaneId : PaneId) (direction : Direction) : Option (Except SplitError LayoutNode) :=
  match layoutTree.findPanePath targetPaneId with
  | none => some (.error (.paneNotFound targetPaneId))
  | some panePath => do
    let stackDepth ← layoutTree.findStackDepth panePath (List.range panePath.length)
    let splitOperandDepth := stackDepth.getD panePath.length
    let editedLayoutTree ← layoutTree.editNodeAtPath (buildOperandSplit newPaneId direction)
      (panePath.take splitOperandDepth)
    some (.ok editedLayoutTree)

def appendStackMembers (newPaneIds : List PaneId) : LayoutNode → LayoutNode
  | .pane paneId => .pane paneId
  | .split splitNode => .split { splitNode with
      children := splitNode.children ++ newPaneIds.map LayoutNode.pane
      weights := splitNode.weights ++ List.replicate newPaneIds.length SizeWeight.default }

def addPanesToStack (anchorPaneId : PaneId) (newPaneIds : List PaneId) : Option (Except SplitError LayoutNode) :=
  if !layoutTree.hasPane anchorPaneId then some (.error (.paneNotFound anchorPaneId))
  else if newPaneIds = [] then some (.ok layoutTree)
  else do
    let panePath ← layoutTree.findPanePath anchorPaneId
    match ← layoutTree.findStackDepth panePath (List.range panePath.length).reverse with
    | some stackDepth => do
      let editedLayoutTree ← layoutTree.editNodeAtPath (appendStackMembers newPaneIds) (panePath.take stackDepth)
      some (.ok editedLayoutTree)
    | none => do
      let stack := SplitNode.fromStackedPaneIds (anchorPaneId :: newPaneIds) 0
      let editedLayoutTree ← layoutTree.editNodeAtPath (fun _ => .split stack) panePath
      some (.ok editedLayoutTree)

/-! ### Removing a leaf -/

/-- What happened below while looking for the leaf to remove. -/
inductive PaneRemoval where
  | paneNotFound
  /-- Removed; the subtree is still alive. -/
  | removed (layoutNode : LayoutNode)
  /-- Removed, and this whole node is now empty. -/
  | subtreeEmpty

inductive ChildRemoval where
  | paneNotFound
  | removed (children : List LayoutNode)
  | childEmpty (childIndex : Nat)

/-- Keeps the active child index on the same child after the one at `removedChildIndex` is gone, clamped into
bounds. -/
def setActiveChildAfterRemoval (splitNode : SplitNode LayoutNode) (removedChildIndex : Nat) : SplitNode LayoutNode :=
  let splitNode :=
    if removedChildIndex < splitNode.activeChildIndex then
      { splitNode with activeChildIndex := splitNode.activeChildIndex - 1 }
    else splitNode
  { splitNode with activeChildIndex := splitNode.getActiveChildIndex }

def dropEmptiedChild (splitNode : SplitNode LayoutNode) (childIndex : Nat) : PaneRemoval :=
  let splitNode := { splitNode with
    children := splitNode.children.eraseIdx childIndex
    weights := splitNode.weights.eraseIdx childIndex }
  if splitNode.children = [] then .subtreeEmpty
  else .removed (.split (setActiveChildAfterRemoval splitNode childIndex))

mutual

def removeLeaf (paneId : PaneId) : LayoutNode → PaneRemoval
  | .pane layoutPaneId => if layoutPaneId = paneId then .subtreeEmpty else .paneNotFound
  | .split ⟨direction, children, weights, activeChildIndex⟩ =>
    match removeLeafInChildren paneId 0 children with
    | .paneNotFound => .paneNotFound
    | .removed editedChildren => .removed (.split ⟨direction, editedChildren, weights, activeChildIndex⟩)
    | .childEmpty childIndex => dropEmptiedChild ⟨direction, children, weights, activeChildIndex⟩ childIndex

def removeLeafInChildren (paneId : PaneId) : Nat → List LayoutNode → ChildRemoval
  | _, [] => .paneNotFound
  | childIndex, child :: children =>
    match removeLeaf paneId child with
    | .removed editedChild => .removed (editedChild :: children)
    | .subtreeEmpty => .childEmpty childIndex
    | .paneNotFound =>
      match removeLeafInChildren paneId (childIndex + 1) children with
      | .removed editedChildren => .removed (child :: editedChildren)
      | other => other

end

/-- Removes the leaf holding `paneId`. -/
def removePane (paneId : PaneId) : Except RemoveError LayoutNode :=
  match removeLeaf paneId layoutTree with
  | .paneNotFound => .error (.paneNotFound paneId)
  | .subtreeEmpty => .error (.lastPane paneId)
  | .removed editedLayoutTree =>
    -- only empty splits may remain
    if editedLayoutTree.listLeafPaneIds = [] then .error (.lastPane paneId) else .ok editedLayoutTree

/-- `removePane`, then normalization with every leaf live. -/
def removePaneAndNormalize (paneId : PaneId) : Option (Except RemoveError LayoutNode) :=
  match removePane layoutTree paneId with
  | .error removeError => some (.error removeError)
  | .ok editedLayoutTree =>
    (normalizeLayoutTree editedLayoutTree.listLeafPaneIds editedLayoutTree).map fun normalizedLayoutTree =>
      .ok (normalizedLayoutTree.getD editedLayoutTree)

end Koshi.Layout
