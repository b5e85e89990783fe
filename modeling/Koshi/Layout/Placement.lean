import Mathlib.Tactic
import Koshi.Layout.Edit
import Koshi.Layout.Solver

/-!
# Pane placement

Moving one existing pane to a slot the user sees (`koshi-layout/src/placement.rs`): a swap exchanges two leaves,
an insertion takes the source leaf out and splits a chosen span beside it, a stack adds the source to the stack
holding a target. The outer `Option` is `none` where the source reaches an `unreachable!` or an `expect`.
-/

namespace Koshi.Layout

open Koshi.Core

/-- The visible span a pane is inserted beside. -/
inductive PanePlacementAnchor where
  | pane (paneId : PaneId)
  | group (paneIds : List PaneId)
  | tab
  deriving DecidableEq, Repr

/-- Where a placement puts the source pane. -/
inductive PlacementTarget where
  | swap (targetPaneId : PaneId)
  | insert (anchor : PanePlacementAnchor) (direction : Direction)
  | stack (targetPaneId : PaneId)
  deriving DecidableEq, Repr

inductive PlacementError where
  | sourcePaneNotFound (paneId : PaneId)
  | targetPaneNotFound (paneId : PaneId)
  | anchorIsSource (paneId : PaneId)
  | groupPaneDuplicated (paneId : PaneId)
  | groupIsNotOneSubtree (paneIds : List PaneId)
  | anchorInsideStack (stackPaneIds : List PaneId)
  | paneInBothTrees (paneId : PaneId)
  | destinationTooSmall (requiredSize : RequiredSize) (availableSize : Size)
  deriving DecidableEq, Repr

structure CrossTabPlacement where
  sourceTree : Option LayoutNode
  destinationTree : LayoutNode

def sortPaneIds (paneIds : List PaneId) : List PaneId := paneIds.mergeSort fun first second => first.uuid ≤ second.uuid

/-! ### Finding spans -/

def hasLeafSet (wantedPaneIds : List PaneId) (layoutNode : LayoutNode) : Bool :=
  layoutNode.listLeafPaneIds.length = wantedPaneIds.length ∧ sortPaneIds layoutNode.listLeafPaneIds = wantedPaneIds

mutual

def findSplitInSubtree (wantedPaneIds : List PaneId) : LayoutNode → Option (List Nat)
  | .pane paneId => if hasLeafSet wantedPaneIds (.pane paneId) then some [] else none
  | .split ⟨direction, children, weights, activeChildIndex⟩ =>
    if hasLeafSet wantedPaneIds (.split ⟨direction, children, weights, activeChildIndex⟩) then some []
    else findSplitInChildren wantedPaneIds 0 children

def findSplitInChildren (wantedPaneIds : List PaneId) : Nat → List LayoutNode → Option (List Nat)
  | _, [] => none
  | childIndex, child :: children =>
    match findSplitInSubtree wantedPaneIds child with
    | some nodePath => some (childIndex :: nodePath)
    | none => findSplitInChildren wantedPaneIds (childIndex + 1) children

end

variable (layoutTree : LayoutNode)

def findSplitPathByLeafSet (paneIds : List PaneId) : Option (List Nat) :=
  findSplitInSubtree (sortPaneIds paneIds) layoutTree

def findOutermostStackAbove (nodePath : List Nat) : Option (Option (List PaneId)) := do
  match ← layoutTree.findStackDepth nodePath (List.range nodePath.length) with
  | none => some none
  | some stackDepth => do
    let stackNode ← layoutTree.getNodeAtPath (nodePath.take stackDepth)
    some (some stackNode.listLeafPaneIds)

/-- The first check a group's pane ids fail, in order: repeated, or not in the tree. -/
def validateGroupPaneIds (destinationTree : LayoutNode) : (seenPaneIds groupPaneIds : List PaneId) →
    Except PlacementError Unit
  | _, [] => .ok ()
  | seenPaneIds, groupPaneId :: groupPaneIds =>
    if seenPaneIds.contains groupPaneId then .error (.groupPaneDuplicated groupPaneId)
    else if !destinationTree.hasPane groupPaneId then .error (.targetPaneNotFound groupPaneId)
    else validateGroupPaneIds destinationTree (groupPaneId :: seenPaneIds) groupPaneIds

/-- The path of the node whose leaf set is exactly `groupPaneIds`. -/
def findGroupAnchorPath (destinationTree : LayoutNode) (sourcePaneId : PaneId) (groupPaneIds : List PaneId) :
    Except PlacementError (List Nat) :=
  if groupPaneIds = [] then .error (.groupIsNotOneSubtree [])
  else
    match validateGroupPaneIds destinationTree [] groupPaneIds with
    | .error placementError => .error placementError
    | .ok () =>
      if groupPaneIds.all (· == sourcePaneId) then .error (.anchorIsSource sourcePaneId)
      else
        match findSplitPathByLeafSet destinationTree groupPaneIds with
        | none => .error (.groupIsNotOneSubtree groupPaneIds)
        | some nodePath => .ok nodePath

def findAnchorPath (destinationTree : LayoutNode) (sourcePaneId : PaneId) :
    PanePlacementAnchor → Except PlacementError (List Nat)
  | .tab => .ok []
  | .pane anchorPaneId =>
    if anchorPaneId = sourcePaneId then .error (.anchorIsSource sourcePaneId)
    else
      match destinationTree.findPanePath anchorPaneId with
      | none => .error (.targetPaneNotFound anchorPaneId)
      | some panePath => .ok panePath
  | .group groupPaneIds => findGroupAnchorPath destinationTree sourcePaneId groupPaneIds

/-- Checks the anchor against the tree as it stands before the source leaf is removed. -/
def validatePlacementAnchor (destinationTree : LayoutNode) (sourcePaneId : PaneId)
    (placementAnchor : PanePlacementAnchor) : Option (Except PlacementError Unit) :=
  match findAnchorPath destinationTree sourcePaneId placementAnchor with
  | .error placementError => some (.error placementError)
  | .ok placementAnchorPath =>
    (findOutermostStackAbove destinationTree placementAnchorPath).map fun stackPaneIds =>
      match stackPaneIds with
      | some stackPaneIds => .error (.anchorInsideStack stackPaneIds)
      | none => .ok ()

/-! ### Carrying a placement out -/

/-- Normalization with every leaf live. -/
def normalizeAllLeaves : Option LayoutNode := do
  let normalizedLayoutTree ← normalizeLayoutTree layoutTree.listLeafPaneIds layoutTree
  normalizedLayoutTree

def validateLayoutFit (tabRect : Rect) (paneSizing : PaneSizing) : Except PlacementError LayoutNode :=
  if !isLayoutWithinRect layoutTree tabRect paneSizing then
    .error (.destinationTooSmall (computeMinimumSize paneSizing layoutTree) tabRect.size)
  else .ok layoutTree

def splitBesideAnchor (insertedNode : LayoutNode) (direction : Direction) (placementAnchorSubtree : LayoutNode) :
    LayoutNode :=
  let splitChildren := match direction with
    | .right | .down => [placementAnchorSubtree, insertedNode]
    | .left | .up => [insertedNode, placementAnchorSubtree]
  .split (.withEqualWeights (computeSplitDirection direction) splitChildren)

def findInsertionPath (destinationTree insertedNode : LayoutNode) : PanePlacementAnchor → Option (List Nat)
  | .tab => some []
  | .pane anchorPaneId => destinationTree.findPanePath anchorPaneId
  | .group groupPaneIds =>
    findSplitPathByLeafSet destinationTree (groupPaneIds.filter fun groupPaneId => !insertedNode.hasPane groupPaneId)

/-- Splits the node the anchor names so `insertedNode` sits on its `direction` side, then normalizes the whole
tree. -/
def insertLayoutNodeBesideAnchor (destinationTree insertedNode : LayoutNode) (placementAnchor : PanePlacementAnchor)
    (direction : Direction) : Option LayoutNode := do
  let placementAnchorPath ← findInsertionPath destinationTree insertedNode placementAnchor
  let insertedLayoutTree ← destinationTree.editNodeAtPath (splitBesideAnchor insertedNode direction) placementAnchorPath
  normalizeAllLeaves insertedLayoutTree

/-- Adds `sourcePaneIds` to the stack of `targetPaneId`, then normalizes the whole tree. -/
def stackPanesOntoTarget (sourcePaneIds : List PaneId) (targetPaneId : PaneId) :
    Option (Except PlacementError LayoutNode) := do
  match ← addPanesToStack layoutTree targetPaneId sourcePaneIds with
  | .error _ => some (.error (.targetPaneNotFound targetPaneId))
  | .ok stackedLayoutTree => do
    let normalizedLayoutTree ← normalizeAllLeaves stackedLayoutTree
    some (.ok normalizedLayoutTree)

/-- Two leaves exchanged along their paths. -/
def swapLeaves (sourcePanePath targetPanePath : List Nat) (sourcePaneId targetPaneId : PaneId) : Option LayoutNode := do
  let swappedLayoutTree ← layoutTree.editNodeAtPath (fun _ => .pane targetPaneId) sourcePanePath
  swappedLayoutTree.editNodeAtPath (fun _ => .pane sourcePaneId) targetPanePath

/-- Places `sourcePaneId` at `placementTarget` inside its own layout tree. -/
def placePaneWithinTree (sourcePaneId : PaneId) (placementTarget : PlacementTarget) (layoutRect : Rect)
    (paneSizing : PaneSizing) : Option (Except PlacementError LayoutNode) :=
  match layoutTree.findPanePath sourcePaneId with
  | none => some (.error (.sourcePaneNotFound sourcePaneId))
  | some sourcePanePath =>
    match placementTarget with
    | .swap targetPaneId =>
      if targetPaneId = sourcePaneId then some (.ok layoutTree)
      else
        match layoutTree.findPanePath targetPaneId with
        | none => some (.error (.targetPaneNotFound targetPaneId))
        | some targetPanePath => do
          let swappedLayoutTree ← swapLeaves layoutTree sourcePanePath targetPanePath sourcePaneId targetPaneId
          some (validateLayoutFit swappedLayoutTree layoutRect paneSizing)
    | .insert placementAnchor direction => do
      match ← validatePlacementAnchor layoutTree sourcePaneId placementAnchor with
      | .error placementError => some (.error placementError)
      | .ok () =>
        match removeLeaf sourcePaneId layoutTree with
        | .paneNotFound => none
        | .subtreeEmpty => some (.ok (.pane sourcePaneId))
        | .removed destinationTree => do
          let insertedLayoutTree ←
            insertLayoutNodeBesideAnchor destinationTree (.pane sourcePaneId) placementAnchor direction
          some (validateLayoutFit insertedLayoutTree layoutRect paneSizing)
    | .stack targetPaneId =>
      if targetPaneId = sourcePaneId then some (.ok layoutTree)
      else if !layoutTree.hasPane targetPaneId then some (.error (.targetPaneNotFound targetPaneId))
      else
        match removeLeaf sourcePaneId layoutTree with
        | .paneNotFound | .subtreeEmpty => none
        | .removed removedLayoutTree => do
          match ← stackPanesOntoTarget removedLayoutTree [sourcePaneId] targetPaneId with
          | .error placementError => some (.error placementError)
          | .ok stackedLayoutTree => some (validateLayoutFit stackedLayoutTree layoutRect paneSizing)

/-- `sourceTree` without the leaf `sourcePaneId`, normalized, or no tree when that leaf was its only one. -/
def removeSourceLeaf (sourceTree : LayoutNode) (sourcePaneId : PaneId) : Option (Option LayoutNode) := do
  match ← removePaneAndNormalize sourceTree sourcePaneId with
  | .ok remainingSourceTree => some (some remainingSourceTree)
  | .error (.lastPane _) => some none
  | .error (.paneNotFound _) => none

/-- Places `sourcePaneId`, a leaf of `sourceTree`, at `placementTarget` in a different tab's tree. -/
def placePaneAcrossTabs (sourceTree : LayoutNode) (sourcePaneId : PaneId) (destinationTree : LayoutNode)
    (placementTarget : PlacementTarget) (destinationTabRect : Rect) (paneSizing : PaneSizing) :
    Option (Except PlacementError CrossTabPlacement) :=
  if destinationTree.hasPane sourcePaneId then some (.error (.paneInBothTrees sourcePaneId))
  else
    match sourceTree.findPanePath sourcePaneId with
    | none => some (.error (.sourcePaneNotFound sourcePaneId))
    | some sourcePanePath =>
      match placementTarget with
      | .swap targetPaneId =>
        if sourceTree.hasPane targetPaneId then some (.error (.paneInBothTrees targetPaneId))
        else
          match destinationTree.findPanePath targetPaneId with
          | none => some (.error (.targetPaneNotFound targetPaneId))
          | some targetPanePath => do
            let swappedSourceTree ← sourceTree.editNodeAtPath (fun _ => .pane targetPaneId) sourcePanePath
            let swappedDestinationTree ← destinationTree.editNodeAtPath (fun _ => .pane sourcePaneId) targetPanePath
            some ((validateLayoutFit swappedDestinationTree destinationTabRect paneSizing).map fun destinationTree =>
              ⟨some swappedSourceTree, destinationTree⟩)
      | .insert placementAnchor direction => do
        match ← validatePlacementAnchor destinationTree sourcePaneId placementAnchor with
        | .error placementError => some (.error placementError)
        | .ok () => do
          let remainingSourceTree ← removeSourceLeaf sourceTree sourcePaneId
          let insertedLayoutTree ←
            insertLayoutNodeBesideAnchor destinationTree (.pane sourcePaneId) placementAnchor direction
          some ((validateLayoutFit insertedLayoutTree destinationTabRect paneSizing).map fun destinationTree =>
            ⟨remainingSourceTree, destinationTree⟩)
      | .stack targetPaneId => do
        match ← stackPanesOntoTarget destinationTree [sourcePaneId] targetPaneId with
        | .error placementError => some (.error placementError)
        | .ok stackedLayoutTree => do
          let remainingSourceTree ← removeSourceLeaf sourceTree sourcePaneId
          some ((validateLayoutFit stackedLayoutTree destinationTabRect paneSizing).map fun destinationTree =>
            ⟨remainingSourceTree, destinationTree⟩)

def placeDockingTreeInTab (layoutTree dockingTree : LayoutNode) (placementTarget : PlacementTarget) (tabRect : Rect)
    (paneSizing : PaneSizing) : Option (Except PlacementError LayoutNode) :=
  match dockingTree.listLeafPaneIds with
  | [] => none
  | firstDockingPaneId :: otherDockingPaneIds =>
    let dockingPaneIds := firstDockingPaneId :: otherDockingPaneIds
    match dockingPaneIds.find? (layoutTree.hasPane ·) with
    | some paneId => some (.error (.paneInBothTrees paneId))
    | none =>
      match placementTarget with
      | .swap _ => some (.error (.sourcePaneNotFound firstDockingPaneId))
      | .insert placementAnchor direction => do
        match ← validatePlacementAnchor layoutTree firstDockingPaneId placementAnchor with
        | .error placementError => some (.error placementError)
        | .ok () => do
          let placedLayoutTree ← insertLayoutNodeBesideAnchor layoutTree dockingTree placementAnchor direction
          some (validateLayoutFit placedLayoutTree tabRect paneSizing)
      | .stack targetPaneId => do
        match ← stackPanesOntoTarget layoutTree dockingPaneIds targetPaneId with
        | .error placementError => some (.error placementError)
        | .ok placedLayoutTree => some (validateLayoutFit placedLayoutTree tabRect paneSizing)

end Koshi.Layout
