import Mathlib.Tactic
import Koshi.Base.Checked
import Koshi.Layout.Solver

/-!
# Distribution along one axis, checked

The passes of `distribute_axis_cells` with every addition, subtraction, multiplication and cast checked at the type
the source computes it in: `none` where one leaves its type. What the source saturates, saturates here too.
-/

namespace Koshi.Layout

open Base Koshi.Core

structure SizeWeight.WithinTypes (sizeWeight : SizeWeight) : Prop where
  primary : match sizeWeight.primaryConstraint with
    | .flex flexWeight => flexWeight ≤ u32Max
    | .percent percentValue => percentValue ≤ 255
    | .fixed cellCount | .minimum cellCount | .preferred cellCount => cellCount ≤ u16Max
  minimum : ∀ cellCount ∈ sizeWeight.minimumCellCount, cellCount ≤ u16Max
  preferred : ∀ cellCount ∈ sizeWeight.preferredCellCount, cellCount ≤ u16Max
  resize : -2 ^ 31 ≤ sizeWeight.resizeDelta ∧ sizeWeight.resizeDelta < 2 ^ 31

/-! ### The sum repair -/

def trimCellCountsChecked : List Nat → Nat → Option (List Nat)
  | [], _ => some []
  | cellCount :: cellCounts, excessCellCount => do
    let trimmedCellCount ← checkedCast u16Max (min excessCellCount cellCount)
    let keptCellCount ← checkedSub cellCount trimmedCellCount
    let remainingExcess ← checkedSub excessCellCount (min excessCellCount cellCount)
    if remainingExcess = 0 then some (keptCellCount :: cellCounts)
    else do
      let trimmedCellCounts ← trimCellCountsChecked cellCounts remainingExcess
      some (keptCellCount :: trimmedCellCounts)

def repairCellCountSumChecked (childCellCounts : List Nat) (availableCellCount : Nat) : Option (List Nat) := do
  let totalCellCount ← checkedSum u64Max childCellCounts
  if totalCellCount < availableCellCount then do
    let shortfallCellCount ← checkedSub availableCellCount totalCellCount
    let addedCellCount ← checkedCast u16Max shortfallCellCount
    let lastCellCount ← checkedAdd u16Max (childCellCounts.getD (childCellCounts.length - 1) 0) addedCellCount
    some (childCellCounts.set (childCellCounts.length - 1) lastCellCount)
  else if totalCellCount > availableCellCount then do
    let excessCellCount ← checkedSub totalCellCount availableCellCount
    let trimmedCellCounts ← trimCellCountsChecked childCellCounts.reverse excessCellCount
    some trimmedCellCounts.reverse
  else some childCellCounts

/-! ### The shares -/

def claimFixedStepChecked : List Nat × Nat → SizeWeight × Nat → Option (List Nat × Nat)
  | (childCellCounts, remainingCellCount), (weight, childIndex) =>
    match weight.primaryConstraint with
    | .fixed fixedCellCount => do
      let claimedCellCount := min fixedCellCount remainingCellCount
      let remainingCellCount ← checkedSub remainingCellCount claimedCellCount
      some (childCellCounts.set childIndex claimedCellCount, remainingCellCount)
    | _ => some (childCellCounts, remainingCellCount)

def computePercentCellCountChecked (axisCellCount percent : Nat) : Option Nat := do
  let product ← checkedMul u32Max axisCellCount (min percent 100)
  checkedCast u16Max (product / 100)

def claimPercentStepChecked (availableCellCount : Nat) : List Nat × Nat → SizeWeight × Nat → Option (List Nat × Nat)
  | (childCellCounts, remainingCellCount), (weight, childIndex) =>
    match weight.primaryConstraint with
    | .percent percentValue => do
      let requestedCellCount ← computePercentCellCountChecked availableCellCount percentValue
      let claimedCellCount := min requestedCellCount remainingCellCount
      let remainingCellCount ← checkedSub remainingCellCount claimedCellCount
      some (childCellCounts.set childIndex claimedCellCount, remainingCellCount)
    | _ => some (childCellCounts, remainingCellCount)

def shareFlexibleStepChecked (flexibleCellPool totalFlexibleWeight : Nat) :
    List Nat × Nat → Nat × Nat → Option (List Nat × Nat)
  | (childCellCounts, assignedCellCount), (childIndex, flexWeight) => do
    let weightedCellPool ← checkedMul u64Max flexibleCellPool flexWeight
    let shareCellCount ← checkedCast u16Max (weightedCellPool / totalFlexibleWeight)
    let assignedCellCount ← checkedAdd u64Max assignedCellCount shareCellCount
    some (childCellCounts.set childIndex shareCellCount, assignedCellCount)

def addLeftoverStepChecked (childCellCounts : List Nat) (pair : Nat × Nat) : Option (List Nat) := do
  let cellCount ← checkedAdd u16Max (childCellCounts.getD pair.1 0) 1
  some (childCellCounts.set pair.1 cellCount)

def computeShareCellCountsChecked (weights : List SizeWeight) (availableCellCount : Nat) : Option (List Nat) := do
  let claims ← weights.zipIdx.foldlM claimFixedStepChecked (List.replicate weights.length 0, availableCellCount)
  let (childCellCounts, remainingCellCount) ← weights.zipIdx.foldlM (claimPercentStepChecked availableCellCount) claims
  let flexibleChildWeightPairs := listFlexibleChildWeightPairs weights
  let totalFlexibleWeight ← checkedSum u64Max (flexibleChildWeightPairs.map (·.2))
  if flexibleChildWeightPairs.isEmpty then some childCellCounts
  else do
    let (childCellCounts, assignedCellCount) ← flexibleChildWeightPairs.foldlM
      (shareFlexibleStepChecked remainingCellCount totalFlexibleWeight) (childCellCounts, 0)
    let leftoverCellCount ← checkedSub remainingCellCount assignedCellCount
    (flexibleChildWeightPairs.reverse.take leftoverCellCount).foldlM addLeftoverStepChecked childCellCounts

/-! ### Targets, resize deltas and floors -/

def applyResizeDeltaStepChecked (availableCellCount : Nat) (childCellCounts : List Nat) :
    SizeWeight × Nat → Option (List Nat)
  | (weight, childIndex) => do
    let adjustedCellCount ← checkedAddI64 (childCellCounts.getD childIndex 0) weight.resizeDelta
    let cellCount ← checkedCastInt u16Max (min (max adjustedCellCount 0) availableCellCount)
    some (childCellCounts.set childIndex cellCount)

def applyResizeDeltasChecked (childCellCounts : List Nat) (weights : List SizeWeight)
    (availableCellCount : Nat) : Option (List Nat) := do
  let childCellCounts ← weights.zipIdx.foldlM (applyResizeDeltaStepChecked availableCellCount) childCellCounts
  repairCellCountSumChecked childCellCounts availableCellCount

def takeDonorStepChecked (weights : List SizeWeight) (floors : List Nat) (neededCellCount skippedChildIndex : Nat)
    (isFlexibleDonorPass : Bool) :
    List Nat × Nat → Nat → Option (List Nat × Nat)
  | (childCellCounts, takenCellCount), childIndex =>
    if takenCellCount = neededCellCount then some (childCellCounts, takenCellCount)
    else if childIndex = skippedChildIndex ∨ isFlexible (weights.getD childIndex .default) ≠ isFlexibleDonorPass then
      some (childCellCounts, takenCellCount)
    else do
      let spareCellCount := childCellCounts.getD childIndex 0 - floors.getD childIndex 0
      let missingCellCount ← checkedSub neededCellCount takenCellCount
      let givenCellCount := min spareCellCount missingCellCount
      let cellCount ← checkedSub (childCellCounts.getD childIndex 0) givenCellCount
      let takenCellCount ← checkedAdd u16Max takenCellCount givenCellCount
      some (childCellCounts.set childIndex cellCount, takenCellCount)

def takeDonorCellCountChecked (childCellCounts : List Nat) (weights : List SizeWeight) (floors : List Nat)
    (neededCellCount skippedChildIndex : Nat) (donorPool : DonorPool) : Option (List Nat × Nat) := do
  let donorIndexes := (List.range childCellCounts.length).reverse
  let taken ← donorIndexes.foldlM
    (takeDonorStepChecked weights floors neededCellCount skippedChildIndex true) (childCellCounts, 0)
  if donorPool = .flexibleOnly then some taken
  else donorIndexes.foldlM (takeDonorStepChecked weights floors neededCellCount skippedChildIndex false) taken

def applyPreferredCellCountChecked (weights : List SizeWeight) (floors : List Nat) (childCellCounts : List Nat)
    (childIndex : Nat) : Option (List Nat) :=
  match getPreferredCellCount (weights.getD childIndex .default) with
  | none => some childCellCounts
  | some targetCellCount =>
    let currentCellCount := childCellCounts.getD childIndex 0
    if currentCellCount > targetCellCount then
      let surplusCellCount := currentCellCount - max targetCellCount (floors.getD childIndex 0)
      match findSurplusReceiver weights childIndex with
      | some receiverChildIndex => do
        let cellCount ← checkedSub currentCellCount surplusCellCount
        some ((childCellCounts.set childIndex cellCount).modify receiverChildIndex (satAdd16 · surplusCellCount))
      | none => some childCellCounts
    else if currentCellCount < targetCellCount then do
      let neededCellCount ← checkedSub targetCellCount currentCellCount
      let (childCellCounts, takenCellCount) ← takeDonorCellCountChecked childCellCounts weights floors
        neededCellCount childIndex .flexibleOnly
      some (childCellCounts.modify childIndex (satAdd16 · takenCellCount))
    else some childCellCounts

def applyPreferredCellCountsChecked (childCellCounts : List Nat) (weights : List SizeWeight)
    (floors : List Nat) : Option (List Nat) :=
  (List.range weights.length).foldlM (applyPreferredCellCountChecked weights floors) childCellCounts

def clampCellCountToFloorChecked (weights : List SizeWeight) (floors : List Nat) (childCellCounts : List Nat)
    (childIndex : Nat) : Option (List Nat) :=
  let floorCellCount := floors.getD childIndex 0
  let currentCellCount := childCellCounts.getD childIndex 0
  if currentCellCount < floorCellCount then do
    let neededCellCount ← checkedSub floorCellCount currentCellCount
    let (childCellCounts, takenCellCount) ← takeDonorCellCountChecked childCellCounts weights floors
      neededCellCount childIndex .allChildren
    let cellCount ← checkedAdd u16Max (childCellCounts.getD childIndex 0) takenCellCount
    some (childCellCounts.set childIndex cellCount)
  else some childCellCounts

def clampCellCountsToFloorsChecked (childCellCounts : List Nat) (weights : List SizeWeight) (floors : List Nat)
    (availableCellCount : Nat) : Option (List Nat) := do
  let totalFloorCellCount ← checkedSum u64Max floors
  if totalFloorCellCount > availableCellCount then some childCellCounts
  else (List.range childCellCounts.length).foldlM (clampCellCountToFloorChecked weights floors) childCellCounts

def distributeAxisCellsChecked (weights : List SizeWeight) (floors : List Nat)
    (availableCellCount : Nat) : Option (List Nat) := do
  let childCellCounts ← computeShareCellCountsChecked weights availableCellCount
  let childCellCounts ← repairCellCountSumChecked childCellCounts availableCellCount
  let childCellCounts ← applyPreferredCellCountsChecked childCellCounts weights floors
  let childCellCounts ← applyResizeDeltasChecked childCellCounts weights availableCellCount
  clampCellCountsToFloorsChecked childCellCounts weights floors availableCellCount

end Koshi.Layout
