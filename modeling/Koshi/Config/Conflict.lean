import Koshi.Config.Keymap

/-!
# Conflict detection and the keymap merge

Two passes over the same ordered keymap layers, lowest precedence first: `detect_conflicts` of
`koshi-config/src/conflict.rs` judges the effective bindings and reports its findings, `merge_keymaps` of
`keymap_merge.rs` folds the layers into the lookup tables a keypress consults. They share one firing predicate. A
function of the source that pushes onto the list of findings is one that returns the findings it pushes; the
texts of the findings are left out.
-/

namespace Koshi.Config

open Koshi.Core
open Std

structure ModeBindings where
  boundActionByKeySequence : ExtTreeMap KeySequence BoundAction
  removedKeySequences : ExtTreeSet KeySequence

def LayerOrigin.isUserAuthored : LayerOrigin → Bool
  | defaults => false
  | user => true

structure KeymapLayer where
  origin : LayerOrigin
  modeBindingsByName : ExtTreeMap String ModeBindings

/-- Modifiers that merge into the following chord, or a chord of its own. -/
inductive Leader where
  | modifiers (modifierFlags : BindingModifierFlags)
  | chord (keyChord : KeyChord)
  deriving DecidableEq

def builtinModeNames : List String := LockMode.all.map LockMode.getKeymapName

/-! ### The firing judgment -/

/-- Whether one binding can fire, judged by handing it to action resolution. -/
inductive BindingState where
  | live
  | orphan
  | unresolvable
  deriving DecidableEq

/-- Classifies one binding by the call a keypress makes. -/
def classifyBoundAction (boundAction : BoundAction) (registry : ActionRegistry) : BindingState :=
  match resolveAction boundAction.actionReference registry with
  | .ok _ => .live
  | .error (.unregistered _) => .orphan
  | .error (.argumentsRequired _) => .unresolvable

def isSequenceDeadUnderReservedUnlock (modeName : String) (keySequence : KeySequence)
    (reservedUnlockChord : KeyChord) : Bool :=
  modeName = LockMode.locked.getKeymapName && decide (1 < keySequence.chords.length) &&
    keySequence.chords.contains reservedUnlockChord

/-- Whether the sequence holds more chords than the cap allows. -/
def isOverChordDepthLimit (keySequence : KeySequence) (maximumChordDepth : UInt8) : Bool :=
  decide (maximumChordDepth.toNat < keySequence.chords.length)

/-- The inputs the firing judgment reads. -/
structure FiringRules where
  registry : ActionRegistry
  reservedUnlockChord : KeyChord
  maximumChordDepth : UInt8

/-- Whether the binding fires: it resolves, and a keypress can reach it. -/
def isBoundActionFiring (modeName : String) (keySequence : KeySequence) (boundAction : BoundAction)
    (firingRules : FiringRules) : Bool :=
  decide (classifyBoundAction boundAction firingRules.registry = .live) &&
    !isSequenceDeadUnderReservedUnlock modeName keySequence firingRules.reservedUnlockChord &&
    !isOverChordDepthLimit keySequence firingRules.maximumChordDepth

/-! ### Removals -/

def compareModeAndKey : String × KeySequence → String × KeySequence → Ordering :=
  compareLex (compareOn Prod.fst) (compareOn Prod.snd)

instance : TransCmp compareModeAndKey := inferInstanceAs (TransCmp (compareLex _ _))

/-- By mode name and key sequence, the index of the highest layer that removes the key. -/
abbrev RemovalLayerIndex := ExtTreeMap (String × KeySequence) Nat compareModeAndKey

def buildRemovalLayerIndex (layers : List KeymapLayer) (knownModeNames : List String) : RemovalLayerIndex :=
  layers.zipIdx.foldl (fun index (layer, layerIndex) =>
    layer.modeBindingsByName.toList.foldl (fun index (modeName, modeBindings) =>
      if modeName ∈ knownModeNames then
        modeBindings.removedKeySequences.toList.foldl (fun index keySequence =>
          index.insert (modeName, keySequence) layerIndex) index
      else index) index) ∅

def isRemovedByHigherLayer (removalLayerIndex : RemovalLayerIndex) (modeName : String) (keySequence : KeySequence)
    (layerIndex : Nat) : Bool :=
  removalLayerIndex[(modeName, keySequence)]?.any fun removingIndex => decide (layerIndex < removingIndex)

/-! ### The effective bindings -/

/-- By mode name, the winning firing binding of each key and the layer it came from. -/
abbrev EffectiveBindings := ExtTreeMap String (ExtTreeMap KeySequence (LayerOrigin × BoundAction))

/-- The step of `build_effective_bindings` for one binding of one layer. -/
def addEffectiveBinding (removalLayerIndex : RemovalLayerIndex) (firingRules : FiringRules) (layer : KeymapLayer)
    (layerIndex : Nat) (modeName : String) (merged : ExtTreeMap KeySequence (LayerOrigin × BoundAction))
    (keySequence : KeySequence) (boundAction : BoundAction) : ExtTreeMap KeySequence (LayerOrigin × BoundAction) :=
  if isRemovedByHigherLayer removalLayerIndex modeName keySequence layerIndex ||
      !isBoundActionFiring modeName keySequence boundAction firingRules then merged
  else merged.insert keySequence (layer.origin, boundAction)

def addEffectiveModeBindings (removalLayerIndex : RemovalLayerIndex) (firingRules : FiringRules) (layer : KeymapLayer)
    (layerIndex : Nat) (modeName : String) (merged : ExtTreeMap KeySequence (LayerOrigin × BoundAction))
    (modeBindings : ModeBindings) : ExtTreeMap KeySequence (LayerOrigin × BoundAction) :=
  modeBindings.boundActionByKeySequence.toList.foldl (fun merged entry =>
    addEffectiveBinding removalLayerIndex firingRules layer layerIndex modeName merged entry.1 entry.2) merged

def addEffectiveLayer (removalLayerIndex : RemovalLayerIndex) (knownModeNames : List String) (firingRules : FiringRules)
    (effectiveBindings : EffectiveBindings) (layer : KeymapLayer) (layerIndex : Nat) : EffectiveBindings :=
  layer.modeBindingsByName.toList.foldl (fun effectiveBindings entry =>
    if entry.1 ∈ knownModeNames then
      effectiveBindings.insert entry.1
        (addEffectiveModeBindings removalLayerIndex firingRules layer layerIndex entry.1
          (effectiveBindings[entry.1]?.getD ∅) entry.2)
    else effectiveBindings) effectiveBindings

def buildEffectiveBindings (layers : List KeymapLayer) (removalLayerIndex : RemovalLayerIndex)
    (knownModeNames : List String) (firingRules : FiringRules) : EffectiveBindings :=
  layers.zipIdx.foldl (fun effectiveBindings entry =>
    addEffectiveLayer removalLayerIndex knownModeNames firingRules effectiveBindings entry.1 entry.2) ∅

/-! ### Findings -/

inductive ConflictSeverity where
  | warning
  | fatal
  deriving DecidableEq

/-- What the caller does with the user keymap. -/
inductive KeymapVerdict where
  | apply
  | reject
  deriving DecidableEq

/-- One finding of a detection run. -/
inductive ConflictDiagnostic where
  | ambiguousPrefix (modeName : String) (prefixSequence : KeySequence) (prefixActionReference : ActionReference)
      (longerSequence : KeySequence) (longerActionReference : ActionReference)
  | reservedUnlockShadowed (layerOrigin : LayerOrigin) (actionReference : ActionReference)
  | reservedUnlockMissing (reservedUnlockChord : KeyChord)
  | unlockAlternativeTypeable (unlockAlternativeChord : KeyChord)
  | modeCancelBindingMissing (modeName : String) (cancelActionReference : ActionReference)
  | deadUnderReservedUnlock (layerOrigin : LayerOrigin) (keySequence : KeySequence) (actionReference : ActionReference)
  | exceedsChordDepth (layerOrigin : LayerOrigin) (modeName : String) (keySequence : KeySequence)
      (actionReference : ActionReference) (maximumChordDepth : UInt8)
  | argumentsRequired (layerOrigin : LayerOrigin) (modeName : String) (keySequence : KeySequence)
      (actionReference : ActionReference)
  | orphanAction (layerOrigin : LayerOrigin) (modeName : String) (keySequence : KeySequence)
      (actionReference : ActionReference)
  | orphanMode (layerOrigin : LayerOrigin) (modeName : String)
  | typeableBinding (layerOrigin : LayerOrigin) (modeName : String) (keySequence : KeySequence)
      (actionReference : ActionReference)
  | typeableLeader (leader : Leader)
  deriving DecidableEq

/-- The weight of a finding. -/
def ConflictDiagnostic.getSeverity : ConflictDiagnostic → ConflictSeverity
  | reservedUnlockShadowed .. | reservedUnlockMissing .. | unlockAlternativeTypeable ..
  | modeCancelBindingMissing .. => .fatal
  | _ => .warning

/-- Every finding of one detection run, in scan order. -/
structure ConflictReport where
  diagnostics : List ConflictDiagnostic
  deriving DecidableEq

/-- The decision the worst finding demands. -/
def ConflictReport.getVerdict (report : ConflictReport) : KeymapVerdict :=
  if report.diagnostics.any (·.getSeverity = .fatal) then .reject else .apply

/-- Whether the leader is reachable by plain typing. -/
def isLeaderTypeable : Leader → Bool
  | .modifiers modifierFlags => modifierFlags.isTypeable
  | .chord keyChord => keyChord.isTypeable

/-- The warning of one binding of a user-authored layer, most specific reason first. -/
def scanBinding (layer : KeymapLayer) (layerIndex : Nat) (removalLayerIndex : RemovalLayerIndex)
    (firingRules : FiringRules) (modeName : String) (keySequence : KeySequence) (boundAction : BoundAction) :
    List ConflictDiagnostic :=
  if isRemovedByHigherLayer removalLayerIndex modeName keySequence layerIndex then []
  else
    match classifyBoundAction boundAction firingRules.registry with
    | .orphan => [.orphanAction layer.origin modeName keySequence boundAction.actionReference]
    | .unresolvable => [.argumentsRequired layer.origin modeName keySequence boundAction.actionReference]
    | .live =>
      if isSequenceDeadUnderReservedUnlock modeName keySequence firingRules.reservedUnlockChord then
        [.deadUnderReservedUnlock layer.origin keySequence boundAction.actionReference]
      else if isOverChordDepthLimit keySequence firingRules.maximumChordDepth then
        [.exceedsChordDepth layer.origin modeName keySequence boundAction.actionReference firingRules.maximumChordDepth]
      else if (keySequence.chords.head keySequence.nonempty).isTypeable then
        [.typeableBinding layer.origin modeName keySequence boundAction.actionReference]
      else []

def scanLayerBindings (layer : KeymapLayer) (layerIndex : Nat) (removalLayerIndex : RemovalLayerIndex)
    (knownModeNames : List String) (firingRules : FiringRules) : List ConflictDiagnostic :=
  layer.modeBindingsByName.toList.flatMap fun (modeName, modeBindings) =>
    if modeName ∈ knownModeNames then
      modeBindings.boundActionByKeySequence.toList.flatMap fun (keySequence, boundAction) =>
        scanBinding layer layerIndex removalLayerIndex firingRules modeName keySequence boundAction
    else [.orphanMode layer.origin modeName]

/-- `scan_ambiguous_prefixes`: one warning for each bound sequence that strictly opens another of its mode. -/
def scanAmbiguousPrefixes (effectiveBindings : EffectiveBindings) : List ConflictDiagnostic :=
  effectiveBindings.toList.flatMap fun (modeName, modeBindings) =>
    modeBindings.toList.flatMap fun (shorter, shorterBinding) =>
      modeBindings.toList.flatMap fun (longer, longerBinding) =>
        if shorter.chords.length < longer.chords.length ∧ shorter.chords.isPrefixOf longer.chords then
          [.ambiguousPrefix modeName shorter shorterBinding.2.actionReference longer longerBinding.2.actionReference]
        else []

def validateReservedUnlockBinding (effectiveBindings : EffectiveBindings) (reservedUnlockChord : KeyChord) :
    List ConflictDiagnostic :=
  match effectiveBindings[LockMode.locked.getKeymapName]?.bind (·[KeySequence.ofChord reservedUnlockChord]?) with
  | some (layerOrigin, boundAction) =>
    if boundAction.actionReference ≠ unlockBoundAction.actionReference then
      [.reservedUnlockShadowed layerOrigin boundAction.actionReference]
    else []
  | none => [.reservedUnlockMissing reservedUnlockChord]

def cancelActionNameByMode : List (LockMode × String) :=
  [(.panePlacement, "cancel-pane-placement"), (.paneMoveChoice, "cancel-pane-move-choice"),
    (.floatingPaneMove, "cancel-floating-pane-move"), (.floatingPaneTray, "close-floating-pane-tray"),
    (.notificationCenter, "close-notification-center")]

/-- Whether the effective map of the mode binds some key to the action. -/
def hasCancelBinding (effectiveBindings : EffectiveBindings) (lockMode : LockMode) (cancelActionName : String) : Bool :=
  effectiveBindings[lockMode.getKeymapName]?.any fun modeBindings =>
    modeBindings.toList.any fun (_, (_, boundAction)) => boundAction.actionReference = ⟨cancelActionName⟩

def validateModeCancelBindings (effectiveBindings : EffectiveBindings) : List ConflictDiagnostic :=
  cancelActionNameByMode.flatMap fun (lockMode, cancelActionName) =>
    if hasCancelBinding effectiveBindings lockMode cancelActionName then []
    else [.modeCancelBindingMissing lockMode.getKeymapName ⟨cancelActionName⟩]

/-- The firing rules of one detection or merge run. -/
def firingRulesFor (unlockAlternative : Option KeyChord) (maximumChordDepth : UInt8) (registry : ActionRegistry) :
    FiringRules :=
  ⟨registry, resolveUnlockChord unlockAlternative, maximumChordDepth⟩

def judgedBindings (layers : List KeymapLayer) (unlockAlternative : Option KeyChord) (maximumChordDepth : UInt8)
    (registry : ActionRegistry) : EffectiveBindings :=
  buildEffectiveBindings layers (buildRemovalLayerIndex layers builtinModeNames) builtinModeNames
    (firingRulesFor unlockAlternative maximumChordDepth registry)

def detectConflicts (layers : List KeymapLayer) (leader : Leader) (unlockAlternative : Option KeyChord)
    (maximumChordDepth : UInt8) (registry : ActionRegistry) : ConflictReport :=
  let removalLayerIndex := buildRemovalLayerIndex layers builtinModeNames
  let firingRules := firingRulesFor unlockAlternative maximumChordDepth registry
  let effectiveBindings := judgedBindings layers unlockAlternative maximumChordDepth registry
  { diagnostics :=
      (if isLeaderTypeable leader then [.typeableLeader leader] else []) ++
      (match unlockAlternative with
        | some chord => if chord.isTypeable then [.unlockAlternativeTypeable chord] else []
        | none => []) ++
      (layers.zipIdx.filter (·.1.origin.isUserAuthored)).flatMap (fun (layer, layerIndex) =>
        scanLayerBindings layer layerIndex removalLayerIndex builtinModeNames firingRules) ++
      scanAmbiguousPrefixes effectiveBindings ++
      validateReservedUnlockBinding effectiveBindings (resolveUnlockChord unlockAlternative) ++
      validateModeCancelBindings effectiveBindings }

/-! ### The merge -/

def mergeBinding (layers : List KeymapLayer) (removalLayerIndex : RemovalLayerIndex) (firingRules : FiringRules)
    (layer : KeymapLayer) (layerIndex : Nat) (modeName : String) (merged : MergedModeKeymap) (keySequence : KeySequence)
    (boundAction : BoundAction) : MergedModeKeymap :=
  if !isBoundActionFiring modeName keySequence boundAction firingRules then merged
  else if isRemovedByHigherLayer removalLayerIndex modeName keySequence layerIndex then
    if !layer.origin.isUserAuthored then
      -- the highest removing layer, which the check above found
      match removalLayerIndex[(modeName, keySequence)]?.bind (layers[·]?) with
      | some removingLayer =>
        { merged with
          unboundDefaultBindingsByKeySequence := merged.unboundDefaultBindingsByKeySequence.insert keySequence
            ⟨boundAction, .removed removingLayer.origin⟩ }
      | none => merged
    else merged
  else if layer.origin.isUserAuthored then
    { merged with
      userBindingsByKeySequence := merged.userBindingsByKeySequence.insert keySequence ⟨boundAction, layer.origin⟩ }
  else
    { merged with
      defaultBindingsByKeySequence := merged.defaultBindingsByKeySequence.insert keySequence boundAction }

def mergeModeBindings (layers : List KeymapLayer) (removalLayerIndex : RemovalLayerIndex) (firingRules : FiringRules)
    (layer : KeymapLayer) (layerIndex : Nat) (modeName : String) (merged : MergedModeKeymap)
    (modeBindings : ModeBindings) : MergedModeKeymap :=
  modeBindings.boundActionByKeySequence.toList.foldl (fun merged entry =>
    mergeBinding layers removalLayerIndex firingRules layer layerIndex modeName merged entry.1 entry.2)
    { merged with
      removedKeySequences := modeBindings.removedKeySequences.toList.foldl .insert merged.removedKeySequences }

/-- Moves the default a user entry displaced to the unbound defaults. -/
def displaceDefault (merged : MergedModeKeymap) (keySequence : KeySequence) (mergedBinding : MergedBinding) :
    MergedModeKeymap :=
  match merged.defaultBindingsByKeySequence[keySequence]? with
  | some boundAction =>
    { merged with
      defaultBindingsByKeySequence := merged.defaultBindingsByKeySequence.erase keySequence
      unboundDefaultBindingsByKeySequence := merged.unboundDefaultBindingsByKeySequence.insert keySequence
        ⟨boundAction, .rebound mergedBinding.layerOrigin⟩ }
  | none => merged

/-- The last loop of `merge_keymaps` over one mode's tables. -/
def displaceDefaults (merged : MergedModeKeymap) : MergedModeKeymap :=
  merged.userBindingsByKeySequence.toList.foldl (fun displaced entry => displaceDefault displaced entry.1
    entry.2) merged

def mergeLayer (layers : List KeymapLayer) (removalLayerIndex : RemovalLayerIndex) (knownModeNames : List String)
    (firingRules : FiringRules) (merged : ExtTreeMap String MergedModeKeymap) (layer : KeymapLayer) (layerIndex : Nat) :
    ExtTreeMap String MergedModeKeymap :=
  layer.modeBindingsByName.toList.foldl (fun merged entry =>
    if entry.1 ∈ knownModeNames then
      merged.insert entry.1
        (mergeModeBindings layers removalLayerIndex firingRules layer layerIndex entry.1
          (merged[entry.1]?.getD .empty) entry.2)
    else merged) merged

def mergeKeymaps (layers : List KeymapLayer) (unlockAlternative : Option KeyChord) (maximumChordDepth : UInt8)
    (registry : ActionRegistry) : MergedKeymap :=
  let removalLayerIndex := buildRemovalLayerIndex layers builtinModeNames
  let firingRules := firingRulesFor unlockAlternative maximumChordDepth registry
  let merged := layers.zipIdx.foldl (fun merged entry =>
    mergeLayer layers removalLayerIndex builtinModeNames firingRules merged entry.1 entry.2) ∅
  ⟨merged.map fun _ modeKeymap => displaceDefaults modeKeymap⟩

def KeymapHintCatalog.fromKeymapLayers (layers : List KeymapLayer) (chordTimeoutMs whichKeyDelayMs : Nat)
    (unlockAlternative : Option KeyChord) (maximumChordDepth : UInt8) (registry : ActionRegistry) :
    KeymapHintCatalog where
  mergedKeymap := mergeKeymaps layers unlockAlternative maximumChordDepth registry
  chordTimeout := chordTimeoutMs
  whichKeyDelay := whichKeyDelayMs
  unlockChord := resolveUnlockChord unlockAlternative

end Koshi.Config
