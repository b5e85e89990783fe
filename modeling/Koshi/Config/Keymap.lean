import Koshi.Base.PrefixOrder
import Koshi.Core.Key
import Koshi.Core.Action

/-!
# The merged keymap and its lookups

The lookup tables of `koshi-config/src/keymap_merge.rs` and the catalog of `hints.rs` that a keypress consults:
per mode the user-authored bindings and the surviving defaults, both sorted by key sequence. The hint-bar lists
of the catalog are left out: no lookup reads them.
-/

namespace Koshi.Config

open Koshi.Core
open Std

/-- The action a key sequence triggers. -/
structure BoundAction where
  actionReference : ActionReference
  deriving DecidableEq

def unlockBoundAction : BoundAction := ⟨⟨"unlock"⟩⟩

/-- Which configuration surface authored a keymap layer, lowest precedence first. -/
inductive LayerOrigin where
  | defaults
  | user
  deriving DecidableEq

/-- One merged binding: what fires on the key, and the layer that authored it. -/
structure MergedBinding where
  boundAction : BoundAction
  layerOrigin : LayerOrigin
  deriving DecidableEq

/-- The user-authored entry that displaced a built-in binding. -/
inductive DefaultDisplacement where
  | rebound (layerOrigin : LayerOrigin)
  | removed (layerOrigin : LayerOrigin)
  deriving DecidableEq

/-- One built-in binding the user displaced, and the entry that displaced it. -/
structure UnboundDefaultBinding where
  boundAction : BoundAction
  defaultDisplacement : DefaultDisplacement
  deriving DecidableEq

/-- One mode's merged lookup tables, with its removal and displacement records. -/
structure MergedModeKeymap where
  userBindingsByKeySequence : ExtTreeMap KeySequence MergedBinding
  defaultBindingsByKeySequence : ExtTreeMap KeySequence BoundAction
  removedKeySequences : ExtTreeSet KeySequence
  unboundDefaultBindingsByKeySequence : ExtTreeMap KeySequence UnboundDefaultBinding

def MergedModeKeymap.empty : MergedModeKeymap := ⟨∅, ∅, ∅, ∅⟩

structure MergedKeymap where
  modeKeymapByName : ExtTreeMap String MergedModeKeymap

/-- `KeybindingsConfig::RESERVED_UNLOCK`, `<C-l>`. -/
def reservedUnlock : KeyChord := ⟨.ctrl, .char 'l'⟩

/-- The chord that unlocks a locked client: the configured alternative, else the reserved one. -/
def resolveUnlockChord (unlockAlternative : Option KeyChord) : KeyChord := unlockAlternative.getD reservedUnlock

/-- The part of `KeymapHintCatalog` that key resolution reads. Durations are in milliseconds. -/
structure KeymapHintCatalog where
  mergedKeymap : MergedKeymap
  chordTimeout : Nat
  whichKeyDelay : Nat
  unlockChord : KeyChord

/-- Exact and longer-prefix results for one sequence lookup. -/
@[ext] structure KeyMatch where
  exactBoundAction : Option BoundAction
  hasLongerKeySequence : Bool
  deriving DecidableEq

/-- Whether the map holds a key longer than `keySequence` that opens with it. Only the first key after
`keySequence` in sort order is read. -/
def hasLongerKeySequenceStartingWith {binding : Type} (bindingsByKeySequence : ExtTreeMap KeySequence binding)
    (keySequence : KeySequence) : Bool :=
  (Base.rangeAfter bindingsByKeySequence keySequence).head?.any fun candidate =>
    keySequence.chords.isPrefixOf candidate.1.chords

variable (modeKeymap : MergedModeKeymap)

namespace MergedModeKeymap

/-- The binding a key sequence fires: the user-authored entry ahead of the surviving default. -/
def findBoundAction (keySequence : KeySequence) : Option BoundAction :=
  (modeKeymap.userBindingsByKeySequence[keySequence]?.map MergedBinding.boundAction).or
    modeKeymap.defaultBindingsByKeySequence[keySequence]?

/-- The two lookups of `match_sequence` in one mode's tables. -/
def matchSequence (keySequence : KeySequence) : KeyMatch where
  exactBoundAction := modeKeymap.findBoundAction keySequence
  hasLongerKeySequence :=
    hasLongerKeySequenceStartingWith modeKeymap.userBindingsByKeySequence keySequence ||
      hasLongerKeySequenceStartingWith modeKeymap.defaultBindingsByKeySequence keySequence

end MergedModeKeymap

/-- Resolves one pending sequence in a built-in mode. -/
def KeymapHintCatalog.matchSequence (catalog : KeymapHintCatalog) (lockMode : LockMode) (keySequence : KeySequence) :
    KeyMatch :=
  match catalog.mergedKeymap.modeKeymapByName[lockMode.getKeymapName]? with
  | none => ⟨none, false⟩
  | some modeKeymap => modeKeymap.matchSequence keySequence

/-! ### What a lookup says -/

/-- The key sequences a mode's tables bind. -/
def MergedModeKeymap.Binds (keySequence : KeySequence) : Prop :=
  keySequence ∈ modeKeymap.userBindingsByKeySequence ∨ keySequence ∈ modeKeymap.defaultBindingsByKeySequence

def KeymapHintCatalog.Binds (catalog : KeymapHintCatalog) (lockMode : LockMode) (keySequence : KeySequence) : Prop :=
  ∃ modeKeymap, catalog.mergedKeymap.modeKeymapByName[lockMode.getKeymapName]? = some modeKeymap ∧
    modeKeymap.Binds keySequence

theorem MergedModeKeymap.isSome_findBoundAction_iff (keySequence : KeySequence) :
    (modeKeymap.findBoundAction keySequence).isSome ↔ modeKeymap.Binds keySequence := by
  rw [findBoundAction, Option.isSome_or, Option.isSome_map, Bool.or_eq_true, Binds, ExtTreeMap.mem_iff_isSome_getElem?,
    ExtTreeMap.mem_iff_isSome_getElem?]

/-- **Reading one neighbour in sort order tells whether a longer key opens with the sequence.** -/
theorem hasLongerFrom_iff {binding : Type} (bindingsByKeySequence : ExtTreeMap KeySequence binding)
    (keySequence : KeySequence) :
    hasLongerKeySequenceStartingWith bindingsByKeySequence keySequence = true ↔
      ∃ longer : KeySequence, longer ∈ bindingsByKeySequence ∧ longer.StrictlyExtends keySequence :=
  Base.head?_rangeAfter_iff KeySequence.chords (fun _ _ => rfl) bindingsByKeySequence keySequence

theorem MergedModeKeymap.hasLongerKeys_iff (keySequence : KeySequence) :
    (modeKeymap.matchSequence keySequence).hasLongerKeySequence = true ↔
      ∃ longer, modeKeymap.Binds longer ∧ longer.StrictlyExtends keySequence := by
  rw [matchSequence, Bool.or_eq_true, hasLongerFrom_iff, hasLongerFrom_iff, ← exists_or]
  simp only [Binds, or_and_right]

namespace KeymapHintCatalog

variable (catalog : KeymapHintCatalog) (lockMode : LockMode) (keySequence : KeySequence)

theorem isSome_exactBoundAction_iff :
    (catalog.matchSequence lockMode keySequence).exactBoundAction.isSome ↔ catalog.Binds lockMode keySequence := by
  unfold matchSequence Binds
  cases catalog.mergedKeymap.modeKeymapByName[lockMode.getKeymapName]? with
  | none => simp
  | some modeKeymap =>
    simp only [Option.some.injEq, exists_eq_left']
    exact modeKeymap.isSome_findBoundAction_iff keySequence

theorem hasLongerKeys_iff :
    (catalog.matchSequence lockMode keySequence).hasLongerKeySequence = true ↔
      ∃ longer, catalog.Binds lockMode longer ∧ longer.StrictlyExtends keySequence := by
  unfold matchSequence Binds
  cases catalog.mergedKeymap.modeKeymapByName[lockMode.getKeymapName]? with
  | none => simp
  | some modeKeymap =>
    simp only [Option.some.injEq, exists_eq_left']
    exact modeKeymap.hasLongerKeys_iff keySequence

end KeymapHintCatalog

end Koshi.Config
