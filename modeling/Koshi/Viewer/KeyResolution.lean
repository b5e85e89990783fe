import Koshi.Config.Keymap

/-!
# Key resolution in the viewer

`resolve_key` and `expire_key_sequence` of `koshi-client/src/input.rs`: one chord at a time the viewer fires a
binding, opens or continues a key sequence, types the key at the pane or drops it. Instants and durations are
natural numbers of milliseconds. The viewer's other state is left out but for what these two calls read: the
mode that owns the keyboard, and whether a floating pane's grab handle is held.
-/

namespace Koshi.Viewer

open Koshi.Core Config

/-- One incomplete multi-chord keybinding. -/
structure PendingKeySequence where
  sequence : KeySequence
  /-- The instant an ambiguous sequence fires its own binding. -/
  ambiguityDeadline : Option Nat
  /-- The instant the hint bar starts to show the sequence. -/
  continuationHintHiddenUntil : Option Nat
  deriving DecidableEq

/-- What the viewer decided one keypress means. -/
inductive KeyOutcome where
  | fire (boundAction : BoundAction)
  | pending
  | passThrough (chord : KeyChord)
  | discard
  deriving DecidableEq

/-- The viewer, as far as key resolution reads it. -/
structure Client where
  keymapCatalog : KeymapHintCatalog
  registry : ActionRegistry
  activeInputMode : LockMode
  pendingKeySequence : Option PendingKeySequence
  /-- Whether `left_button_gesture` is a floating pane's handle drag. -/
  hasFloatingPaneMoveDrag : Bool

def escapeKeyChord : KeyChord := ⟨.none, .named .esc⟩

variable (openKeySequence : Option PendingKeySequence)

def extendSequence (chord : KeyChord) : KeySequence :=
  match openKeySequence with
  | some held => ⟨held.sequence.chords ++ [chord], List.append_ne_nil_of_right_ne_nil _ (List.cons_ne_nil _ _)⟩
  | none => .ofChord chord

variable (client : Client)

namespace Client

/-- Re-opens the prefix of a fired sequence of two or more chords whose action is continuous. -/
def rearmContinuousSequencePrefix (boundAction : BoundAction) (keySequence : KeySequence)
    (continuationHintHiddenUntil : Option Nat) : Client :=
  if (client.registry.findActionMetadata boundAction.actionReference).any ActionMetadata.isContinuous then
    match keySequence.chords with
    | first :: second :: rest =>
      { client with
        pendingKeySequence := some
          { sequence := .fromFirstAndRest first (second :: rest).dropLast
            ambiguityDeadline := none
            continuationHintHiddenUntil } }
    | _ => client
  else client

def hintDeadline (currentTime : Nat) : Option Nat :=
  match openKeySequence with
  | some held => held.continuationHintHiddenUntil
  | none =>
    if client.keymapCatalog.whichKeyDelay = 0 then none else some (currentTime + client.keymapCatalog.whichKeyDelay)

/-- Decides what `chord` means in the viewer's mode, from the match of the open sequence followed by it. -/
def resolveMatchedKey (chord : KeyChord) (currentTime : Nat) : KeyOutcome × Client :=
  let continuationHintHiddenUntil := client.hintDeadline openKeySequence currentTime
  let keySequence := extendSequence openKeySequence chord
  let sequenceMatch := client.keymapCatalog.matchSequence client.activeInputMode keySequence
  match sequenceMatch.exactBoundAction, sequenceMatch.hasLongerKeySequence with
  | some boundAction, false =>
    (.fire boundAction, client.rearmContinuousSequencePrefix boundAction keySequence continuationHintHiddenUntil)
  | exactBoundAction, true =>
    -- only a sequence that is both bound and a prefix waits with a deadline
    (.pending,
      { client with
        pendingKeySequence := some
          { sequence := keySequence
            ambiguityDeadline :=
              if exactBoundAction.isSome then some (currentTime + client.keymapCatalog.chordTimeout) else none
            continuationHintHiddenUntil } })
  | none, false =>
    match openKeySequence with
    | some held =>
      if chord = escapeKeyChord then (.pending, client)
      else (.pending, { client with pendingKeySequence := some held })
    | none =>
      if client.activeInputMode.shouldPassUnboundInputToPane then (.passThrough chord, client)
      else (.discard, client)

def resolveKey (chord : KeyChord) (currentTime : Nat) : KeyOutcome × Client :=
  if chord = escapeKeyChord ∧ client.hasFloatingPaneMoveDrag = true then
    (.discard, { client with pendingKeySequence := none, hasFloatingPaneMoveDrag := false })
  else
    let openKeySequence := client.pendingKeySequence
    let taken := { client with pendingKeySequence := none }
    if client.activeInputMode = .locked ∧ chord = client.keymapCatalog.unlockChord then
      (.fire unlockBoundAction, taken)
    else taken.resolveMatchedKey openKeySequence chord currentTime

/-- Shows the open sequence in the hint bar once its hint deadline is reached. -/
def showDueHint (currentTime : Nat) : Client :=
  { client with
    pendingKeySequence := client.pendingKeySequence.map fun held =>
      if held.continuationHintHiddenUntil.any (decide <| · ≤ currentTime) then
        { held with continuationHintHiddenUntil := none }
      else held }

/-- `expire_key_sequence`: fires the binding of an open sequence whose ambiguity deadline is reached, then shows
the hint of the sequence still open if it is due. -/
def expireKeySequence (currentTime : Nat) : Option BoundAction × Client :=
  match client.pendingKeySequence with
  | some held =>
    if held.ambiguityDeadline.any (decide <| · ≤ currentTime) then
      let taken := { client with pendingKeySequence := none }
      match (client.keymapCatalog.matchSequence client.activeInputMode held.sequence).exactBoundAction with
      | some boundAction =>
        (some boundAction,
          (taken.rearmContinuousSequencePrefix boundAction held.sequence
            held.continuationHintHiddenUntil).showDueHint currentTime)
      | none => (none, taken.showDueHint currentTime)
    else (none, client.showDueHint currentTime)
  | none => (none, client.showDueHint currentTime)

end Client

/-! ### Runs of calls -/

/-- What happens to the viewer's keyboard: the two calls, and the mouse taking or leaving a floating pane's
handle between them. -/
inductive KeyCall where
  | resolveKey (chord : KeyChord) (currentTime : Nat)
  | expireKeySequence (currentTime : Nat)
  | setFloatingPaneMoveDrag (isHeld : Bool)
  deriving DecidableEq

inductive KeyReturn where
  | outcome (keyOutcome : KeyOutcome)
  | expired (firedBoundAction : Option BoundAction)
  | none
  deriving DecidableEq

def KeyReturn.fired : KeyReturn → Option BoundAction
  | outcome (.fire boundAction) => some boundAction
  | expired firedBoundAction => firedBoundAction
  | _ => Option.none

namespace Client

def call : KeyCall → KeyReturn × Client
  | .resolveKey chord currentTime =>
    ((.outcome (client.resolveKey chord currentTime).1), (client.resolveKey chord currentTime).2)
  | .expireKeySequence currentTime =>
    ((.expired (client.expireKeySequence currentTime).1), (client.expireKeySequence currentTime).2)
  | .setFloatingPaneMoveDrag isHeld => (.none, { client with hasFloatingPaneMoveDrag := isHeld })

def openChords : List KeyChord := (client.pendingKeySequence.map (·.sequence.chords)).getD []

end Client

/-- The keymap takes the chords: they are a key sequence it binds, or the beginning of a longer one. -/
def TakesChords (catalog : KeymapHintCatalog) (lockMode : LockMode) (chords : List KeyChord) : Prop :=
  ∃ keySequence : KeySequence, keySequence.chords = chords ∧ (catalog.Binds lockMode keySequence ∨
    ∃ longer, catalog.Binds lockMode longer ∧ longer.StrictlyExtends keySequence)

theorem takesChords_iff (catalog : KeymapHintCatalog) (lockMode : LockMode) (keySequence : KeySequence) :
    TakesChords catalog lockMode keySequence.chords ↔
      (catalog.matchSequence lockMode keySequence).exactBoundAction.isSome = true ∨
        (catalog.matchSequence lockMode keySequence).hasLongerKeySequence = true := by
  rw [catalog.isSome_exactBoundAction_iff, catalog.hasLongerKeys_iff]
  constructor
  · rintro ⟨⟨chords, nonempty⟩, rfl, htakes⟩
    exact htakes
  · exact fun htakes => ⟨keySequence, rfl, htakes⟩

instance (catalog : KeymapHintCatalog) (lockMode : LockMode) (chords : List KeyChord) :
    Decidable (TakesChords catalog lockMode chords) :=
  if nonempty : chords = [] then
    isFalse fun ⟨keySequence, hchords, _⟩ => keySequence.nonempty (hchords.trans nonempty)
  else decidable_of_iff _ (takesChords_iff catalog lockMode ⟨chords, nonempty⟩).symm

/-- What is typed into the open sequence, read off the calls and the keymap: the prefix a continuous action re-opened,
if one did, and the chords pressed since then that were not discarded. -/
structure TypedChords where
  reopened : List KeyChord
  pressed : List KeyChord

namespace TypedChords

def nothing : TypedChords := ⟨[], []⟩

/-- All the chords typed into the open sequence. -/
def all (typed : TypedChords) : List KeyChord := typed.reopened ++ typed.pressed

/-- A continuous action opens again what it fired from, without the last chord. -/
def reopen (registry : ActionRegistry) (boundAction : BoundAction) (openChords : List KeyChord) : TypedChords :=
  if (registry.findActionMetadata boundAction.actionReference).any ActionMetadata.isContinuous then ⟨openChords, []⟩
  else nothing

/-- A chord that fires nothing is typed when the keymap takes it after what is typed, and else discarded. Escape gives
up a held grab handle, or the sequence it does not continue. -/
def afterChord (typed : TypedChords) (client : Client) (chord : KeyChord) : TypedChords :=
  if chord = escapeKeyChord ∧ client.hasFloatingPaneMoveDrag = true then nothing
  else if TakesChords client.keymapCatalog client.activeInputMode (typed.all ++ [chord]) then
    ⟨typed.reopened, typed.pressed ++ [chord]⟩
  else if chord = escapeKeyChord then nothing
  else typed

def afterCall (typed : TypedChords) (client : Client) (keyCall : KeyCall) (keyReturn : KeyReturn) : TypedChords :=
  match keyCall, keyReturn.fired with
  | .resolveKey chord _, some boundAction =>
    if client.activeInputMode = .locked ∧ chord = client.keymapCatalog.unlockChord then nothing
    else reopen client.registry boundAction typed.all
  | .resolveKey chord _, none => typed.afterChord client chord
  | .expireKeySequence _, some boundAction => reopen client.registry boundAction typed.all.dropLast
  | _, _ => typed

end TypedChords

/-- The viewer, and what was typed into its open sequence. -/
structure KeyWorld where
  client : Client
  typed : TypedChords

namespace KeyWorld

/-- Runs one call. -/
def step (world : KeyWorld) (keyCall : KeyCall) : KeyWorld where
  client := (world.client.call keyCall).2
  typed := world.typed.afterCall world.client keyCall (world.client.call keyCall).1

def run (world : KeyWorld) (keyCalls : List KeyCall) : KeyWorld := keyCalls.foldl step world

/-- A viewer with no open sequence. -/
def start (keymapCatalog : KeymapHintCatalog) (registry : ActionRegistry) (activeInputMode : LockMode)
    (hasFloatingPaneMoveDrag : Bool) : KeyWorld where
  client := ⟨keymapCatalog, registry, activeInputMode, none, hasFloatingPaneMoveDrag⟩
  typed := .nothing

end KeyWorld

end Koshi.Viewer
