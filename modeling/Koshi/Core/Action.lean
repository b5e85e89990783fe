import Mathlib.Tactic

/-!
# Actions and input modes

Named actions (`koshi-core/src/action.rs`), the registry that knows them (`registry.rs`), whether resolution
turns one into a plan (`resolve.rs`), and the modal input states of a client (`lock.rs`). Of an action's record
only the handler's route and the continuous flag are read by key handling; the command an action builds is left
out, since the callers here read whether it resolves.
-/

namespace Koshi.Core

/-- A reference to a built-in action: the name after `core:`. -/
structure ActionReference where
  actionName : String
  deriving DecidableEq

/-- The route of an action: a core command to build, or a viewer-local action. -/
inductive ActionHandlerReference where
  | coreCommand
  | coreClient
  deriving DecidableEq

/-- What the registry knows of one action. -/
structure ActionMetadata where
  handler : ActionHandlerReference
  /-- Whether the binding's prefix stays armed once the action has fired. -/
  isContinuous : Bool
  deriving DecidableEq

/-- The table of known actions: its lookup. -/
structure ActionRegistry where
  findActionMetadata : ActionReference → Option ActionMetadata

/-- Why an action could not be turned into a plan. -/
inductive ResolveError where
  | unregistered (actionReference : ActionReference)
  | argumentsRequired (actionReference : ActionReference)
  deriving DecidableEq

def coreCommandActionNames : List String :=
  ["new-pane", "new-pane-left", "new-pane-down", "new-pane-up", "new-pane-right", "new-pane-stacked",
    "new-pane-floating", "close-pane", "close-pane-tree", "close-floating-pane", "resize-pane-left",
    "resize-pane-down", "resize-pane-up", "resize-pane-right", "focus-pane-left", "focus-pane-down",
    "focus-pane-up", "focus-pane-right", "focus-next-floating-pane", "focus-previous-floating-pane",
    "toggle-pane-fullscreen", "undock-pane", "toggle-pane-floating", "dock-floating-pane", "pin-pane",
    "unpin-pane", "toggle-pane-pinned", "minimize-pane", "minimize-all-floating-panes",
    "restore-all-floating-panes", "toggle-minimize-all-floating-panes", "new-tab", "close-tab", "next-tab",
    "previous-tab", "quit", "toggle-lock", "lock", "unlock", "mouse-select", "scroll-pane-up",
    "scroll-pane-down"]

/-- `resolve_core_action`: a name outside the table needs arguments only its CLI verb supplies. -/
def resolveCoreAction (actionReference : ActionReference) : Except ResolveError Unit :=
  if actionReference.actionName ∈ coreCommandActionNames then .ok ()
  else .error (.argumentsRequired actionReference)

def resolveAction (actionReference : ActionReference) (registry : ActionRegistry) : Except ResolveError Unit :=
  match registry.findActionMetadata actionReference with
  | none => .error (.unregistered actionReference)
  | some actionMetadata =>
    match actionMetadata.handler with
    | .coreCommand => resolveCoreAction actionReference
    | .coreClient => .ok ()

/-- The modal input state of one client. -/
inductive LockMode where
  | normal
  | locked
  | panePlacement
  | paneMoveChoice
  | floatingPaneMove
  | floatingPaneTray
  | notificationCenter
  deriving DecidableEq

namespace LockMode

/-- Every built-in mode, in declaration order. -/
def all : List LockMode :=
  [normal, locked, panePlacement, paneMoveChoice, floatingPaneMove, floatingPaneTray, notificationCenter]

/-- Whether input that binds nothing reaches the pane in this mode. -/
def shouldPassUnboundInputToPane : LockMode → Bool
  | normal | locked => true
  | _ => false

/-- The name the keybinding config groups the mode's bindings under. -/
def getKeymapName : LockMode → String
  | normal => "normal"
  | locked => "locked"
  | panePlacement => "pane-placement"
  | paneMoveChoice => "pane-move-choice"
  | floatingPaneMove => "floating-pane-move"
  | floatingPaneTray => "floating-pane-tray"
  | notificationCenter => "notification-center"

end LockMode

end Koshi.Core
