import Koshi.Base.MachineInt
import Koshi.Core.Geometry
import Koshi.Core.Ids
import Koshi.Core.Key

/-!
# Held mouse buttons

Mouse reports to panes (`runtime/mouse.rs`, `koshi-core/src/mouse.rs`, `koshi-terminal/src/mouse_report.rs`). A press
that a pane takes holds its button for the client in the pane, and a drag or a release goes only to a pane where the
client holds the button. A report is what its bytes spell out.
-/

namespace Koshi.Runtime

open Base Koshi.Core

inductive MouseButton where
  | left
  | middle
  | right
  deriving DecidableEq, Repr

inductive ScrollDirection where
  | up
  | down
  | left
  | right
  deriving DecidableEq, Repr

inductive MouseKind where
  | press (button : MouseButton)
  | release (button : MouseButton)
  | drag (button : MouseButton)
  | scroll (scrollDirection : ScrollDirection)
  | motion
  deriving DecidableEq, Repr

/-- The events that a program asked for; each level reports more than the one above. -/
inductive MouseTracking where
  | off
  | x10
  | normal
  | buttonMotion
  | anyMotion
  deriving DecidableEq, Repr

inductive MouseEncoding where
  | default
  | utf8
  | sgr
  | urxvt
  deriving DecidableEq, Repr

def isMouseKindReported (mouseTracking : MouseTracking) : MouseKind → Bool
  | .press _ => mouseTracking ≠ .off
  | .release _ | .scroll _ => mouseTracking = .normal ∨ mouseTracking = .buttonMotion ∨ mouseTracking = .anyMotion
  | .drag _ => mouseTracking = .buttonMotion ∨ mouseTracking = .anyMotion
  | .motion => mouseTracking = .anyMotion

structure MouseReport where
  mouseKind : MouseKind
  modifierFlags : BindingModifierFlags
  columnNumber : Nat
  rowNumber : Nat
  mouseTracking : MouseTracking
  mouseEncoding : MouseEncoding
  deriving DecidableEq

def encodeMouse (mouseKind : MouseKind) (modifierFlags : BindingModifierFlags) (columnNumber rowNumber : Nat)
    (mouseTracking : MouseTracking) (mouseEncoding : MouseEncoding) : Option MouseReport :=
  if isMouseKindReported mouseTracking mouseKind then
    some ⟨mouseKind, modifierFlags, columnNumber, rowNumber, mouseTracking, mouseEncoding⟩
  else none

/-- What a mouse report reads of a pane's terminal. -/
structure MouseTerminal where
  mouseTracking : MouseTracking
  mouseEncoding : MouseEncoding
  rowCount : Nat
  columnCount : Nat

/-- The panes as a call finds them, and whether the backend takes each report that the call writes, in their order. -/
structure MousePanes where
  terminalByPaneId : PaneId → Option MouseTerminal
  isWriteTaken : Nat → Bool

/-- A button of a client in a pane. -/
structure HeldKey where
  clientId : ClientId
  paneId : PaneId
  button : MouseButton
  deriving DecidableEq

structure HeldMouseButton where
  clientId : ClientId
  paneId : PaneId
  button : MouseButton
  lastPaneLocalCell : Point
  deriving DecidableEq

def HeldMouseButton.key (heldMouseButton : HeldMouseButton) : HeldKey :=
  ⟨heldMouseButton.clientId, heldMouseButton.paneId, heldMouseButton.button⟩

/-- A report that a pane took, and the client it was written for. -/
structure WrittenReport where
  clientId : ClientId
  paneId : PaneId
  report : MouseReport
  deriving DecidableEq

/-- Writes a report to a pane: `none` for a pane that is gone, a mode that does not report the event, or a refused
write. -/
def writeMouseReport (panes : MousePanes) (writeIndex : Nat) (clientId : ClientId) (paneId : PaneId)
    (mouseKind : MouseKind) (modifierFlags : BindingModifierFlags) (paneLocalCell : Point) : Option WrittenReport := do
  let terminal ← panes.terminalByPaneId paneId
  if isMouseKindReported terminal.mouseTracking mouseKind = false then none
  else
    let columnNumber := min (min paneLocalCell.column (terminal.columnCount - 1) + 1) u16Max
    let rowNumber := min (min paneLocalCell.row (terminal.rowCount - 1) + 1) u16Max
    let report ← encodeMouse mouseKind modifierFlags columnNumber rowNumber terminal.mouseTracking
        terminal.mouseEncoding
    if panes.isWriteTaken writeIndex then some ⟨clientId, paneId, report⟩ else none

variable (heldMouseButtons : List HeldMouseButton) (panes : MousePanes)

def findHeldMouseButtonIndex (clientId : ClientId) (paneId : PaneId) (button : MouseButton) : Option Nat :=
  heldMouseButtons.findIdx? fun heldMouseButton => heldMouseButton.key = ⟨clientId, paneId, button⟩

/-- Hands an event to the program in a pane: the held buttons after it, and the report that the pane took. -/
def forwardMouseToPane (clientId : ClientId) (paneId : PaneId) (mouseKind : MouseKind)
    (modifierFlags : BindingModifierFlags) (paneLocalCell : Point) : List HeldMouseButton × Option WrittenReport :=
  let heldMouseButtonIndex := match mouseKind with
    | .press button | .drag button | .release button => findHeldMouseButtonIndex heldMouseButtons clientId paneId button
    | .motion | .scroll _ => none
  match mouseKind, heldMouseButtonIndex with
  | .drag _, none | .release _, none => (heldMouseButtons, none)
  | _, _ =>
    let keptMouseButtons := match mouseKind, heldMouseButtonIndex with
      | .release _, some index => heldMouseButtons.eraseIdx index
      | _, _ => heldMouseButtons
    let written := writeMouseReport panes 0 clientId paneId mouseKind modifierFlags paneLocalCell
    (match written, mouseKind, heldMouseButtonIndex with
      | some _, .press button, none => keptMouseButtons ++ [⟨clientId, paneId, button, paneLocalCell⟩]
      | some _, .press _, some index | some _, .drag _, some index =>
        keptMouseButtons.modify index ({ · with lastPaneLocalCell := paneLocalCell })
      | _, _, _ => keptMouseButtons, written)

/-- Writes one release of each entry's button, at its last cell and with no modifier held. -/
def writeMouseReleases (releasedMouseButtons : List HeldMouseButton) : List WrittenReport :=
  releasedMouseButtons.zipIdx.filterMap fun (released, writeIndex) =>
    writeMouseReport panes writeIndex released.clientId released.paneId (.release released.button) .none
      released.lastPaneLocalCell

def releaseClientMouseButtons (clientId : ClientId) : List HeldMouseButton × List WrittenReport :=
  let (releasedMouseButtons, keptMouseButtons) := heldMouseButtons.partition (·.clientId = clientId)
  (keptMouseButtons, writeMouseReleases panes releasedMouseButtons)

def releaseEveryMouseButton : List HeldMouseButton × List WrittenReport :=
  ([], writeMouseReleases panes heldMouseButtons)

def removeHeldMouseButtonsInPane (paneId : PaneId) : List HeldMouseButton :=
  heldMouseButtons.filter (·.paneId ≠ paneId)

/-- The calls that touch the held buttons. A client leaves by the second, the session is swapped out by the third. -/
inductive MouseCall where
  | forward (clientId : ClientId) (paneId : PaneId) (mouseKind : MouseKind) (modifierFlags : BindingModifierFlags)
      (paneLocalCell : Point)
  | releaseClient (clientId : ClientId)
  | releaseEvery
  | removeInPane (paneId : PaneId)

def runMouseCall : MouseCall → List HeldMouseButton × List WrittenReport
  | .forward clientId paneId mouseKind modifierFlags paneLocalCell =>
    let (held, written) := forwardMouseToPane heldMouseButtons panes clientId paneId mouseKind modifierFlags
        paneLocalCell
    (held, written.toList)
  | .releaseClient clientId => releaseClientMouseButtons heldMouseButtons panes clientId
  | .releaseEvery => releaseEveryMouseButton heldMouseButtons panes
  | .removeInPane paneId => (removeHeldMouseButtonsInPane heldMouseButtons paneId, [])

/-- A call that was run, and the reports that panes took in it. -/
structure MouseStep where
  call : MouseCall
  reports : List WrittenReport

/-- The held buttons, and the calls that were run. -/
structure MouseWorld where
  heldMouseButtons : List HeldMouseButton
  history : List MouseStep

def MouseWorld.run (world : MouseWorld) (call : MousePanes × MouseCall) : MouseWorld :=
  let (heldMouseButtons, reports) := runMouseCall world.heldMouseButtons call.1 call.2
  ⟨heldMouseButtons, world.history ++ [⟨call.2, reports⟩]⟩

end Koshi.Runtime
