import Mathlib.Data.Finset.Basic
import Mathlib.Logic.Function.Basic
import Koshi.Ipc.Supervisor

/-!
# The sink of the pane supervisor

Where a pane's output and exit leave the supervisor (`LinkSink` of `koshi-daemon/src/pty_supervisor.rs`). Each function
here is one section under the sink's lock. A frame writer is known by the number of the link it writes to, and whether a
write succeeds is an argument: a failed write delivers no whole frame.

What a section wrote comes back beside the state, for the history of the links.
-/

namespace Koshi.Daemon

open Base Ipc

/-- The link, and the answers that hold a send back or let it give up. -/
structure LinkState where
  /-- The link every frame goes out on. -/
  frameWriter : Option Nat
  /-- The number of links taken, the current one included. -/
  linkGeneration : Nat
  linkProtocolVersion : Option Nat
  /-- A pane with no entry has the whole window. -/
  outputCreditByPaneId : PaneUuid → Option Nat
  isPaused : Bool
  closingPaneIds : Finset PaneUuid
  endedPaneIds : Finset PaneUuid
  isClosing : Bool

/-- What one attempt of a send came to. -/
inductive SendOutcome where
  /-- The send returns `false`. -/
  | gaveUp
  /-- The frame went out on this link. -/
  | wrote (linkNumber : Nat) (frame : LinkFrame)
  /-- The send waits for the link to change. -/
  | waits
  deriving DecidableEq

namespace LinkState

/-- A sink with no link yet. -/
def new : LinkState := ⟨none, 0, none, fun _ => none, false, ∅, ∅, false⟩

variable (linkState : LinkState)

def setLinkWriter : LinkState :=
  { linkState with
    frameWriter := some (linkState.linkGeneration + 1)
    linkGeneration := linkState.linkGeneration + 1
    linkProtocolVersion := none
    isPaused := false
    outputCreditByPaneId := fun _ => none }

def markLinkOpen (linkProtocolVersion : Nat) : LinkState :=
  { linkState with linkProtocolVersion := some linkProtocolVersion }

variable (paneId : PaneUuid)

def getOutputCredit : Nat :=
  (linkState.outputCreditByPaneId paneId).getD paneOutputWindowByteCount

/-- A grant for a pane being closed changes nothing. -/
def grantPaneOutput (grantedByteCount : Nat) : LinkState :=
  if paneId ∈ linkState.closingPaneIds then linkState
  else
    let outputCredit := min (satAdd32 (linkState.getOutputCredit paneId) grantedByteCount) paneOutputWindowByteCount
    { linkState with
      outputCreditByPaneId := Function.update linkState.outputCreditByPaneId paneId (some outputCredit) }

def pauseEventOutput : LinkState := { linkState with isPaused := true }

def resumeEventOutput : LinkState := { linkState with isPaused := false }

def clearLink : LinkState :=
  { linkState with frameWriter := none, linkProtocolVersion := none }

def markPaneClosing : LinkState :=
  { linkState with
    closingPaneIds := insert paneId linkState.closingPaneIds
    outputCreditByPaneId := Function.update linkState.outputCreditByPaneId paneId none }

/-- The pane stays among the closing ones. -/
def removeEndedPane : LinkState :=
  { linkState with endedPaneIds := linkState.endedPaneIds.erase paneId }

def markClosing : LinkState := { linkState with isClosing := true }

/-- The second section of `accept_exit_status`. -/
def recordEndedPane : LinkState :=
  { linkState with endedPaneIds := insert paneId linkState.endedPaneIds }

/-- Sends one response on the link its request arrived on. `gaveUp` stands for `false`. -/
def sendResponse (linkGeneration : Nat) (response : SupervisorResponse) (isWritten : Bool) : SendOutcome × LinkState :=
  if linkState.linkGeneration ≠ linkGeneration then (.gaveUp, linkState)
  else
    match linkState.frameWriter with
    | none => (.gaveUp, linkState)
    | some linkNumber =>
      if isWritten then (.wrote linkNumber (.response response), linkState)
      else (.gaveUp, { linkState with frameWriter := none })

def sendEvent (event : SupervisorEvent) (isWritten : Bool) : SendOutcome × LinkState :=
  if linkState.isClosing = true ∨ paneId ∈ linkState.closingPaneIds then (.gaveUp, linkState)
  else if linkState.linkProtocolVersion.isSome ∧ linkState.isPaused = false then
    match linkState.frameWriter with
    | none => (.waits, linkState)
    | some linkNumber =>
      if isWritten then (.wrote linkNumber (.event event), linkState)
      else (.waits, { linkState with frameWriter := none })
  else (.waits, linkState)

/-- Writes the next part of a pane's unsent output: the part's byte count, its link and its frame. -/
def writeOutputPart (unsentOutputBytes : List UInt8) (isWritten : Bool) : Option (Nat × Nat × LinkFrame) × LinkState :=
  match linkState.linkProtocolVersion with
  | none => (none, linkState)
  | some linkProtocolVersion =>
    if linkState.isPaused then (none, linkState)
    else
      match linkState.frameWriter with
      | none => (none, linkState)
      | some linkNumber =>
        if linkProtocolVersion < outputWindowProtocolVersion then
          if isWritten then
            (some (unsentOutputBytes.length, linkNumber, .event (.output paneId unsentOutputBytes)), linkState)
          else (none, { linkState with frameWriter := none })
        else
          let outputCredit := linkState.getOutputCredit paneId
          let partByteCount := min unsentOutputBytes.length outputCredit
          let leftCredit := outputCredit - partByteCount % (u32Max + 1)
          if partByteCount = 0 then (none, linkState)
          else if isWritten then
            (some (partByteCount, linkNumber,
                .binary (buildPaneOutputFrameHead paneId ++ unsentOutputBytes.take partByteCount)),
              { linkState with
                outputCreditByPaneId := Function.update linkState.outputCreditByPaneId paneId (some leftCredit) })
          else (none, { linkState with frameWriter := none })

end LinkState

end Koshi.Daemon
