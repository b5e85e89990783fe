import Koshi.Base.MachineInt
import Koshi.Ipc.Handshake
import Koshi.Ipc.PaintedUpdate

/-!
# The supervisor link

What crosses the link between a session server and the supervisor that holds its panes, and the gate a link opens with
(`koshi-ipc/src/supervisor.rs`). A request carries what the supervisor's serve loop reads of it; what
only the backend reads (a spawn's command, a terminal's size, how hard to kill) is left out.
-/

namespace Koshi.Ipc

open Base

/-- The first version whose links give each pane an output window and carry pane output as binary frames. -/
def outputWindowProtocolVersion : Nat := 3

def paneOutputWindowByteCount : Nat := 128 * 1024

/-- The fewest parsed bytes a session server grants back at once. -/
def minimumOutputGrantByteCount : Nat := paneOutputWindowByteCount / 2

def paneIdByteCount : Nat := 16

def minSupervisorProtocolVersion : Nat := 2

def supervisorProtocolVersion : Nat := 3

/-- How a child ended, as the link carries it. -/
inductive PaneExitStatus where
  | exitCode (code : Int)
  | signaled (signal : Int)
  deriving DecidableEq, Repr

/-! ## Messages -/

inductive SupervisorRequestKind where
  | hello (minimumProtocolVersion maximumProtocolVersion : Nat) (connectionToken : ConnectionToken)
  | spawn (paneId : PaneUuid)
  | resize (paneId : PaneUuid)
  | write (paneId : PaneUuid) (inputBytes : List UInt8)
  | kill (paneId : PaneUuid)
  | liveCwd (paneId : PaneUuid)
  | listPanes
  | pauseOutput
  | resumeOutput
  | shutdown
  | grantPaneOutput (paneId : PaneUuid) (grantedByteCount : Nat)
  /-- A kind this build does not have. -/
  | unknown (variantName : String)
  deriving DecidableEq

def SupervisorRequestKind.getRequestKindName : SupervisorRequestKind → String
  | .hello .. => "Hello"
  | .spawn _ => "Spawn"
  | .resize _ => "Resize"
  | .write .. => "Write"
  | .kill _ => "Kill"
  | .liveCwd _ => "LiveCwd"
  | .listPanes => "ListPanes"
  | .pauseOutput => "PauseOutput"
  | .resumeOutput => "ResumeOutput"
  | .shutdown => "Shutdown"
  | .grantPaneOutput .. => "GrantPaneOutput"
  | .unknown variantName => variantName

structure SupervisorRequest where
  requestId : Nat
  requestKind : SupervisorRequestKind
  deriving DecidableEq

/-- The answer to a supervisor request. -/
inductive SupervisorResult where
  | hello (protocolVersion : Nat)
  | spawned (processId : Nat)
  | panes (paneIds : List PaneUuid)
  | cwd (workingDirectoryPath : Option String)
  | done
  | error (payload : IpcErrorPayload)
  deriving DecidableEq

structure SupervisorResponse where
  requestId : Option Nat
  answerResult : SupervisorResult
  deriving DecidableEq

/-- Something one pane did that no request asked about. -/
inductive SupervisorEvent where
  | output (paneId : PaneUuid) (outputBytes : List UInt8)
  | exited (paneId : PaneUuid) (exitStatus : PaneExitStatus)
  deriving DecidableEq

def SupervisorEvent.paneId : SupervisorEvent → PaneUuid
  | .output paneId _ => paneId
  | .exited paneId _ => paneId

/-- One frame from the supervisor: a JSON message, or the payload of a binary frame. -/
inductive LinkFrame where
  | response (response : SupervisorResponse)
  | event (event : SupervisorEvent)
  | binary (frameBytes : List UInt8)
  deriving DecidableEq

/-! ## Pane output frames -/

def buildPaneOutputFrameHead (paneId : PaneUuid) : List UInt8 := paneId.bytes

def decodePaneOutputFrame (frameBytes : List UInt8) : Option (PaneUuid × List UInt8) :=
  if h : (frameBytes.take paneIdByteCount).length = 16 then
    some (⟨frameBytes.take paneIdByteCount, h⟩, frameBytes.drop paneIdByteCount)
  else none

theorem decodeOutputFrame_build (paneId : PaneUuid) (outputBytes : List UInt8) :
    decodePaneOutputFrame (buildPaneOutputFrameHead paneId ++ outputBytes) = some (paneId, outputBytes) := by
  have htake : (buildPaneOutputFrameHead paneId ++ outputBytes).take paneIdByteCount = paneId.bytes :=
    List.take_left' paneId.byteCount
  have hdrop : (buildPaneOutputFrameHead paneId ++ outputBytes).drop paneIdByteCount = outputBytes :=
    List.drop_left' paneId.byteCount
  unfold decodePaneOutputFrame
  rw [dif_pos (by rw [htake]; exact paneId.byteCount)]
  simp only [htake, hdrop]

def LinkFrame.readEvent : LinkFrame → Option SupervisorEvent
  | .response _ => none
  | .event paneEvent => some paneEvent
  | .binary frameBytes => (decodePaneOutputFrame frameBytes).map fun (paneId, outputBytes) => .output paneId outputBytes

@[simp] theorem LinkFrame.readEvent_binary (paneId : PaneUuid) (outBytes : List UInt8) :
    (LinkFrame.binary (buildPaneOutputFrameHead paneId ++ outBytes)).readEvent = some (.output paneId outBytes) := by
  rw [readEvent, decodeOutputFrame_build]
  rfl

/-! ## The gate -/

/-- What the link's gate calls itself, and the versions it speaks. -/
def supervisorWords : GateWords where
  peer := "supervisor"
  tokenOwner := "the supervisor's"
  caller := "session server"
  versions := "supervisor-link protocol versions"
  channel := "link"
  minimumProtocolVersion := minSupervisorProtocolVersion
  maximumProtocolVersion := supervisorProtocolVersion

/-- One link's handshake gate. -/
abbrev SupervisorHandshake := VersionGate supervisorWords

namespace SupervisorHandshake

def fromConnectionToken (connectionToken : ConnectionToken) : SupervisorHandshake := .fromExpectedToken connectionToken

variable (handshake : SupervisorHandshake)

/-- The gate's verdict on a request: the gate after it, or the refusal to send back. A kind this build does not have is
refused by name. -/
def validateRequestKind : SupervisorRequestKind → Except IpcErrorPayload SupervisorHandshake
  | .hello minimumProtocolVersion maximumProtocolVersion connectionToken =>
    handshake.validateHello minimumProtocolVersion maximumProtocolVersion connectionToken
  | .unknown variantName => .error (handshake.buildUnknownRequestKindError variantName)
  | requestKind => (handshake.validateNonHelloRequestKind requestKind.getRequestKindName).map fun _ => handshake

end SupervisorHandshake

end Koshi.Ipc
