import Mathlib.Data.Finset.Basic
import Mathlib.Logic.Function.Basic
import Koshi.Core.Ids

/-!
# Pane output queues

How a pane's child output and exit reach the dispatcher (`koshi-runtime/src/runtime/pty_inbox.rs`, and the dispatch pass
of `runtime/driver.rs`): each pane has a queue, a queue that gets something sends one wake into the inbox, and the
dispatcher takes the output back in turns. Each section under a mutex is one step, and so is each send and each receive
on the inbox; a step of the sink's callers and one of the dispatcher come in any order.

A queue is known by the number it was started under, so that a pane's second queue is not its first. A `Weak` reference
upgrades exactly while something holds the queue: a call of the sink, a wake in the inbox, the server, or a close of
the dispatcher that is under way. The room condition is a guard on the step that waits for it.
-/

namespace Koshi.Runtime

open Koshi.Core

/-- How a child ended. -/
inductive ExitStatus where
  | exitCode (code : Int)
  | signaled (signal : Int)
  deriving DecidableEq, Repr

def paneOutputQueueByteLimit : Nat := 128 * 1024

/-- The most bytes the dispatcher takes from one pane's queue in one turn. -/
def paneOutputTurnByteLimit : Nat := 64 * 1024

/-! ## One queue -/

structure PaneOutputQueueState where
  /-- The chunks not yet taken, oldest first. -/
  outputChunks : List (List UInt8)
  queuedByteCount : Nat
  exitStatus : Option ExitStatus
  isWakeSent : Bool
  isClosed : Bool
  deriving DecidableEq

def PaneOutputQueueState.default : PaneOutputQueueState := ⟨[], 0, none, false, false⟩

/-- What the dispatcher takes from a pane's queue in one turn. -/
structure PaneOutputTurn where
  outputChunks : List (List UInt8)
  exitStatus : Option ExitStatus
  hasMoreOutput : Bool
  deriving DecidableEq

/-- What a pane's child gives. -/
inductive PaneEvent where
  | output (chunk : List UInt8)
  | exit (exitStatus : ExitStatus)
  deriving DecidableEq

/-- The chunks among the events. -/
def listOutputs (events : List PaneEvent) : List (List UInt8) :=
  events.filterMap fun
    | .output chunk => some chunk
    | .exit _ => none

/-- What a turn hands over: its chunks, then its exit. -/
def PaneOutputTurn.listEvents (turn : PaneOutputTurn) : List PaneEvent :=
  turn.outputChunks.map .output ++ turn.exitStatus.toList.map .exit

def takeChunks (outputChunks : List (List UInt8)) (takenByteCount : Nat) :
    List (List UInt8) → List (List UInt8) × Nat × List (List UInt8)
  | [] => (outputChunks, takenByteCount, [])
  | nextChunk :: queuedChunks =>
    if outputChunks ≠ [] ∧ takenByteCount + nextChunk.length > paneOutputTurnByteLimit then
      (outputChunks, takenByteCount, nextChunk :: queuedChunks)
    else takeChunks (outputChunks ++ [nextChunk]) (takenByteCount + nextChunk.length) queuedChunks

namespace PaneOutputQueueState

variable (queueState : PaneOutputQueueState)

/-- Takes the oldest chunks up to the turn's limit, at least one, and the exit once no chunk is left. A queue left empty
clears its wake flag. -/
def takeOutputTurn : PaneOutputTurn × PaneOutputQueueState :=
  let (takenChunks, takenByteCount, queuedChunks) := takeChunks [] 0 queueState.outputChunks
  let (takenExitStatus, keptExitStatus) :=
    if queuedChunks = [] then (queueState.exitStatus, none) else (none, queueState.exitStatus)
  let hasMoreOutput := decide (queuedChunks ≠ [])
  (⟨takenChunks, takenExitStatus, hasMoreOutput⟩, { queueState with
    outputChunks := queuedChunks
    queuedByteCount := queueState.queuedByteCount - takenByteCount
    exitStatus := keptExitStatus
    isWakeSent := if hasMoreOutput then queueState.isWakeSent else false })

/-- The queue's own part of `close_output_queue`. -/
def close : PaneOutputQueueState :=
  { queueState with isClosed := true, outputChunks := [], queuedByteCount := 0, exitStatus := none }

/-- A push or an exit report on an open queue. -/
def accept : PaneEvent → PaneOutputQueueState
  | .output chunk => { queueState with
      queuedByteCount := queueState.queuedByteCount + chunk.length
      outputChunks := queueState.outputChunks ++ [chunk]
      isWakeSent := true }
  | .exit exitStatus => { queueState with exitStatus := some exitStatus, isWakeSent := true }

def MustWait (shouldWaitForQueueRoom : Bool) (queueState : PaneOutputQueueState) : PaneEvent → Prop
  | .output _ => shouldWaitForQueueRoom = true ∧ queueState.isClosed = false ∧
      queueState.queuedByteCount ≥ paneOutputQueueByteLimit
  | .exit _ => False

instance (shouldWaitForQueueRoom : Bool) (queueState : PaneOutputQueueState) (event : PaneEvent) :
    Decidable (queueState.MustWait shouldWaitForQueueRoom event) := by
  cases event <;> unfold MustWait <;> infer_instance

end PaneOutputQueueState

/-- One pane's queue, with what was ever pushed into it and what was ever handed over from it. -/
structure PaneOutputQueue where
  paneId : PaneId
  queueState : PaneOutputQueueState
  pushedEvents : List PaneEvent
  fedEvents : List PaneEvent
  deriving DecidableEq

variable (paneId : PaneId)

namespace PaneOutputQueue

/-- A new empty queue. -/
def start : PaneOutputQueue := ⟨paneId, .default, [], []⟩

def accept (queue : PaneOutputQueue) (event : PaneEvent) : PaneOutputQueue :=
  { queue with queueState := queue.queueState.accept event, pushedEvents := queue.pushedEvents ++ [event] }

def takeOutputTurn (queue : PaneOutputQueue) : PaneOutputTurn × PaneOutputQueue :=
  let (turn, queueState) := queue.queueState.takeOutputTurn
  (turn, { queue with queueState, fedEvents := queue.fedEvents ++ turn.listEvents })

def close (queue : PaneOutputQueue) : PaneOutputQueue := { queue with queueState := queue.queueState.close }

end PaneOutputQueue

/-! ## The sink, the inbox and the dispatcher -/

/-- Where a call of `accept_output_bytes` or `accept_exit_status` stands. -/
inductive SinkCallPhase where
  /-- It found its queue, and takes the queue's lock next. -/
  | holdsQueue (event : PaneEvent)
  | sendsWake
  | closesQueue
  /-- It closed the queue, and takes the registry's lock next. -/
  | leavesRegistry
  deriving DecidableEq

structure SinkCall where
  queueId : Nat
  phase : SinkCallPhase
  deriving DecidableEq

/-- The sink, its callers, the inbox and the dispatcher's part of the server. -/
structure PaneOutputWorld where
  shouldWaitForQueueRoom : Bool
  /-- The queues started so far are those below `queueCount`. -/
  queueById : Nat → PaneOutputQueue
  queueCount : Nat
  /-- The sink's registry: weak references. -/
  registeredQueueByPaneId : PaneId → Option Nat
  sinkCalls : List SinkCall
  inboxWakes : List Nat
  isInboxOpen : Bool
  livePaneIds : Finset PaneId
  /-- Every pane that was ever recorded live: `PaneId::new` gives no id twice. -/
  spawnedPaneIds : Finset PaneId
  paneOutputQueueByPaneId : PaneId → Option Nat
  /-- The turn rotation. -/
  readyOutputPaneIds : List PaneId
  /-- The pane whose turn left output behind and that is not yet back in the rotation. -/
  servedPaneId : Option PaneId
  closingQueueId : Option Nat
  /-- What each pane's engine was fed, and the exits handled. -/
  engineEventsByPaneId : PaneId → List PaneEvent

inductive PaneOutputAction where
  | startCall (paneId : PaneId) (event : PaneEvent)
  /-- A call under way takes its next step. -/
  | continueCall (callIndex : Nat)
  | handleWake
  | serveTurn
  | putBack
  | removePane (paneId : PaneId)
  /-- The dispatcher's second step of a close. -/
  | leaveRegistry
  | spawnPane (paneId : PaneId)
  | dropServer

namespace PaneOutputWorld

/-- Before any pane. -/
def initial (shouldWaitForQueueRoom : Bool) : PaneOutputWorld where
  shouldWaitForQueueRoom := shouldWaitForQueueRoom
  queueById := fun _ => .start ⟨0⟩
  queueCount := 0
  registeredQueueByPaneId := fun _ => none
  sinkCalls := []
  inboxWakes := []
  isInboxOpen := true
  livePaneIds := ∅
  spawnedPaneIds := ∅
  paneOutputQueueByPaneId := fun _ => none
  readyOutputPaneIds := []
  servedPaneId := none
  closingQueueId := none
  engineEventsByPaneId := fun _ => []

variable (world : PaneOutputWorld)

/-- The queue's strong count is not zero. -/
def IsHeld (queueId : Nat) : Prop :=
  queueId ∈ world.sinkCalls.map (·.queueId) ∨ queueId ∈ world.inboxWakes ∨
    world.paneOutputQueueByPaneId (world.queueById queueId).paneId = some queueId ∨ world.closingQueueId = some queueId

instance (world : PaneOutputWorld) (queueId : Nat) : Decidable (world.IsHeld queueId) := by
  unfold IsHeld
  infer_instance

def updateQueue (queueId : Nat) (change : PaneOutputQueue → PaneOutputQueue) :
    PaneOutputWorld :=
  { world with queueById := Function.update world.queueById queueId (change (world.queueById queueId)) }

/-- The pane's queue, or a new one; the entries of dropped queues leave the registry first. -/
def findOrStartOutputQueue : Nat × PaneOutputWorld :=
  match (world.registeredQueueByPaneId paneId).filter (world.IsHeld ·) with
  | some queueId => (queueId, world)
  | none => (world.queueCount, { world with
      queueById := Function.update world.queueById world.queueCount (.start paneId)
      queueCount := world.queueCount + 1
      registeredQueueByPaneId := Function.update
        (fun otherPaneId => (world.registeredQueueByPaneId otherPaneId).filter (world.IsHeld ·)) paneId
        (some world.queueCount) })

/-- The registry's part of `close_output_queue`: the entry goes when it is the queue's own. -/
def leaveQueueRegistry (queueId : Nat) : PaneOutputWorld :=
  if world.registeredQueueByPaneId (world.queueById queueId).paneId = some queueId then
    { world with registeredQueueByPaneId :=
        Function.update world.registeredQueueByPaneId (world.queueById queueId).paneId none }
  else world

/-- The start of `accept_output_bytes` and `accept_exit_status`. An empty chunk queues nothing. -/
def startCall (event : PaneEvent) : PaneOutputWorld :=
  if event = .output [] then world
  else
    let (queueId, world) := world.findOrStartOutputQueue paneId
    { world with sinkCalls := world.sinkCalls ++ [⟨queueId, .holdsQueue event⟩] }

/-- The next step of a call: under the queue's lock, on the inbox, or under the registry's lock. -/
def continueCall (callIndex : Nat) : Option PaneOutputWorld :=
  match world.sinkCalls[callIndex]? with
  | none => none
  | some ⟨queueId, phase⟩ =>
    let returned := { world with sinkCalls := world.sinkCalls.eraseIdx callIndex }
    let reach (phase : SinkCallPhase) := { world with sinkCalls := world.sinkCalls.set callIndex ⟨queueId, phase⟩ }
    match phase with
    | .holdsQueue event =>
      let queueState := (world.queueById queueId).queueState
      if queueState.MustWait world.shouldWaitForQueueRoom event then none
      else if queueState.isClosed then some returned
      else if queueState.isWakeSent then some (returned.updateQueue queueId (·.accept event))
      else some ((reach .sendsWake).updateQueue queueId (·.accept event))
    | .sendsWake =>
      if world.isInboxOpen then some { returned with inboxWakes := world.inboxWakes ++ [queueId] }
      else some (reach .closesQueue)
    | .closesQueue => some ((reach .leavesRegistry).updateQueue queueId (·.close))
    | .leavesRegistry => some (returned.leaveQueueRegistry queueId)

/-- The dispatcher runs and is not in the middle of a close. -/
def IsDispatching : Prop := world.isInboxOpen = true ∧ world.closingQueueId = none

instance (world : PaneOutputWorld) : Decidable world.IsDispatching := by
  unfold IsDispatching
  infer_instance

def handlePtyReadable : Option PaneOutputWorld :=
  match world.inboxWakes with
  | [] => none
  | queueId :: inboxWakes =>
    let world := { world with inboxWakes }
    let paneId := (world.queueById queueId).paneId
    if paneId ∉ world.livePaneIds then
      some { world.updateQueue queueId (·.close) with closingQueueId := some queueId }
    else
      some { world with
        paneOutputQueueByPaneId := Function.update world.paneOutputQueueByPaneId paneId (some queueId)
        readyOutputPaneIds := world.readyOutputPaneIds ++ [paneId] }

/-- `serve_output_turn`: the engine is fed and the exit handled here; what the exit's handling does to the pane is a
step of its own. -/
def serveOutputTurn : Option PaneOutputWorld :=
  match world.readyOutputPaneIds with
  | [] => none
  | paneId :: readyOutputPaneIds =>
    let world := { world with readyOutputPaneIds }
    match world.paneOutputQueueByPaneId paneId with
    | none => some world
    | some queueId =>
      let (turn, queue) := (world.queueById queueId).takeOutputTurn
      some { world.updateQueue queueId fun _ => queue with
        engineEventsByPaneId := Function.update world.engineEventsByPaneId paneId
          (world.engineEventsByPaneId paneId ++ turn.listEvents)
        servedPaneId := if turn.hasMoreOutput then some paneId else none }

/-- The pane's part of `release_pane_bookkeeping`, up to the first step of `remove_pane_output_queue`. -/
def releasePane : PaneOutputWorld :=
  let world := { world with livePaneIds := world.livePaneIds.erase paneId }
  match world.paneOutputQueueByPaneId paneId with
  | none => world
  | some queueId =>
    { world.updateQueue queueId (·.close) with
      paneOutputQueueByPaneId := Function.update world.paneOutputQueueByPaneId paneId none
      closingQueueId := some queueId }

def parkPanePty : PaneOutputWorld :=
  { world with
    livePaneIds := insert paneId world.livePaneIds
    spawnedPaneIds := insert paneId world.spawnedPaneIds }

/-- The server and its end of the inbox go away. -/
def drop : PaneOutputWorld :=
  { world with
    livePaneIds := ∅
    paneOutputQueueByPaneId := fun _ => none
    readyOutputPaneIds := []
    servedPaneId := none
    inboxWakes := []
    isInboxOpen := false }

def step : PaneOutputAction → Option PaneOutputWorld
  | .startCall paneId event => some (world.startCall paneId event)
  | .continueCall callIndex => world.continueCall callIndex
  | .handleWake => if world.IsDispatching then world.handlePtyReadable else none
  | .serveTurn => if world.IsDispatching ∧ world.servedPaneId = none then world.serveOutputTurn else none
  | .putBack =>
    if world.IsDispatching then
      world.servedPaneId.map fun paneId =>
        { world with readyOutputPaneIds := world.readyOutputPaneIds ++ [paneId], servedPaneId := none }
    else none
  | .removePane paneId => if world.IsDispatching then some (world.releasePane paneId) else none
  | .leaveRegistry =>
    world.closingQueueId.map fun queueId => { world.leaveQueueRegistry queueId with closingQueueId := none }
  | .spawnPane paneId =>
    if world.IsDispatching ∧ paneId ∉ world.spawnedPaneIds then some (world.parkPanePty paneId) else none
  | .dropServer => if world.IsDispatching then some world.drop else none

def run (actions : List PaneOutputAction) : Option PaneOutputWorld :=
  actions.foldlM PaneOutputWorld.step world

inductive Reachable (shouldWaitForQueueRoom : Bool) : PaneOutputWorld → Prop
  | initial : Reachable shouldWaitForQueueRoom (initial shouldWaitForQueueRoom)
  | step {world nextWorld : PaneOutputWorld} (action : PaneOutputAction) :
      Reachable shouldWaitForQueueRoom world → world.step action = some nextWorld →
        Reachable shouldWaitForQueueRoom nextWorld

end PaneOutputWorld

end Koshi.Runtime
