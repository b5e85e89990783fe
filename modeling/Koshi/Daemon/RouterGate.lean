import Koshi.Base.OrdMap
import Koshi.Ipc.Handshake

/-!
# The router's request gate

The gate between the router's connections and its dispatcher (`koshi-daemon/src/router/request_gate.rs`) and the threads
on its two sides (`router.rs`). A step is what one thread does under the gate's lock or between two waits, in any order.
What a request asks for and what the session list answers are parameters.
-/

namespace Koshi.Daemon

open Base Ipc

variable {α : Type}

inductive RouterRequestKind (α : Type) where
  | createSession (request : α)
  | attachLookup (request : α)
  | restart
  | grantToken (request : α)
  | revokeToken (request : α)
  | listTokens (request : α)
  | remoteStatus
  | enableRemote

inductive RouterResult (α : Type) where
  | restarting
  | error (payload : IpcErrorPayload)
  | answer (answer : α)

def routerRestartingMessage : String := "the router is restarting into a new build; run the command again"

def buildRefusedResult (refusalMessage : String) : RouterResult α := .error ⟨.requestFailed, refusalMessage⟩

/-! ### The gate -/

inductive RouterIntake where
  | «open»
  | restarting
  | closed
  deriving DecidableEq, Repr

structure RouterGateState where
  intake : RouterIntake := .open
  openConnectionCount : Nat := 0
  deriving DecidableEq, Repr

/-- Where a request read off an admitted connection goes. -/
inductive Asked (α : Type) where
  | handedOver
  | answered (result : RouterResult α)
  | unanswered

namespace RouterGateState

variable (gate : RouterGateState)

def admitConnection : Option RouterGateState :=
  if gate.intake = .closed then none else some { gate with openConnectionCount := gate.openConnectionCount + 1 }

def startRefusingRequests : RouterGateState := { gate with intake := .restarting }

def closeIfNoConnectionIsOpen : Bool × RouterGateState :=
  if gate.openConnectionCount > 0 then (false, gate) else (true, { gate with intake := .closed })

/-- `close_once_connections_end` after its wait. -/
def closeIntake : RouterGateState := { gate with intake := .closed }

def reopenIntake : RouterGateState := { gate with intake := .open }

def askDispatcher : RouterRequestKind α → Asked α :=
  match gate.intake with
  | .open => fun _ => .handedOver
  | .restarting => fun
    | .restart => .answered .restarting
    | _ => .answered (buildRefusedResult routerRestartingMessage)
  | .closed => fun _ => .unanswered

/-- An admitted connection is dropped. -/
def dropConnection : RouterGateState := { gate with openConnectionCount := gate.openConnectionCount - 1 }

end RouterGateState

/-! ### The threads -/

/-- What a serving thread is at. -/
inductive ConnectionThread (α : Type) where
  | reading
  | asked
  | answered (result : RouterResult α)

inductive RouterEvent (α : Type) where
  | request (connectionId : Nat) (requestKind : RouterRequestKind α)
  | restartDue
  | admission (isLocate : Bool)
  /-- A thread reports on a child, a description, a probe or a session server. -/
  | report

inductive RouterExit where
  | idle
  | restart
  | childReaperFailed
  deriving DecidableEq, Repr

inductive DispatcherPhase where
  | serving
  /-- The idle window passed, and the gate is not looked at yet. -/
  | idleTimedOut
  /-- The gate refuses, and the events queued are served. -/
  | draining
  /-- The loop gave `Restart`, and the connections may still end. -/
  | restarting
  | handingOver
  | ended (routerExit : RouterExit)
  deriving DecidableEq, Repr

structure RouterWorld (α : Type) where
  gate : RouterGateState
  connections : OrdMap Nat (ConnectionThread α)
  events : List (RouterEvent α)
  /-- Who a waiting request answers: a connection, or none for a remote attach. -/
  waiting : List (Option Nat)
  isRestartPending : Bool
  isSessionListed : Bool
  phase : DispatcherPhase

/-- The answer of one request, none when it joins those that wait; `lookup` is what an attach lookup gives at once. -/
def serveRouterRequest (isRestartPending : Bool) (lookup : Option (RouterResult α)) (result : RouterResult α) :
    RouterRequestKind α → Option (RouterResult α)
  | .createSession _ => if isRestartPending then some (buildRefusedResult routerRestartingMessage) else none
  | .attachLookup _ => if isRestartPending then some (buildRefusedResult routerRestartingMessage) else lookup
  | _ => some result

namespace RouterWorld

variable (w : RouterWorld α)

def start (isSessionListed : Bool) : RouterWorld α := ⟨{}, .empty, [], [], false, isSessionListed, .serving⟩

def setThread (connectionId : Nat) (thread : ConnectionThread α) : RouterWorld α :=
  { w with connections := w.connections.modify connectionId fun _ => thread }

def endConnection (connectionId : Nat) : RouterWorld α :=
  { w with gate := w.gate.dropConnection, connections := w.connections.erase connectionId }

def askDispatcher (connectionId : Nat) (requestKind : RouterRequestKind α) : RouterWorld α :=
  match w.gate.askDispatcher requestKind with
  | .handedOver => { w.setThread connectionId .asked with events := w.events ++ [.request connectionId requestKind] }
  | .answered result => w.setThread connectionId (.answered result)
  | .unanswered => w.endConnection connectionId

/-- The answer is written, and a `Restarting` one is reported. -/
def writeAnswer (connectionId : Nat) : RouterResult α → RouterWorld α
  | .restarting => { w.setThread connectionId .reading with events := w.events ++ [.restartDue] }
  | _ => w.setThread connectionId .reading

def serveRouterEvent (lookup : Option (RouterResult α)) (result : RouterResult α) : RouterEvent α → RouterWorld α
  | .request connectionId requestKind =>
    match serveRouterRequest w.isRestartPending lookup result requestKind with
    | some answer => w.setThread connectionId (.answered answer)
    | none => { w with waiting := w.waiting ++ [some connectionId] }
  | .restartDue => { w with isRestartPending := true }
  | .admission isLocate =>
    if isLocate && !w.isRestartPending then { w with waiting := w.waiting ++ [none] } else w
  | .report => w

end RouterWorld

open RouterWorld

/-- A step of the accept thread, a serving thread, or a thread that reports. -/
inductive ThreadStep : RouterWorld α → RouterWorld α → Prop where
  | opens {w : RouterWorld α} {connectionId : Nat} {gate : RouterGateState}
    (hnew : w.connections.get? connectionId = none)
    (hgate : w.gate.admitConnection = some gate) :
    ThreadStep w { w with gate, connections := w.connections.insert connectionId .reading }
  | ends {w : RouterWorld α} {connectionId : Nat} {thread : ConnectionThread α}
    (hthread : w.connections.get? connectionId = some thread) (hasked : thread ≠ .asked) :
    ThreadStep w (w.endConnection connectionId)
  | ask {w : RouterWorld α} {connectionId : Nat} (hthread : w.connections.get? connectionId = some .reading)
    (requestKind : RouterRequestKind α) : ThreadStep w (w.askDispatcher connectionId requestKind)
  | write {w : RouterWorld α} {connectionId : Nat} {result : RouterResult α}
    (hthread : w.connections.get? connectionId = some (.answered result)) :
    ThreadStep w (w.writeAnswer connectionId result)
  | report {w : RouterWorld α} {event : RouterEvent α} (hevent : ∀ connectionId kind,
    event ≠ .request connectionId kind) :
    ThreadStep w { w with events := w.events ++ [event] }

/-- A step of the dispatcher. -/
inductive DispatcherStep : RouterWorld α → RouterWorld α → Prop where
  | advance {w : RouterWorld α} {connectionId : Nat} (hphase : w.phase = .serving)
    (hwaits : some connectionId ∈ w.waiting)
    (result : RouterResult α) : DispatcherStep w
      { w.setThread connectionId (.answered result) with waiting := w.waiting.erase (some connectionId) }
  | advanceRemote {w : RouterWorld α} (hphase : w.phase = .serving) :
    DispatcherStep w { w with waiting := w.waiting.erase none }
  | listSessions {w : RouterWorld α} (isSessionListed : Bool) : DispatcherStep w { w with isSessionListed }
  | refuse {w : RouterWorld α} (hphase : w.phase = .serving) (hpending : w.isRestartPending = true)
    (hwaits : w.waiting = []) :
    DispatcherStep w { w with gate := w.gate.startRefusingRequests, phase := .draining }
  | serve {w : RouterWorld α} {event : RouterEvent α} {events : List (RouterEvent α)} (hevents : w.events =
    event :: events)
    (hphase : w.phase = .draining ∨ w.phase = .serving ∧ ¬(w.isRestartPending = true ∧ w.waiting = []))
    (lookup : Option (RouterResult α)) (result : RouterResult α) :
    DispatcherStep w ({ w with events }.serveRouterEvent lookup result event)
  | drained {w : RouterWorld α} (hphase : w.phase = .draining) (hevents : w.events = []) :
    DispatcherStep w { w with isRestartPending := false, phase := .restarting }
  | timeOut {w : RouterWorld α} (hphase : w.phase = .serving) (hlisted : w.isSessionListed = false)
    (hwaits : w.waiting = [])
    (hpending : w.isRestartPending = false) (hevents : w.events = []) :
    DispatcherStep w { w with phase := .idleTimedOut }
  | closeIdle {w : RouterWorld α} (hphase : w.phase = .idleTimedOut) :
    DispatcherStep w { w with
      gate := w.gate.closeIfNoConnectionIsOpen.2
      phase := if w.gate.closeIfNoConnectionIsOpen.1 then .ended .idle else .serving }
  | reapFails {w : RouterWorld α} (hphase : w.phase = .serving) :
    DispatcherStep w { w with gate := w.gate.closeIntake, phase := .ended .childReaperFailed }
  | closeOnceConnectionsEnd {w : RouterWorld α} (hphase : w.phase = .restarting) :
    DispatcherStep w { w with gate := w.gate.closeIntake, phase := .handingOver }
  | handOver {w : RouterWorld α} (hphase : w.phase = .handingOver) :
    DispatcherStep w { w with phase := .ended .restart }
  | serveOn {w : RouterWorld α} (hphase : w.phase = .handingOver) :
    DispatcherStep w { w with gate := w.gate.reopenIntake, phase := .serving }

abbrev RouterWorld.IsRunning (w : RouterWorld α) : Prop := ∀ routerExit, w.phase ≠ .ended routerExit

/-- A step of the router while its process runs. -/
def RouterStep (w later : RouterWorld α) : Prop :=
  w.IsRunning ∧ (ThreadStep w later ∨ DispatcherStep w later)

end Koshi.Daemon
