import Koshi.Daemon.LinkSink

/-!
# The pane supervisor

The threads of the process that holds a session's panes (`koshi-daemon/src/pty_supervisor.rs`): one reader a pane, the
serving loop with the link it serves, and one thread a kill. Each section under the sink's lock is one step, and the
steps of the threads come in any order. The backend's answers, what the peer sends, and whether a write succeeds are
parts of an action. A kill for which the system starts no thread runs on the serving loop: that is an order of the same
steps.

The history tells, in order of time, what each link was sent and what was read from it. An answer names the request it
answers, and each request that was read has a number of its own, since the peer's request ids start over on each link.
-/

namespace Koshi.Daemon

open Base Ipc

/-! ## The history of the links -/

/-- A request as it was read from a link: `none` when its bytes were no request. -/
structure ReceivedRequest where
  arrivalNumber : Nat
  request : Option SupervisorRequest
  /-- The gate let it through. -/
  isAccepted : Bool
  deriving DecidableEq

inductive LinkEntry where
  | received (receivedRequest : ReceivedRequest)
  /-- A frame that went out whole, and the request it answers. -/
  | written (frame : LinkFrame) (answeredRequest : Option ReceivedRequest)
  deriving DecidableEq

/-- What the session server reads of an entry as a pane's event. -/
def LinkEntry.readEvent : LinkEntry → Option SupervisorEvent
  | .received _ => none
  | .written frame _ => frame.readEvent

abbrev HistoryEntry := Nat × LinkEntry

variable (paneId : PaneUuid)

def readPaneOutput (entry : HistoryEntry) : List UInt8 :=
  match entry.2.readEvent with
  | some (.output eventPaneId outputBytes) => if eventPaneId = paneId then outputBytes else []
  | _ => []

def joinPaneOutput (history : List HistoryEntry) : List UInt8 :=
  history.flatMap (readPaneOutput paneId)

/-! ## The threads -/

inductive ReaderPhase where
  | reading
  | sendsOutput (unsentOutputBytes : List UInt8)
  | sendsExit (exitStatus : PaneExitStatus)
  /-- The exit is written, and the pane is recorded as ended next. -/
  | recordsExit
  | ended
  /-- The sink wants nothing more of the pane: what it still prints is dropped. -/
  | discards
  deriving DecidableEq

structure PaneReader where
  phase : ReaderPhase
  printedBytes : List UInt8
  deriving DecidableEq

/-- What the serving loop does next with a link. -/
inductive ServePhase where
  | awaitsLink
  | reads (handshake : SupervisorHandshake)
  | carriesOut (handshake : SupervisorHandshake) (receivedRequest : ReceivedRequest) (request : SupervisorRequest)
  /-- `close_panes_that_ended` for a ListPanes. A pane that is marked is closed by the backend, and forgotten next. -/
  | closesEnded (handshake : SupervisorHandshake) (receivedRequest : ReceivedRequest) (requestId : Nat)
      (endedPaneIds : List PaneUuid) (isMarked : Bool)
  | answers (handshake : SupervisorHandshake) (receivedRequest : ReceivedRequest) (response : SupervisorResponse)
      (shouldShutdown : Bool)
  | leavesLink (shouldShutdown : Bool)
  | endsSends
  | ended

/-- What a kill's thread does next. -/
inductive KillPhase where
  | marksPane
  /-- The backend closes the pane, and it leaves the ended panes. -/
  | forgetsPane
  | answers (closeResult : SupervisorResult)
  | finished
  deriving DecidableEq

structure KillThread where
  linkGeneration : Nat
  receivedRequest : ReceivedRequest
  requestId : Nat
  paneId : PaneUuid
  phase : KillPhase

structure SupervisorWorld where
  connectionToken : ConnectionToken
  linkState : LinkState
  readerByPaneId : PaneUuid → PaneReader
  servePhase : ServePhase
  servedLinkGeneration : Nat
  killThreads : List KillThread
  history : List HistoryEntry
  arrivalCount : Nat

/-- What reading a link gave. -/
inductive ReceivedFrame where
  | request (request : SupervisorRequest)
  | malformed
  /-- The peer hung up, the transport failed, or the handshake's deadline passed. -/
  | faulted

/-- One step. -/
inductive SupervisorAction where
  | printOutput (paneId : PaneUuid) (outputBytes : List UInt8)
  | printExit (paneId : PaneUuid) (exitStatus : PaneExitStatus)
  | continueReader (paneId : PaneUuid) (isWritten : Bool)
  | openLink
  | receive (frame : ReceivedFrame)
  /-- The loop's next section, with the ended panes in the order the set gives them and the backend's answer. -/
  | continueServe (endedPaneIds : List PaneUuid) (backendResult : SupervisorResult) (isWritten : Bool)
  | continueKill (killIndex : Nat) (closeResult : SupervisorResult) (isWritten : Bool)
  /-- No link came for as long as the supervisor waits. -/
  | giveUpIdle

namespace SupervisorWorld

/-- Before any link. -/
def initial (connectionToken : ConnectionToken) : SupervisorWorld where
  connectionToken := connectionToken
  linkState := .new
  readerByPaneId := fun _ => ⟨.reading, []⟩
  servePhase := .awaitsLink
  servedLinkGeneration := 0
  killThreads := []
  history := []
  arrivalCount := 0

variable (world : SupervisorWorld)

/-- An entry ends the history. -/
def record (linkNumber : Nat) (entry : LinkEntry) : SupervisorWorld :=
  { world with history := world.history ++ [(linkNumber, entry)] }

/-- A section of a send: the sink's new state, and what went out. -/
def applySend (send : SendOutcome × LinkState) (answeredRequest : Option ReceivedRequest) :
    SupervisorWorld :=
  let world := { world with linkState := send.2 }
  match send.1 with
  | .wrote linkNumber frame => world.record linkNumber (.written frame answeredRequest)
  | _ => world

def setReader (paneReader : PaneReader) : SupervisorWorld :=
  { world with readerByPaneId := Function.update world.readerByPaneId paneId paneReader }

def setReaderPhase (phase : ReaderPhase) : SupervisorWorld :=
  world.setReader paneId ⟨phase, (world.readerByPaneId paneId).printedBytes⟩

/-- The pane prints, and its reader has the chunk. -/
def printOutput (outputBytes : List UInt8) : Option SupervisorWorld :=
  let printedBytes := (world.readerByPaneId paneId).printedBytes ++ outputBytes
  match (world.readerByPaneId paneId).phase with
  | .reading => some (world.setReader paneId ⟨.sendsOutput outputBytes, printedBytes⟩)
  | .discards => some (world.setReader paneId ⟨.discards, printedBytes⟩)
  | _ => none

/-- The pane's child ended after its last chunk. -/
def printExit (exitStatus : PaneExitStatus) : Option SupervisorWorld :=
  if (world.readerByPaneId paneId).phase = .reading then some (world.setReaderPhase paneId (.sendsExit exitStatus))
  else none

def sendOutput (unsentOutputBytes : List UInt8) (isWritten : Bool) :
    SupervisorWorld :=
  if unsentOutputBytes = [] then world.setReaderPhase paneId .reading
  else if world.linkState.isClosing = true ∨ paneId ∈ world.linkState.closingPaneIds then
    world.setReaderPhase paneId .discards
  else
    match world.linkState.writeOutputPart paneId unsentOutputBytes isWritten with
    | (some (sentByteCount, linkNumber, frame), linkState) =>
      (({ world with linkState }).record linkNumber (.written frame none)).setReaderPhase paneId
        (.sendsOutput (unsentOutputBytes.drop sentByteCount))
    | (none, linkState) => { world with linkState }

/-- The reader's next section in the sink. -/
def continueReader (isWritten : Bool) : Option SupervisorWorld :=
  match (world.readerByPaneId paneId).phase with
  | .sendsOutput unsentOutputBytes => some (world.sendOutput paneId unsentOutputBytes isWritten)
  | .sendsExit exitStatus =>
    let send := world.linkState.sendEvent paneId (.exited paneId exitStatus) isWritten
    let nextWorld := world.applySend send none
    match send.1 with
    | .gaveUp => some (nextWorld.setReaderPhase paneId .discards)
    | .wrote .. => some (nextWorld.setReaderPhase paneId .recordsExit)
    | .waits => some nextWorld
  | .recordsExit =>
    some (({ world with linkState := world.linkState.recordEndedPane paneId }).setReaderPhase paneId .ended)
  | _ => none

/-- `set_link_writer` for the next connection. -/
def openLink : Option SupervisorWorld :=
  match world.servePhase with
  | .awaitsLink => some { world with
      linkState := world.linkState.setLinkWriter
      servePhase := .reads (.fromConnectionToken world.connectionToken)
      servedLinkGeneration := world.linkState.linkGeneration + 1 }
  | _ => none

/-- Reads the next frame and asks the gate about it. -/
def receive (frame : ReceivedFrame) : Option SupervisorWorld :=
  match world.servePhase with
  | .reads handshake =>
    let record (request : Option SupervisorRequest) (isAccepted : Bool) :=
      ({ world with arrivalCount := world.arrivalCount + 1 }).record world.servedLinkGeneration
        (.received ⟨world.arrivalCount, request, isAccepted⟩)
    match frame with
    | .faulted => some { world with servePhase := .leavesLink false }
    | .malformed => some { record none false with
        servePhase := .answers handshake ⟨world.arrivalCount, none, false⟩
          ⟨none, .error ⟨.malformedRequest, "the bytes received are not a request this build can read"⟩⟩ false }
    | .request request =>
      match handshake.validateRequestKind request.requestKind with
      | .ok handshake => some { record (some request) true with
          servePhase := .carriesOut handshake ⟨world.arrivalCount, some request, true⟩ request }
      | .error refusalError =>
        match request.requestKind with
        | .grantPaneOutput .. => some (record (some request) false)
        | _ => some { record (some request) false with
            servePhase := .answers handshake ⟨world.arrivalCount, some request, false⟩
              ⟨some request.requestId, .error refusalError⟩ false }
  | _ => none

/-- `serve_supervisor_request`, with the opening of the link an accepted Hello does before it. -/
def carryOut (handshake : SupervisorHandshake) (receivedRequest : ReceivedRequest) (request : SupervisorRequest)
    (endedPaneIds : List PaneUuid) (backendResult : SupervisorResult) :
    Option SupervisorWorld :=
  let answer (linkState : LinkState) (answerResult : SupervisorResult) (shouldShutdown : Bool) :=
    some { world with
      linkState
      servePhase := .answers handshake receivedRequest ⟨some request.requestId, answerResult⟩ shouldShutdown }
  match request.requestKind with
  | .hello .. =>
    match handshake.agreedProtocolVersion with
    | some protocolVersion => answer (world.linkState.markLinkOpen protocolVersion) (.hello protocolVersion) false
    | none => none
  | .spawn _ | .resize _ | .write .. | .liveCwd _ => answer world.linkState backendResult false
  | .kill paneId => some { world with
      servePhase := .reads handshake
      killThreads := world.killThreads ++
        [⟨world.servedLinkGeneration, receivedRequest, request.requestId, paneId, .marksPane⟩] }
  | .listPanes =>
    if endedPaneIds.Nodup ∧ endedPaneIds.toFinset = world.linkState.endedPaneIds then
      some { world with servePhase := .closesEnded handshake receivedRequest request.requestId endedPaneIds false }
    else none
  | .pauseOutput => answer world.linkState.pauseEventOutput .done false
  | .resumeOutput => answer world.linkState.resumeEventOutput .done false
  | .shutdown => answer world.linkState .done true
  | .grantPaneOutput paneId grantedByteCount => some { world with
      linkState := world.linkState.grantPaneOutput paneId grantedByteCount
      servePhase := .reads handshake }
  | .unknown _ => none

/-- The serving loop's next section. -/
def continueServe (endedPaneIds : List PaneUuid) (backendResult : SupervisorResult) (isWritten : Bool) :
    Option SupervisorWorld :=
  match world.servePhase with
  | .carriesOut handshake receivedRequest request =>
    world.carryOut handshake receivedRequest request endedPaneIds backendResult
  | .closesEnded handshake receivedRequest requestId [] _ => some { world with
      servePhase := .answers handshake receivedRequest ⟨some requestId, backendResult⟩ false }
  | .closesEnded handshake receivedRequest requestId (paneId :: paneIds) false => some { world with
      linkState := world.linkState.markPaneClosing paneId
      servePhase := .closesEnded handshake receivedRequest requestId (paneId :: paneIds) true }
  | .closesEnded handshake receivedRequest requestId (paneId :: paneIds) true => some { world with
      linkState := world.linkState.removeEndedPane paneId
      servePhase := .closesEnded handshake receivedRequest requestId paneIds false }
  | .answers handshake receivedRequest response shouldShutdown =>
    let send := world.linkState.sendResponse world.servedLinkGeneration response isWritten
    let nextWorld := world.applySend send (some receivedRequest)
    match send.1 with
    | .wrote .. => some { nextWorld with
        servePhase := if shouldShutdown then .leavesLink true else .reads handshake }
    | _ => some { nextWorld with servePhase := .leavesLink false }
  | .leavesLink shouldShutdown => some { world with
      linkState := world.linkState.clearLink
      servePhase := if shouldShutdown then .endsSends else .awaitsLink }
  | .endsSends => some { world with linkState := world.linkState.markClosing, servePhase := .ended }
  | .awaitsLink | .reads _ | .ended => none

/-- A kill thread's next section: `close_pane`, then its answer. -/
def continueKill (killIndex : Nat) (closeResult : SupervisorResult) (isWritten : Bool) : Option SupervisorWorld :=
  match world.killThreads[killIndex]? with
  | none => none
  | some killThread =>
    let advance (world : SupervisorWorld) (phase : KillPhase) :=
      { world with killThreads := world.killThreads.set killIndex { killThread with phase } }
    match killThread.phase with
    | .marksPane => some (advance
        { world with linkState := world.linkState.markPaneClosing killThread.paneId } .forgetsPane)
    | .forgetsPane => some (advance
        { world with linkState := world.linkState.removeEndedPane killThread.paneId } (.answers closeResult))
    | .answers closeResult =>
      let send := world.linkState.sendResponse killThread.linkGeneration
        ⟨some killThread.requestId, closeResult⟩ isWritten
      some (advance (world.applySend send (some killThread.receivedRequest)) .finished)
    | .finished => none

def step : SupervisorAction → Option SupervisorWorld
  | .printOutput paneId outputBytes => world.printOutput paneId outputBytes
  | .printExit paneId exitStatus => world.printExit paneId exitStatus
  | .continueReader paneId isWritten => world.continueReader paneId isWritten
  | .openLink => world.openLink
  | .receive frame => world.receive frame
  | .continueServe endedPaneIds backendResult isWritten => world.continueServe endedPaneIds backendResult isWritten
  | .continueKill killIndex closeResult isWritten => world.continueKill killIndex closeResult isWritten
  | .giveUpIdle =>
    match world.servePhase with
    | .awaitsLink => some { world with servePhase := .endsSends }
    | _ => none

def run (actions : List SupervisorAction) : Option SupervisorWorld :=
  actions.foldlM SupervisorWorld.step world

end SupervisorWorld

end Koshi.Daemon
