import Koshi.Daemon.PtySupervisor
import Koshi.Runtime.PtyInbox

/-!
# Output credit

The way of a pane's output bytes and of the grants that answer them, through both processes: the supervisor's sink and
serving loop, the frames and requests on each link, the session server's link reader and pane queues, and its dispatcher
(`koshi-daemon/src/pty_supervisor.rs`, `koshi-pty/src/supervisor.rs`, `koshi-runtime/src/runtime/pty_inbox.rs`).

Links are numbered in the order the session server opens them, which is the order the supervisor serves them in. An
answer reaches the call whose request it answers, so a frame says what it answers in place of a request id, and the
answers no step here waits for are one frame. A pane's queue that nothing holds is empty, so a queue is known by its
pane. A session server that replaces its process image starts with empty queues and names the panes it drove.
-/

namespace Koshi.Pty

open Base Ipc Daemon Koshi.Runtime

inductive SupervisorFrame where
  | pane (frame : LinkFrame)
  | hello (protocolVersion : Nat)
  | panes (paneIds : List PaneUuid)
  | spawned (paneId : PaneUuid)
  | otherAnswer
  deriving DecidableEq

/-- What the supervisor's serving loop does next. -/
inductive ServeLoop where
  | idle
  | reads (handshake : SupervisorHandshake)
  /-- `close_panes_that_ended` for a ListPanes. -/
  | closesEnded (handshake : SupervisorHandshake) (endedPaneIds : List PaneUuid)
  | leaves (shouldShutdown : Bool)
  | ended

/-- A kill's thread, before and after it marked its pane as closing. -/
structure KillRun where
  paneId : PaneUuid
  isMarked : Bool
  deriving DecidableEq

/-- How far the session server is with `SupervisorPtyBackend::connect`. -/
inductive ConnectPhase where
  /-- Before a connect, and after one that failed. -/
  | unlinked
  | awaitsHello
  | awaitsPanes
  | killsUnrequested (listedPaneIds : List PaneUuid)
  /-- The exits received so far are taken, and the panes to drive are settled. -/
  | killsExited (retainedPaneIds exitedListedPaneIds : Finset PaneUuid)
  | connected
  deriving DecidableEq

/-- A turn of the dispatcher under way. -/
inductive OutputTurn where
  /-- The bytes left the queue; they are parsed, and reported after that. -/
  | parses (paneId : PaneUuid) (takenByteCount : Nat)
  /-- A grant left the book, and its request is written next. -/
  | grants (paneId : PaneUuid) (grantedByteCount : Nat)
  deriving DecidableEq

/-- Both processes and the links between them. -/
structure CreditWorld where
  connectionToken : ConnectionToken
  -- the supervisor
  linkState : LinkState
  readerPhaseByPaneId : PaneUuid → ReaderPhase
  serveLoop : ServeLoop
  killRuns : List KillRun
  /-- The panes the supervisor's backend holds. -/
  backendPaneIds : Finset PaneUuid
  /-- Every pane it opened so far. -/
  spawnedPaneIds : Finset PaneUuid
  -- the links
  requestsByLink : Nat → List SupervisorRequestKind
  framesByLink : Nat → List SupervisorFrame
  /-- The links the session server opened so far. -/
  linkCount : Nat
  -- the session server
  connectPhase : ConnectPhase
  requestedPaneIds : Finset PaneUuid
  exitedPaneIds : Finset PaneUuid
  /-- `live_pane_by_id`, with each pane's parsed bytes that are not granted back. -/
  ungrantedByteCountByPaneId : PaneUuid → Option Nat
  isLinkClosed : Bool
  /-- The calls of `spawn_pane` under way, and the panes an answer to one names. -/
  spawningPaneIds : Finset PaneUuid
  answeredSpawnPaneIds : Finset PaneUuid
  /-- The panes a connect or a spawn that returned opened. -/
  openedPaneIds : Finset PaneUuid
  queueByPaneId : PaneUuid → PaneOutputQueueState
  outputTurn : Option OutputTurn
  firstImageLink : Nat
  -- what happened so far: a pane id is given once
  usedPaneIds : Finset PaneUuid
  killSentPaneIds : Finset PaneUuid
  exitLinkByPaneId : PaneUuid → Option Nat
  closedQueuePaneIds : Finset PaneUuid
  /-- The pane's queue held output of an earlier link when this link opened, or took some since. -/
  hasEarlierOutput : PaneUuid → Bool
  /-- The panes with a grant whose write on this link failed. -/
  lostGrantPaneIds : Finset PaneUuid

/-- One step. -/
inductive CreditAction where
  | printOutput (paneId : PaneUuid) (outputBytes : List UInt8)
  | printExit (paneId : PaneUuid) (exitStatus : PaneExitStatus)
  | continueReader (paneId : PaneUuid) (isWritten : Bool)
  | acceptLink
  | serveRequest (isSpawned : Bool) (endedPaneIds : List PaneUuid) (isWritten : Bool)
  | closeEndedPane
  | answerPanes (paneIds : List PaneUuid) (isWritten : Bool)
  | dropLink
  | continueKill (killIndex : Nat)
  | startConnect
  | failConnect
  | readFrame (startsNewQueue : Bool)
  | readEarlierFrame (linkNumber : Nat) (startsNewQueue : Bool)
  | killUnrequested (paneId : PaneUuid) (isWritten : Bool)
  | takeExits
  | killExited (paneId : PaneUuid) (isWritten : Bool)
  | finishConnect
  | spawnPane (paneId : PaneUuid) (isWritten : Bool)
  | finishSpawn (paneId : PaneUuid)
  | killPane (paneId : PaneUuid) (isWritten : Bool)
  | sendOther (requestKind : SupervisorRequestKind) (isWritten : Bool)
  | takeTurn (paneId : PaneUuid)
  | reportTurn
  | writeGrant (isWritten : Bool)
  | closeQueue (paneId : PaneUuid)
  | loseLink
  | replaceImage (carriedPaneIds : Finset PaneUuid)

namespace CreditWorld

/-- Before the first link. -/
def initial (connectionToken : ConnectionToken) : CreditWorld where
  connectionToken := connectionToken
  linkState := .new
  readerPhaseByPaneId := fun _ => .reading
  serveLoop := .idle
  killRuns := []
  backendPaneIds := ∅
  spawnedPaneIds := ∅
  requestsByLink := fun _ => []
  framesByLink := fun _ => []
  linkCount := 0
  connectPhase := .unlinked
  requestedPaneIds := ∅
  exitedPaneIds := ∅
  ungrantedByteCountByPaneId := fun _ => none
  isLinkClosed := true
  spawningPaneIds := ∅
  answeredSpawnPaneIds := ∅
  openedPaneIds := ∅
  queueByPaneId := fun _ => .default
  outputTurn := none
  firstImageLink := 1
  usedPaneIds := ∅
  killSentPaneIds := ∅
  exitLinkByPaneId := fun _ => none
  closedQueuePaneIds := ∅
  hasEarlierOutput := fun _ => false
  lostGrantPaneIds := ∅

/-! ### The supervisor -/

variable (world : CreditWorld) (paneId : PaneUuid)

def setReaderPhase (phase : ReaderPhase) : CreditWorld :=
  { world with readerPhaseByPaneId := Function.update world.readerPhaseByPaneId paneId phase }

/-- A pane that was opened prints, or its child ends, while its reader reads. -/
def startSend (phase : ReaderPhase) : Option CreditWorld :=
  if world.readerPhaseByPaneId paneId = .reading ∧ paneId ∈ world.spawnedPaneIds then
    some (world.setReaderPhase paneId phase)
  else none

def appendFrame (linkNumber : Nat) (frame : SupervisorFrame) : CreditWorld :=
  let frames := world.framesByLink linkNumber ++ [frame]
  { world with framesByLink := Function.update world.framesByLink linkNumber frames }

def sendOutput (unsentOutputBytes : List UInt8) (isWritten : Bool) :
    CreditWorld :=
  if unsentOutputBytes = [] then world.setReaderPhase paneId .reading
  else if world.linkState.isClosing = true ∨ paneId ∈ world.linkState.closingPaneIds then
    world.setReaderPhase paneId .discards
  else
    match world.linkState.writeOutputPart paneId unsentOutputBytes isWritten with
    | (some (sentByteCount, linkNumber, frame), linkState) =>
      (({ world with linkState }).appendFrame linkNumber (.pane frame)).setReaderPhase paneId
        (.sendsOutput (unsentOutputBytes.drop sentByteCount))
    | (none, linkState) => { world with linkState }

variable (isWritten : Bool)

/-- The reader's next section in the sink. -/
def continueReader : Option CreditWorld :=
  match world.readerPhaseByPaneId paneId with
  | .sendsOutput unsentOutputBytes => some (world.sendOutput paneId unsentOutputBytes isWritten)
  | .sendsExit exitStatus =>
    match world.linkState.sendEvent paneId (.exited paneId exitStatus) isWritten with
    | (.gaveUp, linkState) => some (({ world with linkState }).setReaderPhase paneId .discards)
    | (.wrote linkNumber frame, linkState) =>
      some ((({ world with
        linkState
        exitLinkByPaneId := Function.update world.exitLinkByPaneId paneId (some linkNumber) }).appendFrame linkNumber
          (.pane frame)).setReaderPhase paneId .recordsExit)
    | (.waits, linkState) => some { world with linkState }
  | .recordsExit =>
    some (({ world with linkState := world.linkState.recordEndedPane paneId }).setReaderPhase paneId .ended)
  | _ => none

/-- The serving loop's answer, on the link it serves. -/
def writeAnswer (frame : SupervisorFrame) (isWritten : Bool) (serveLoop : ServeLoop) :
    CreditWorld :=
  match world.linkState.frameWriter with
  | some linkNumber =>
    if isWritten then { world.appendFrame linkNumber frame with serveLoop }
    else { world with linkState := { world.linkState with frameWriter := none }, serveLoop := .leaves false }
  | none => { world with serveLoop := .leaves false }

/-- Carries out one request the gate let through. -/
def serveAccepted (handshake : SupervisorHandshake) (requestKind : SupervisorRequestKind) (isSpawned : Bool)
    (endedPaneIds : List PaneUuid) (isWritten : Bool) : Option CreditWorld :=
  match requestKind with
  | .hello .. =>
    match handshake.agreedProtocolVersion with
    | some protocolVersion =>
      some (({ world with linkState := world.linkState.markLinkOpen protocolVersion }).writeAnswer
        (.hello protocolVersion) isWritten (.reads handshake))
    | none => none
  | .spawn paneId =>
    if isSpawned = true ∧ paneId ∉ world.spawnedPaneIds then
      some (({ world with
        backendPaneIds := insert paneId world.backendPaneIds
        spawnedPaneIds := insert paneId world.spawnedPaneIds }).writeAnswer (.spawned paneId) isWritten
          (.reads handshake))
    else some (world.writeAnswer .otherAnswer isWritten (.reads handshake))
  | .kill paneId => some { world with
      killRuns := world.killRuns ++ [⟨paneId, false⟩]
      serveLoop := .reads handshake }
  | .listPanes =>
    if endedPaneIds.toFinset = world.linkState.endedPaneIds then
      some { world with serveLoop := .closesEnded handshake endedPaneIds }
    else none
  | .pauseOutput =>
    some (({ world with linkState := world.linkState.pauseEventOutput }).writeAnswer .otherAnswer isWritten
      (.reads handshake))
  | .resumeOutput =>
    some (({ world with linkState := world.linkState.resumeEventOutput }).writeAnswer .otherAnswer isWritten
      (.reads handshake))
  | .shutdown => some (world.writeAnswer .otherAnswer isWritten (.leaves true))
  | .grantPaneOutput paneId grantedByteCount => some { world with
      linkState := world.linkState.grantPaneOutput paneId grantedByteCount
      serveLoop := .reads handshake }
  | .resize _ | .write .. | .liveCwd _ => some (world.writeAnswer .otherAnswer isWritten (.reads handshake))
  | .unknown _ => none

/-- The serving loop takes the next request of its link. -/
def serveRequest (isSpawned : Bool) (endedPaneIds : List PaneUuid) (isWritten : Bool) : Option CreditWorld :=
  match world.serveLoop, world.requestsByLink world.linkState.linkGeneration with
  | .reads handshake, requestKind :: requestKinds =>
    let requestsByLink := Function.update world.requestsByLink world.linkState.linkGeneration requestKinds
    let world := { world with requestsByLink }
    match handshake.validateRequestKind requestKind with
    | .ok handshake => world.serveAccepted handshake requestKind isSpawned endedPaneIds isWritten
    | .error _ =>
      match requestKind with
      | .grantPaneOutput .. => some world
      | _ => some (world.writeAnswer .otherAnswer isWritten (.reads handshake))
  | _, _ => none

/-- Closes the next ended pane: the three sections touch nothing another thread reads between them. -/
def closeEndedPane : Option CreditWorld :=
  match world.serveLoop with
  | .closesEnded handshake (paneId :: endedPaneIds) => some { world with
      linkState := (world.linkState.markPaneClosing paneId).removeEndedPane paneId
      backendPaneIds := world.backendPaneIds.erase paneId
      serveLoop := .closesEnded handshake endedPaneIds }
  | _ => none

/-- Lists panes the backend holds: a kill that is under way may have taken more of them out. -/
def answerPanes (paneIds : List PaneUuid) (isWritten : Bool) : Option CreditWorld :=
  match world.serveLoop with
  | .closesEnded handshake [] =>
    if ∀ paneId ∈ paneIds, paneId ∈ world.backendPaneIds then
      some (world.writeAnswer (.panes paneIds) isWritten (.reads handshake))
    else none
  | _ => none

/-- The link broke, or the loop is done with it. -/
def dropLink : Option CreditWorld :=
  match world.serveLoop with
  | .reads _ | .leaves false => some { world with linkState := world.linkState.clearLink, serveLoop := .idle }
  | .leaves true => some { world with linkState := world.linkState.clearLink, serveLoop := .ended }
  | _ => none

def acceptLink : Option CreditWorld :=
  match world.serveLoop with
  | .idle =>
    if world.linkState.linkGeneration < world.linkCount then
      some { world with
        linkState := world.linkState.setLinkWriter
        serveLoop := .reads (.fromConnectionToken world.connectionToken) }
    else none
  | _ => none

/-- A kill thread's next section; its answer is one nothing here waits for. -/
def continueKill (killIndex : Nat) : Option CreditWorld :=
  match world.killRuns[killIndex]? with
  | some ⟨paneId, false⟩ => some { world with
      linkState := world.linkState.markPaneClosing paneId
      killRuns := world.killRuns.set killIndex ⟨paneId, true⟩ }
  | some ⟨paneId, true⟩ => some { world with
      linkState := world.linkState.removeEndedPane paneId
      backendPaneIds := world.backendPaneIds.erase paneId
      killRuns := world.killRuns.eraseIdx killIndex }
  | none => none

/-! ### The session server -/

/-- Registers and writes a request on the link that is up; a request that cannot be written is gone. -/
def sendRequest (requestKind : SupervisorRequestKind) (isWritten : Bool) : CreditWorld :=
  if world.isLinkClosed = false ∧ isWritten = true then
    let requestKinds := world.requestsByLink world.linkCount ++ [requestKind]
    { world with requestsByLink := Function.update world.requestsByLink world.linkCount requestKinds }
  else world

/-- `connect` opens a link and presents the token. -/
def startConnect : Option CreditWorld :=
  if world.connectPhase = .unlinked then
    some { world with
      linkCount := world.linkCount + 1
      requestsByLink := Function.update world.requestsByLink (world.linkCount + 1)
        [.hello minSupervisorProtocolVersion supervisorProtocolVersion world.connectionToken]
      connectPhase := .awaitsHello
      exitedPaneIds := ∅
      isLinkClosed := false
      hasEarlierOutput := fun paneId => decide ((world.queueByPaneId paneId).outputChunks ≠ [])
      lostGrantPaneIds := ∅ }
  else none

/-- An answer is missing or wrong, or the link broke: the caller connects again. -/
def failConnect : Option CreditWorld :=
  if world.connectPhase = .unlinked ∨ world.connectPhase = .connected then none
  else some { world with connectPhase := .unlinked, isLinkClosed := true }

/-- `accept_output_bytes` or `accept_exit_status` of the sink that never waits. A push that finds a closed queue is
refused; once the queue left the registry, a push starts a new one. -/
def pushPaneEvent (event : PaneEvent) (startsNewQueue : Bool) : CreditWorld :=
  let queueState := world.queueByPaneId paneId
  if event = .output [] then world
  else if queueState.isClosed = false then
    { world with queueByPaneId := Function.update world.queueByPaneId paneId (queueState.accept event) }
  else if startsNewQueue then
    { world with
      queueByPaneId := Function.update world.queueByPaneId paneId (PaneOutputQueueState.default.accept event) }
  else world

def toExitStatus : PaneExitStatus → ExitStatus
  | .exitCode code => .exitCode code
  | .signaled signal => .signaled signal

/-- A pane's event reaches the sink. -/
def receivePaneFrame (frame : LinkFrame) (startsNewQueue : Bool) : CreditWorld :=
  match frame.readEvent with
  | some (.output paneId outputBytes) => world.pushPaneEvent paneId (.output outputBytes) startsNewQueue
  | some (.exited paneId exitStatus) =>
    ({ world with exitedPaneIds := insert paneId world.exitedPaneIds }).pushPaneEvent paneId
      (.exit (toExitStatus exitStatus)) startsNewQueue
  | none => world

/-- The link reader takes the next frame. -/
def readFrame (startsNewQueue : Bool) : Option CreditWorld :=
  match world.isLinkClosed, world.framesByLink world.linkCount with
  | false, frame :: frames =>
    let world := { world with framesByLink := Function.update world.framesByLink world.linkCount frames }
    match frame with
    | .pane frame => some (world.receivePaneFrame frame startsNewQueue)
    | .hello _ =>
      if world.connectPhase = .awaitsHello then
        some { world.sendRequest .listPanes true with connectPhase := .awaitsPanes }
      else some world
    | .panes paneIds =>
      if world.connectPhase = .awaitsPanes then some { world with connectPhase := .killsUnrequested paneIds }
      else some world
    | .spawned paneId => some { world with answeredSpawnPaneIds := insert paneId world.answeredSpawnPaneIds }
    | .otherAnswer => some world
  | _, _ => none

/-- The reader of a link whose connect failed hands over what it still read. -/
def readEarlierFrame (linkNumber : Nat) (startsNewQueue : Bool) : Option CreditWorld :=
  match world.framesByLink linkNumber with
  | .pane frame :: frames =>
    if world.firstImageLink ≤ linkNumber ∧ linkNumber < world.linkCount then
      match frame.readEvent with
      | some (.output paneId outputBytes) =>
        some (({ world with
          framesByLink := Function.update world.framesByLink linkNumber frames
          hasEarlierOutput := Function.update world.hasEarlierOutput paneId true }).pushPaneEvent paneId
            (.output outputBytes) startsNewQueue)
      | _ => none
    else none
  | _ => none

/-- `reconcile_panes`, step 1. -/
def killUnrequested : Option CreditWorld :=
  match world.connectPhase with
  | .killsUnrequested listedPaneIds =>
    if paneId ∈ listedPaneIds ∧ paneId ∉ world.requestedPaneIds then
      some (({ world with killSentPaneIds := insert paneId world.killSentPaneIds }).sendRequest (.kill paneId)
        isWritten)
    else none
  | _ => none

/-- The exits received so far settle which of the listed panes are driven. -/
def takeExits : Option CreditWorld :=
  match world.connectPhase with
  | .killsUnrequested listedPaneIds =>
    let claimedPaneIds := listedPaneIds.toFinset.filter fun paneId => paneId ∈ world.requestedPaneIds
    some { world with
      connectPhase := .killsExited (claimedPaneIds.filter fun paneId => paneId ∉ world.exitedPaneIds)
        (claimedPaneIds.filter fun paneId => paneId ∈ world.exitedPaneIds) }
  | _ => none

def killExited : Option CreditWorld :=
  match world.connectPhase with
  | .killsExited _ exitedListedPaneIds =>
    if paneId ∈ exitedListedPaneIds then
      some (({ world with killSentPaneIds := insert paneId world.killSentPaneIds }).sendRequest (.kill paneId)
        isWritten)
    else none
  | _ => none

/-- `connect` returns with the panes it drives. -/
def finishConnect : Option CreditWorld :=
  match world.connectPhase, world.isLinkClosed with
  | .killsExited retainedPaneIds _, false => some { world with
      connectPhase := .connected
      ungrantedByteCountByPaneId := fun paneId => if paneId ∈ retainedPaneIds then some 0 else none
      openedPaneIds := retainedPaneIds }
  | _, _ => none

/-- `spawn_pane` writes its request; a pane id is given once. -/
def spawnPane : Option CreditWorld :=
  if world.connectPhase = .connected ∧ paneId ∉ world.usedPaneIds then
    some (({ world with
      usedPaneIds := insert paneId world.usedPaneIds
      spawningPaneIds := insert paneId world.spawningPaneIds }).sendRequest (.spawn paneId) isWritten)
  else none

/-- `spawn_pane` has its answer, and returns. -/
def finishSpawn : Option CreditWorld :=
  if paneId ∈ world.spawningPaneIds ∧ paneId ∈ world.answeredSpawnPaneIds then
    let world := { world with spawningPaneIds := world.spawningPaneIds.erase paneId }
    if world.isLinkClosed then some world
    else some { world with
      ungrantedByteCountByPaneId := Function.update world.ungrantedByteCountByPaneId paneId (some 0)
      openedPaneIds := insert paneId world.openedPaneIds }
  else none

def killPane : Option CreditWorld :=
  match world.ungrantedByteCountByPaneId paneId with
  | none => none
  | some _ => some (({ world with
      ungrantedByteCountByPaneId := Function.update world.ungrantedByteCountByPaneId paneId none
      killSentPaneIds := insert paneId world.killSentPaneIds }).sendRequest (.kill paneId) isWritten)

/-- A request that neither opens nor closes a pane nor grants. -/
def IsOtherRequest : SupervisorRequestKind → Bool
  | .resize _ | .write .. | .liveCwd _ | .pauseOutput | .resumeOutput | .shutdown => true
  | _ => false

def countBytes (chunks : List (List UInt8)) : Nat := (chunks.map List.length).sum

/-- The dispatcher takes a turn's chunks and parses them. -/
def takeTurn : Option CreditWorld :=
  if world.outputTurn = none ∧ world.connectPhase = .connected ∧ paneId ∈ world.openedPaneIds then
    let (turn, queueState) := (world.queueByPaneId paneId).takeOutputTurn
    some { world with
      queueByPaneId := Function.update world.queueByPaneId paneId queueState
      outputTurn := some (.parses paneId (countBytes turn.outputChunks)) }
  else none

/-- `grant_pane_output` under the book's lock. -/
def reportTurn : Option CreditWorld :=
  match world.outputTurn with
  | some (.parses paneId parsedByteCount) =>
    match world.ungrantedByteCountByPaneId paneId with
    | none => some { world with outputTurn := none }
    | some ungrantedByteCount =>
      if ungrantedByteCount + parsedByteCount < minimumOutputGrantByteCount then
        some { world with
          ungrantedByteCountByPaneId := Function.update world.ungrantedByteCountByPaneId paneId
            (some (ungrantedByteCount + parsedByteCount))
          outputTurn := none }
      else
        some { world with
          ungrantedByteCountByPaneId := Function.update world.ungrantedByteCountByPaneId paneId (some 0)
          outputTurn := some (.grants paneId (ungrantedByteCount + parsedByteCount)) }
  | _ => none

/-- The grant's request. A grant that cannot be written is dropped. -/
def writeGrant : Option CreditWorld :=
  match world.outputTurn with
  | some (.grants paneId grantedByteCount) =>
    let world := { world with outputTurn := none }
    if world.isLinkClosed = false ∧ isWritten = true then
      some (world.sendRequest (.grantPaneOutput paneId (tryU32OrMax grantedByteCount)) true)
    else some { world with lostGrantPaneIds := insert paneId world.lostGrantPaneIds }
  | _ => none

def closeQueue : CreditWorld :=
  { world with
    queueByPaneId := Function.update world.queueByPaneId paneId (world.queueByPaneId paneId).close
    closedQueuePaneIds := insert paneId world.closedQueuePaneIds }

/-- The link reader ends: every pane leaves the backend. -/
def loseLink : Option CreditWorld :=
  if world.isLinkClosed then none
  else some { world with isLinkClosed := true, ungrantedByteCountByPaneId := fun _ => none }

/-- The session server replaces its process image. -/
def replaceImage (carriedPaneIds : Finset PaneUuid) : Option CreditWorld :=
  if world.connectPhase = .connected ∧ ∀ paneId ∈ carriedPaneIds, world.ungrantedByteCountByPaneId paneId ≠ none then
    some { world with
      connectPhase := .unlinked
      requestedPaneIds := carriedPaneIds
      ungrantedByteCountByPaneId := fun _ => none
      isLinkClosed := true
      spawningPaneIds := ∅
      answeredSpawnPaneIds := ∅
      openedPaneIds := ∅
      queueByPaneId := fun _ => .default
      outputTurn := none
      firstImageLink := world.linkCount + 1
      closedQueuePaneIds := ∅ }
  else none

def step : CreditAction → Option CreditWorld
  | .printOutput paneId outputBytes => world.startSend paneId (.sendsOutput outputBytes)
  | .printExit paneId exitStatus => world.startSend paneId (.sendsExit exitStatus)
  | .continueReader paneId isWritten => world.continueReader paneId isWritten
  | .acceptLink => world.acceptLink
  | .serveRequest isSpawned endedPaneIds isWritten => world.serveRequest isSpawned endedPaneIds isWritten
  | .closeEndedPane => world.closeEndedPane
  | .answerPanes paneIds isWritten => world.answerPanes paneIds isWritten
  | .dropLink => world.dropLink
  | .continueKill killIndex => world.continueKill killIndex
  | .startConnect => world.startConnect
  | .failConnect => world.failConnect
  | .readFrame startsNewQueue => world.readFrame startsNewQueue
  | .readEarlierFrame linkNumber startsNewQueue => world.readEarlierFrame linkNumber startsNewQueue
  | .killUnrequested paneId isWritten => world.killUnrequested paneId isWritten
  | .takeExits => world.takeExits
  | .killExited paneId isWritten => world.killExited paneId isWritten
  | .finishConnect => world.finishConnect
  | .spawnPane paneId isWritten => world.spawnPane paneId isWritten
  | .finishSpawn paneId => world.finishSpawn paneId
  | .killPane paneId isWritten => world.killPane paneId isWritten
  | .sendOther requestKind isWritten =>
    if world.connectPhase = .connected ∧ IsOtherRequest requestKind then some (world.sendRequest requestKind isWritten)
    else none
  | .takeTurn paneId => world.takeTurn paneId
  | .reportTurn => world.reportTurn
  | .writeGrant isWritten => world.writeGrant isWritten
  | .closeQueue paneId => some (world.closeQueue paneId)
  | .loseLink => world.loseLink
  | .replaceImage carriedPaneIds => world.replaceImage carriedPaneIds

def run (actions : List CreditAction) : Option CreditWorld :=
  actions.foldlM CreditWorld.step world

end CreditWorld

end Koshi.Pty
