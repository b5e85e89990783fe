import Mathlib.Data.Finset.Basic
import Mathlib.Logic.Function.Basic
import Koshi.Ipc.Supervisor

/-!
# Calls over the supervisor link

Driving panes that live in the supervisor (`koshi-pty/src/supervisor.rs`): the book that the callers of one backend
share with the link reader, the calls, the connect that settles which panes are driven, and the reader. Each section
under the book's lock is one step, and so is each write; what arrives on the link, how a write comes out and when a wait
runs out are the arguments of a step. A pane id is given to one pane.

The history starts with the link: what the callers and the reader did, in the order they did it.
-/

namespace Koshi.Pty

open Ipc

/-- Why the link reader stopped reading the link. -/
inductive LinkCloseCause where
  | readFailed
  | unreadableFrame
  deriving DecidableEq

inductive AnswerResult where
  | known (supervisorResult : SupervisorResult)
  | unknown (variantName : String)
  deriving DecidableEq

/-- An answer as the link reader reads it. -/
structure AnswerFrame where
  requestId : Option Nat
  answerResult : AnswerResult
  deriving DecidableEq

/-- What the link reader hands a caller. -/
inductive LinkAnswer where
  | response (answerFrame : AnswerFrame)
  | strayResponse (answeredRequestId : Option Nat)
  deriving DecidableEq

/-- How a call failed. -/
inductive PtyError where
  | unknownPane (paneId : PaneUuid)
  | linkClosed (requestKindName : String)
  | notWritten (requestKindName : String)
  | strayAnswer (answeredRequestId : Option Nat) (requestKindName : String) (requestId : Nat)
  | notAnswered (requestKindName : String)
  /-- The link closed while the request was in flight. -/
  | linkLost (requestKindName : String)
  | refused (requestKindName message : String)
  | unknownAnswer (requestKindName variantName : String)
  | unexpectedResult (requestKindName : String) (supervisorResult : SupervisorResult)
  /-- The link closed after the pane was opened. -/
  | lostSpawn (paneId : PaneUuid)
  deriving DecidableEq

/-! ## The book -/

/-- What the callers and the link reader share. -/
structure LinkBook where
  nextRequestId : Nat
  /-- The keys of `answer_sender_by_request_id`. -/
  waitingRequestIds : List Nat
  livePaneIds : Finset PaneUuid
  exitStatusByPaneIdDuringConnect : Option (PaneUuid → Option PaneExitStatus)
  linkCloseCause : Option LinkCloseCause

def unobservedExit : PaneExitStatus := .exitCode (-1)

def expectsAnswer : SupervisorRequestKind → Bool
  | .grantPaneOutput .. => false
  | _ => true

namespace LinkBook

def new : LinkBook := ⟨1, [], ∅, some fun _ => none, none⟩

variable (linkBook : LinkBook)

/-- Gives the next request id; `none` when the link is closed. -/
def registerRequest (requestKind : SupervisorRequestKind) : Option (Nat × LinkBook) :=
  if linkBook.linkCloseCause = none then
    let requestId := linkBook.nextRequestId
    some (requestId, { linkBook with
      nextRequestId := requestId + 1
      waitingRequestIds :=
        if expectsAnswer requestKind then linkBook.waitingRequestIds ++ [requestId] else linkBook.waitingRequestIds })
  else none

/-- A caller stops waiting. -/
def removeWaiting (requestId : Nat) : LinkBook :=
  { linkBook with waitingRequestIds := linkBook.waitingRequestIds.erase requestId }

/-- Whom an answer is handed to, and what each of them gets. -/
def deliverSupervisorResponse (answerFrame : AnswerFrame) : List (Nat × LinkAnswer) × LinkBook :=
  let handToAll := (linkBook.waitingRequestIds.map fun requestId => (requestId, .strayResponse answerFrame.requestId),
    { linkBook with waitingRequestIds := [] })
  match answerFrame.requestId with
  | some answeredRequestId =>
    if answeredRequestId ∈ linkBook.waitingRequestIds then
      ([(answeredRequestId, .response answerFrame)], linkBook.removeWaiting answeredRequestId)
    else if answeredRequestId < linkBook.nextRequestId then ([], linkBook)
    else handToAll
  | none => handToAll

/-- The first exit of a pane counts. -/
def recordExit (paneId : PaneUuid) (exitStatus : PaneExitStatus) : LinkBook :=
  { linkBook with
    exitStatusByPaneIdDuringConnect := linkBook.exitStatusByPaneIdDuringConnect.map fun exitStatusByPaneId =>
      Function.update exitStatusByPaneId paneId (some ((exitStatusByPaneId paneId).getD exitStatus)) }

/-- The link reader ends. -/
def close (linkCloseCause : LinkCloseCause) : LinkBook :=
  { linkBook with linkCloseCause := some linkCloseCause, waitingRequestIds := [], livePaneIds := ∅ }

end LinkBook

/-! ## One call -/

variable (requestKind : SupervisorRequestKind)

/-- `receive_result`, once something was handed over. -/
def receiveResult (requestId : Nat) : LinkAnswer → Except PtyError SupervisorResult
  | .response answerFrame =>
    match answerFrame.answerResult with
    | .known (.error payload) => .error (.refused requestKind.getRequestKindName payload.message)
    | .known supervisorResult => .ok supervisorResult
    | .unknown variantName => .error (.unknownAnswer requestKind.getRequestKindName variantName)
  | .strayResponse answeredRequestId => .error (.strayAnswer answeredRequestId requestKind.getRequestKindName requestId)

def IsExpectedResult : SupervisorRequestKind → SupervisorResult → Bool
  | .hello .., .hello _ => true
  | .spawn _, .spawned _ => true
  | .listPanes, .panes _ => true
  | .liveCwd _, .cwd _ => true
  | .resize _, .done | .write .., .done | .kill _, .done | .pauseOutput, .done | .resumeOutput, .done
  | .shutdown, .done => true
  | _, _ => false

/-- What a call makes of what it was handed. -/
def readAnswer (requestId : Nat) (linkAnswer : LinkAnswer) : Except PtyError SupervisorResult :=
  match receiveResult requestKind requestId linkAnswer with
  | .ok supervisorResult =>
    if IsExpectedResult requestKind supervisorResult then .ok supervisorResult
    else .error (.unexpectedResult requestKind.getRequestKindName supervisorResult)
  | .error ptyError => .error ptyError

/-- How far a call is. -/
inductive CallPhase where
  /-- Before the pane's check, which for a kill takes the pane out. -/
  | looksUpPane
  | registers
  | writes (requestId : Nat)
  | waits (requestId : Nat)
  /-- The caller gave up, and takes its entry out. -/
  | leaves (requestId : Nat) (ptyError : PtyError)
  /-- The supervisor opened the pane. -/
  | insertsPane (requestId : Nat) (supervisorResult : SupervisorResult)
  | returned (requestId : Option Nat) (callResult : Except PtyError SupervisorResult)
  /-- A grant's call returns nothing. -/
  | ended

structure LinkCall where
  requestKind : SupervisorRequestKind
  phase : CallPhase

def findNeededPane : SupervisorRequestKind → Option PaneUuid
  | .resize paneId | .write paneId _ | .kill paneId | .liveCwd paneId | .grantPaneOutput paneId _ => some paneId
  | _ => none

def listOpenedPaneIds : SupervisorRequestKind → List PaneUuid
  | .spawn paneId => [paneId]
  | _ => []

/-- The requests of the backend's callers: the others are the connect's. -/
def IsCallersRequest : SupervisorRequestKind → Bool
  | .hello .. | .listPanes | .unknown _ => false
  | _ => true

/-! ## The link -/

inductive LinkHistoryEntry where
  | registered (requestId : Nat) (requestKind : SupervisorRequestKind)
  | written (requestId : Nat)
  | received (answerFrame : AnswerFrame)
  | handed (requestId : Nat) (linkAnswer : LinkAnswer)
  /-- A pane's event was read. -/
  | event (paneId : PaneUuid)
  | refusedOutput (paneId : PaneUuid)
  /-- The sink was told that a pane ended. -/
  | reported (paneId : PaneUuid) (exitStatus : PaneExitStatus)
  /-- `kill_pane` took a pane out. -/
  | killed (paneId : PaneUuid)
  | spawned (paneId : PaneUuid)
  | closed (linkCloseCause : LinkCloseCause)
  deriving DecidableEq

inductive LinkReaderPhase where
  | reads
  | reportsExit (paneId : PaneUuid) (exitStatus : PaneExitStatus)
  | reportsLost (lostPaneIds : List PaneUuid)
  | ended
  deriving DecidableEq

/-- How far `open_link` is; a call is known by its number. -/
inductive LinkConnectPhase where
  | awaitsHello (callNumber : Nat)
  | awaitsPanes (callNumber : Nat)
  | killsUnrequested (listedPaneIds unrequestedPaneIds : List PaneUuid) (callNumber : Option Nat)
  | killsExited (retainedPaneIds : Finset PaneUuid) (exitedListedPaneIds missingPaneIds : List PaneUuid)
      (callNumber : Option Nat)
  | reportsMissing (retainedPaneIds : Finset PaneUuid) (missingPaneIds : List PaneUuid)
  | connected
  | failed
  deriving DecidableEq

structure LinkWorld where
  isPreviousVersion : Bool
  connectionToken : ConnectionToken
  linkBook : LinkBook
  answersByRequestId : Nat → List LinkAnswer
  calls : List LinkCall
  readerPhase : LinkReaderPhase
  outputRejectedPaneIds : Finset PaneUuid
  exitedPaneIds : Finset PaneUuid
  connectPhase : LinkConnectPhase
  requestedPaneIds : List PaneUuid
  usedPaneIds : Finset PaneUuid
  history : List LinkHistoryEntry
  /-- The panes the connect found missing, and the ones the link closed on. -/
  missingPaneIds : List PaneUuid
  lostPaneIds : List PaneUuid
  /-- What a first link of this connect reported before it failed. -/
  earlierReportedPaneIds : List PaneUuid

inductive LinkAction where
  | startCall (requestKind : SupervisorRequestKind)
  | continueCall (callNumber : Nat) (isWritten isTimedOut : Bool)
  | continueConnect
  | receiveResponse (answerFrame : AnswerFrame)
  | receiveOutput (paneId : PaneUuid) (isAccepted : Bool)
  | receiveExit (paneId : PaneUuid) (exitStatus : PaneExitStatus)
  | continueReader
  | closeLink (linkCloseCause : LinkCloseCause) (lostPaneIds : List PaneUuid)

/-- The panes the sink was told had ended. -/
def listReportedPaneIds (history : List LinkHistoryEntry) : List PaneUuid :=
  history.filterMap fun
    | .reported paneId _ => some paneId
    | _ => none

namespace LinkWorld

/-- A link whose Hello is about to be sent. -/
def openLink (isPreviousVersion : Bool) (connectionToken : ConnectionToken)
    (requestedPaneIds earlierReportedPaneIds : List PaneUuid) : LinkWorld where
  isPreviousVersion := isPreviousVersion
  connectionToken := connectionToken
  linkBook := .new
  answersByRequestId := fun _ => []
  calls := [⟨.hello minSupervisorProtocolVersion supervisorProtocolVersion connectionToken, .registers⟩]
  readerPhase := .reads
  outputRejectedPaneIds := ∅
  exitedPaneIds := ∅
  connectPhase := .awaitsHello 0
  requestedPaneIds := requestedPaneIds
  usedPaneIds := requestedPaneIds.toFinset
  history := []
  missingPaneIds := []
  lostPaneIds := []
  earlierReportedPaneIds := earlierReportedPaneIds

/-- A connect to a supervisor, with the panes the caller believes are running. -/
def initial (connectionToken : ConnectionToken) (requestedPaneIds : List PaneUuid) : LinkWorld :=
  openLink false connectionToken requestedPaneIds []

/-! ### The callers -/

variable (world : LinkWorld)

/-- A caller of the backend that `connect` returned makes a call. -/
def startCall : Option LinkWorld :=
  match world.connectPhase with
  | .connected =>
    if IsCallersRequest requestKind = true ∧ ∀ paneId ∈ listOpenedPaneIds requestKind, paneId ∉ world.usedPaneIds then
      some { world with
        calls := world.calls ++ [⟨requestKind, if findNeededPane requestKind = none then .registers else .looksUpPane⟩]
        usedPaneIds := world.usedPaneIds ∪ (listOpenedPaneIds requestKind).toFinset }
    else none
  | _ => none

variable (callNumber : Nat)

def setPhase (requestKind : SupervisorRequestKind) (phase : CallPhase) :
    LinkWorld :=
  { world with calls := world.calls.set callNumber ⟨requestKind, phase⟩ }

/-- `validate_pane_is_driven`; a kill takes the pane out; a grant for a pane that is not driven does nothing. -/
def lookUpPane (requestKind : SupervisorRequestKind) : LinkWorld :=
  match findNeededPane requestKind with
  | none => world.setPhase callNumber requestKind .registers
  | some paneId =>
    if paneId ∈ world.linkBook.livePaneIds then
      match requestKind with
      | .kill _ => { world.setPhase callNumber requestKind .registers with
          linkBook := { world.linkBook with livePaneIds := world.linkBook.livePaneIds.erase paneId }
          history := world.history ++ [.killed paneId] }
      | _ => world.setPhase callNumber requestKind .registers
    else
      match requestKind with
      | .grantPaneOutput .. => world.setPhase callNumber requestKind .ended
      | _ => world.setPhase callNumber requestKind (.returned none (.error (.unknownPane paneId)))

/-- A call without an answer is over; another one takes its entry out and fails. -/
def giveUp (requestKind : SupervisorRequestKind) (requestId : Option Nat) (ptyError : PtyError) : LinkWorld :=
  if expectsAnswer requestKind then world.setPhase callNumber requestKind (.returned requestId (.error ptyError))
  else world.setPhase callNumber requestKind .ended

/-- A call's next section. -/
def continueCall (isWritten isTimedOut : Bool) : Option LinkWorld :=
  match world.calls[callNumber]? with
  | none => none
  | some ⟨requestKind, .looksUpPane⟩ => some (world.lookUpPane callNumber requestKind)
  | some ⟨requestKind, .registers⟩ =>
    match world.linkBook.registerRequest requestKind with
    | none => some (world.giveUp callNumber requestKind none (.linkClosed requestKind.getRequestKindName))
    | some (requestId, linkBook) => some { world.setPhase callNumber requestKind (.writes requestId) with
        linkBook
        history := world.history ++ [.registered requestId requestKind] }
  | some ⟨requestKind, .writes requestId⟩ =>
    if isWritten then
      some { world.setPhase callNumber requestKind (if expectsAnswer requestKind then .waits requestId else .ended) with
        history := world.history ++ [.written requestId] }
    else if expectsAnswer requestKind then
      some (world.setPhase callNumber requestKind (.leaves requestId (.notWritten requestKind.getRequestKindName)))
    else some (world.setPhase callNumber requestKind .ended)
  | some ⟨requestKind, .leaves requestId ptyError⟩ =>
    some { world.setPhase callNumber requestKind (.returned (some requestId) (.error ptyError)) with
      linkBook := world.linkBook.removeWaiting requestId }
  | some ⟨requestKind, .waits requestId⟩ =>
    match world.answersByRequestId requestId with
    | linkAnswer :: linkAnswers =>
      let world := { world with answersByRequestId := Function.update world.answersByRequestId requestId linkAnswers }
      match requestKind, readAnswer requestKind requestId linkAnswer with
      | .spawn _, .ok supervisorResult =>
        some (world.setPhase callNumber requestKind (.insertsPane requestId supervisorResult))
      | _, callResult => some (world.setPhase callNumber requestKind (.returned (some requestId) callResult))
    | [] =>
      if requestId ∉ world.linkBook.waitingRequestIds then
        some (world.setPhase callNumber requestKind
          (.returned (some requestId) (.error (.linkLost requestKind.getRequestKindName))))
      else if isTimedOut then
        some (world.setPhase callNumber requestKind (.leaves requestId (.notAnswered requestKind.getRequestKindName)))
      else none
  | some ⟨requestKind, .insertsPane requestId supervisorResult⟩ =>
    match requestKind with
    | .spawn paneId =>
      if world.linkBook.linkCloseCause = none then
        some { world.setPhase callNumber requestKind (.returned (some requestId) (.ok supervisorResult)) with
          linkBook := { world.linkBook with livePaneIds := insert paneId world.linkBook.livePaneIds }
          history := world.history ++ [.spawned paneId] }
      else
        some (world.setPhase callNumber requestKind (.returned (some requestId) (.error (.lostSpawn paneId))))
    | _ => none
  | some ⟨_, .returned ..⟩ | some ⟨_, .ended⟩ => none

/-! ### The connect -/

def findCallResult : Option (Except PtyError SupervisorResult) :=
  match world.calls[callNumber]? with
  | some ⟨_, .returned _ callResult⟩ => some callResult
  | _ => none

def callFromConnect (connectPhase : LinkConnectPhase) :
    LinkWorld :=
  { world with calls := world.calls ++ [⟨requestKind, .registers⟩], connectPhase }

/-- `reconcile_panes` once the unrequested panes are killed: the exits received so far settle the listed panes. -/
def settlePanes (listedPaneIds : List PaneUuid) : Option LinkWorld :=
  match world.linkBook.exitStatusByPaneIdDuringConnect with
  | none => none
  | some exitStatusByPaneId =>
    let claimedPaneIds := listedPaneIds.filter fun paneId => paneId ∈ world.requestedPaneIds
    let missingPaneIds := world.requestedPaneIds.filter fun paneId =>
      paneId ∉ listedPaneIds ∧ exitStatusByPaneId paneId = none
    some { world with
      linkBook := { world.linkBook with exitStatusByPaneIdDuringConnect := none }
      connectPhase := .killsExited (claimedPaneIds.filter fun paneId => exitStatusByPaneId paneId = none).toFinset
        (claimedPaneIds.filter fun paneId => exitStatusByPaneId paneId ≠ none) missingPaneIds none
      missingPaneIds }

/-- The connect's next section. -/
def continueConnect : Option LinkWorld :=
  match world.connectPhase with
  | .awaitsHello callNumber =>
    match world.findCallResult callNumber with
    | some (.ok _) => some (world.callFromConnect .listPanes (.awaitsPanes world.calls.length))
    | some (.error _) =>
      if world.isPreviousVersion = false ∧ world.linkBook.linkCloseCause = some .unreadableFrame then
        some (openLink true world.connectionToken world.requestedPaneIds (listReportedPaneIds world.history))
      else some { world with connectPhase := .failed }
    | none => none
  | .awaitsPanes callNumber =>
    match world.findCallResult callNumber with
    | some (.ok (.panes listedPaneIds)) => some { world with
        connectPhase := .killsUnrequested listedPaneIds
          (listedPaneIds.filter fun paneId => paneId ∉ world.requestedPaneIds) none }
    | some _ => some { world with connectPhase := .failed }
    | none => none
  | .killsUnrequested listedPaneIds (paneId :: unrequestedPaneIds) none =>
    some (world.callFromConnect (.kill paneId)
      (.killsUnrequested listedPaneIds unrequestedPaneIds (some world.calls.length)))
  | .killsUnrequested listedPaneIds unrequestedPaneIds (some callNumber) =>
    match world.findCallResult callNumber with
    | some _ => some { world with connectPhase := .killsUnrequested listedPaneIds unrequestedPaneIds none }
    | none => none
  | .killsUnrequested listedPaneIds [] none => world.settlePanes listedPaneIds
  | .killsExited retainedPaneIds (paneId :: exitedListedPaneIds) missingPaneIds none =>
    some (world.callFromConnect (.kill paneId)
      (.killsExited retainedPaneIds exitedListedPaneIds missingPaneIds (some world.calls.length)))
  | .killsExited retainedPaneIds exitedListedPaneIds missingPaneIds (some callNumber) =>
    match world.findCallResult callNumber with
    | some (.ok _) => some { world with
        connectPhase := .killsExited retainedPaneIds exitedListedPaneIds missingPaneIds none }
    | some (.error _) => some { world with connectPhase := .failed }
    | none => none
  | .killsExited retainedPaneIds [] missingPaneIds none =>
    some { world with connectPhase := .reportsMissing retainedPaneIds missingPaneIds }
  | .reportsMissing retainedPaneIds (paneId :: missingPaneIds) => some { world with
      history := world.history ++ [.reported paneId unobservedExit]
      connectPhase := .reportsMissing retainedPaneIds missingPaneIds }
  | .reportsMissing retainedPaneIds [] =>
    if world.linkBook.linkCloseCause = none then
      some { world with
        linkBook := { world.linkBook with livePaneIds := retainedPaneIds }
        connectPhase := .connected }
    else some { world with connectPhase := .failed }
  | .connected | .failed => none

/-! ### The link reader -/

def receiveResponse (answerFrame : AnswerFrame) : Option LinkWorld :=
  match world.readerPhase with
  | .reads =>
    let (handedAnswers, linkBook) := world.linkBook.deliverSupervisorResponse answerFrame
    some { world with
      linkBook
      answersByRequestId := fun requestId => world.answersByRequestId requestId ++
        handedAnswers.filterMap fun (handedId, linkAnswer) => if handedId = requestId then some linkAnswer else none
      history := world.history ++ .received answerFrame ::
        handedAnswers.map fun (handedId, linkAnswer) => .handed handedId linkAnswer }
  | _ => none

def receiveOutput (paneId : PaneUuid) (isAccepted : Bool) : Option LinkWorld :=
  match world.readerPhase with
  | .reads =>
    if paneId ∉ world.outputRejectedPaneIds ∧ isAccepted = false then
      some { world with
        outputRejectedPaneIds := insert paneId world.outputRejectedPaneIds
        history := world.history ++ [.event paneId, .refusedOutput paneId] }
    else some { world with history := world.history ++ [.event paneId] }
  | _ => none

def receiveExit (paneId : PaneUuid) (exitStatus : PaneExitStatus) : Option LinkWorld :=
  match world.readerPhase with
  | .reads => some { world with
      linkBook := world.linkBook.recordExit paneId exitStatus
      readerPhase := .reportsExit paneId exitStatus
      history := world.history ++ [.event paneId] }
  | _ => none

/-- The reader reports the exit it read, or the next pane the link lost. -/
def continueReader : Option LinkWorld :=
  match world.readerPhase with
  | .reportsExit paneId exitStatus =>
    if paneId ∉ world.outputRejectedPaneIds ∧ paneId ∉ world.exitedPaneIds then
      some { world with
        readerPhase := .reads
        exitedPaneIds := insert paneId world.exitedPaneIds
        history := world.history ++ [.reported paneId exitStatus] }
    else some { world with readerPhase := .reads }
  | .reportsLost (paneId :: lostPaneIds) => some { world with
      readerPhase := .reportsLost lostPaneIds
      history := world.history ++ [.reported paneId unobservedExit] }
  | .reportsLost [] => some { world with readerPhase := .ended }
  | _ => none

/-- The link closes; the panes it lost are in the order the book gives them. -/
def closeLink (linkCloseCause : LinkCloseCause) (lostPaneIds : List PaneUuid) : Option LinkWorld :=
  match world.readerPhase with
  | .reads =>
    if lostPaneIds.Nodup ∧ lostPaneIds.toFinset = world.linkBook.livePaneIds.filter fun paneId =>
        paneId ∉ world.outputRejectedPaneIds ∧ paneId ∉ world.exitedPaneIds then
      some { world with
        linkBook := world.linkBook.close linkCloseCause
        readerPhase := .reportsLost lostPaneIds
        history := world.history ++ [.closed linkCloseCause]
        lostPaneIds }
    else none
  | _ => none

def step : LinkAction → Option LinkWorld
  | .startCall requestKind => world.startCall requestKind
  | .continueCall callNumber isWritten isTimedOut => world.continueCall callNumber isWritten isTimedOut
  | .continueConnect => world.continueConnect
  | .receiveResponse answerFrame => world.receiveResponse answerFrame
  | .receiveOutput paneId isAccepted => world.receiveOutput paneId isAccepted
  | .receiveExit paneId exitStatus => world.receiveExit paneId exitStatus
  | .continueReader => world.continueReader
  | .closeLink linkCloseCause lostPaneIds => world.closeLink linkCloseCause lostPaneIds

def run (actions : List LinkAction) : Option LinkWorld := actions.foldlM LinkWorld.step world

end LinkWorld

end Koshi.Pty
