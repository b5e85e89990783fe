import Koshi.Runtime.PaintWindow

/-!
# A client's delivery queue

The bounded queue between a session's event bus and the thread that writes one client's connection
(`koshi-runtime/src/runtime/delivery_queue.rs`). Every operation holds the queue's lock, so an operation is one step and
the threads interleave as they like. One pass of the loop of `recv_paced` is a step, which may give nothing back.
-/

namespace Koshi.Runtime

/-- One delivery to a client: a frame, a resync snapshot, or another one. -/
inductive Delivery (α : Type) where
  | frame (renderSnapshot : α)
  | snapshot (renderSnapshot : α)
  | other (content : α)
  deriving DecidableEq

def Delivery.isFrameDelivery {α : Type} : Delivery α → Bool
  | frame _ | snapshot _ => true
  | other _ => false

structure DeliveryQueueState (α : Type) where
  deliveries : List (Delivery α)
  capacity : Nat
  isSenderClosed : Bool
  isReceiverClosed : Bool
  paintedUpdateReport : Option PaintedUpdateReport

/-- What one pass of `recv_paced` gives back, or that it waits. -/
inductive PacedReceive (α : Type) where
  | delivery (delivery : Delivery α)
  | paintedUpdateReported (report : PaintedUpdateReport)
  | sessionEnding
  | timedOut
  | closed
  | waits
  deriving DecidableEq

inductive TrySendError where
  | full
  | disconnected
  deriving DecidableEq

inductive TryRecvError where
  | empty
  | disconnected
  deriving DecidableEq

namespace DeliveryQueueState

variable {α : Type} (queueState : DeliveryQueueState α)

def createDeliveryQueue (capacity : Nat) : DeliveryQueueState α := ⟨[], capacity, false, false, none⟩

def trySend (delivery : Delivery α) : Except TrySendError (DeliveryQueueState α) :=
  if queueState.isReceiverClosed then .error .disconnected
  else if queueState.capacity ≤ queueState.deliveries.length then .error .full
  else .ok { queueState with deliveries := queueState.deliveries ++ [delivery] }

/-- A frame takes the place of the frame at the tail, else the tail. -/
def trySendFrame (renderSnapshot : α) : Except TrySendError (DeliveryQueueState α) :=
  if queueState.isReceiverClosed then .error .disconnected
  else match queueState.deliveries.getLast? with
    | some (.frame _) => .ok { queueState with deliveries := queueState.deliveries.dropLast ++ [.frame renderSnapshot] }
    | _ => queueState.trySend (.frame renderSnapshot)

def tryRecv : Except TryRecvError (Delivery α × DeliveryQueueState α) :=
  match queueState.deliveries with
  | delivery :: deliveries => .ok (delivery, { queueState with deliveries })
  | [] => .error (if queueState.isSenderClosed then .disconnected else .empty)

/-- One pass of the loop of `recv_paced`. -/
def recvPaced (isFrameAllowed isSessionEnding isPastDeadline : Bool) : PacedReceive α × DeliveryQueueState α :=
  match queueState.paintedUpdateReport with
  | some report => (.paintedUpdateReported report, { queueState with paintedUpdateReport := none })
  | none =>
    if isSessionEnding then (.sessionEnding, queueState)
    else match queueState.deliveries with
      | delivery :: deliveries =>
        if delivery.isFrameDelivery && !isFrameAllowed && !queueState.isSenderClosed then holdOn
        else (.delivery delivery, { queueState with deliveries })
      | [] => if queueState.isSenderClosed then (.closed, queueState) else holdOn
where
  holdOn : PacedReceive α × DeliveryQueueState α := (if isPastDeadline then .timedOut else .waits, queueState)

/-- A report that waits keeps its place when it names a higher update. -/
def reportPaintedUpdate (report : PaintedUpdateReport) : DeliveryQueueState α :=
  if queueState.paintedUpdateReport.all (·.updateSequence ≤ report.updateSequence) then
    { queueState with paintedUpdateReport := some report }
  else queueState

def dropSender : DeliveryQueueState α := { queueState with isSenderClosed := true }

def dropReceiver : DeliveryQueueState α := { queueState with isReceiverClosed := true, deliveries := [] }

end DeliveryQueueState

/-- A step of a thread that holds an end of the queue. -/
inductive DeliveryStep (α : Type) where
  | trySend (delivery : Delivery α)
  | trySendFrame (renderSnapshot : α)
  | tryRecv
  | recvPaced (isFrameAllowed isSessionEnding isPastDeadline : Bool)
  | reportPaintedUpdate (report : PaintedUpdateReport)
  | dropSender
  | dropReceiver
  deriving DecidableEq

/-- A queue with its past: the deliveries it accepted and those it handed out, the reports since the last one taken, and
every report taken beside those it was taken from. -/
structure DeliveryHistory (α : Type) where
  queueState : DeliveryQueueState α
  accepted : List (Delivery α)
  received : List (Delivery α)
  reports : List PaintedUpdateReport
  taken : List (PaintedUpdateReport × List PaintedUpdateReport)

namespace DeliveryHistory

variable {α : Type} (history : DeliveryHistory α)

def start (capacity : Nat) : DeliveryHistory α := ⟨.createDeliveryQueue capacity, [], [], [], []⟩

/-- A send that the queue accepts, or one it drops. -/
def send (delivery : Delivery α) : Except TrySendError (DeliveryQueueState α) → DeliveryHistory α
  | .ok queueState => { history with queueState, accepted := history.accepted ++ [delivery] }
  | .error _ => history

def step : DeliveryStep α → DeliveryHistory α
  | .trySend delivery => history.send delivery (history.queueState.trySend delivery)
  | .trySendFrame renderSnapshot =>
    history.send (.frame renderSnapshot) (history.queueState.trySendFrame renderSnapshot)
  | .tryRecv =>
    match history.queueState.tryRecv with
    | .ok (delivery, queueState) => { history with queueState, received := history.received ++ [delivery] }
    | .error _ => history
  | .recvPaced isFrameAllowed isSessionEnding isPastDeadline =>
    match history.queueState.recvPaced isFrameAllowed isSessionEnding isPastDeadline with
    | (.delivery delivery, queueState) => { history with queueState, received := history.received ++ [delivery] }
    | (.paintedUpdateReported report, queueState) =>
      { history with queueState, reports := [], taken := history.taken ++ [(report, history.reports)] }
    | (_, queueState) => { history with queueState }
  | .reportPaintedUpdate report =>
    { history with queueState := history.queueState.reportPaintedUpdate report, reports := history.reports ++ [report] }
  | .dropSender => { history with queueState := history.queueState.dropSender }
  | .dropReceiver => { history with queueState := history.queueState.dropReceiver }

def run (capacity : Nat) (steps : List (DeliveryStep α)) : DeliveryHistory α := steps.foldl step (start capacity)

end DeliveryHistory

end Koshi.Runtime
