import Koshi.Client.Proof.NotificationRun

/-!
# A session's queue and a viewer of it

A session posts to its queue; a viewer takes whole copies of the queue and single posts, which may come again or late,
and posts entries of its own. Beside the history a run keeps what happened: the state of the queue last taken, the
session entries of the newest copy and the later posts, and every entry that arrived, once, in the order of its last
arrival.
-/

namespace Koshi.Client

open Koshi.Core

structure NotificationSession where
  sessionId : SessionId
  epoch : NotificationEpoch
  posts : List NotificationQueue.Post

def NotificationSession.queueAfter (session : NotificationSession) (postCount : Nat) : NotificationQueue :=
  NotificationQueue.afterPosts (.session session.sessionId) session.epoch (session.posts.take postCount)

inductive ViewerEvent where
  /-- A copy of the queue as it was after some of its posts. -/
  | copy (postCount : Nat) (shouldShowToasts : Bool)
  /-- The last of some of the queue's posts, alone. -/
  | post (postCount : Nat) (shouldShowToasts : Bool)
  /-- A post to the viewer's own queue. -/
  | own (post : NotificationQueue.Post) (shouldShowToasts : Bool)
  /-- The center or the toast. -/
  | shows (operation : HistoryOperation)

/-- The operation is about the center or the toast. -/
def HistoryOperation.onlyShows : HistoryOperation → Bool
  | .post .. | .takeQueue .. | .takePost .. | .dismiss .. | .clear => false
  | _ => true

/-- An entry arrives: it stands last, and an older one of its id goes. -/
def arrive (entries : List NotificationEntry) (arrivedEntry : NotificationEntry) : List NotificationEntry :=
  (entries.filter fun entry => entry.notificationId ≠ arrivedEntry.notificationId) ++ [arrivedEntry]

/-- A viewer's history with what reached it. -/
structure ViewerRun where
  history : NotificationHistory
  /-- The posts the newest taken state of the queue had. -/
  taken : Option Nat
  /-- The session entries of the newest copy and the posts taken after it, as last taken. -/
  takenEntries : List NotificationEntry
  /-- Every entry that arrived, in the order of its last arrival. -/
  arrived : List NotificationEntry

namespace ViewerRun

/-- A viewer of a session on another machine, before it took anything. -/
def start (clientId : ClientId) (epoch : NotificationEpoch) : ViewerRun :=
  ⟨(NotificationHistory.fromClientId clientId epoch).setSessionLocal false, none, [], []⟩

variable (session : NotificationSession)

variable (run : ViewerRun)

def listTakenQueue : List NotificationEntry :=
  (run.taken.map fun postCount => (session.queueAfter postCount).queuedEntries).getD []

/-- The state of the queue was taken before, or is older than one that was. -/
def isStale (postCount : Nat) : Bool := run.taken.any fun taken => postCount ≤ taken

section Steps

variable (computeSlidePosition : Nat → Nat → Nat → Nat → Nat)

/-- A copy reaches the viewer: the entries arrive that the state last taken does not have as they are. -/
def takeCopy (postCount : Nat) (shouldShowToasts : Bool) : ViewerRun :=
  let queue := session.queueAfter postCount
  let history := (run.history.takeSessionQueue session.sessionId queue shouldShowToasts).1
  if run.isStale postCount then { run with history }
  else
    { history
      taken := some postCount
      takenEntries := queue.queuedEntries
      arrived := (queue.queuedEntries.filter fun entry => entry ∉ run.listTakenQueue session).foldl arrive run.arrived }

/-- A post reaches the viewer. Before the first copy it is refused. -/
def takePost (postCount : Nat) (shouldShowToasts : Bool) : ViewerRun :=
  let queue := session.queueAfter postCount
  match queue.queuedEntries.getLast? with
  | none => run
  | some postedEntry =>
    let history := (run.history.takeSessionPost queue.revision postedEntry shouldShowToasts).1
    if run.taken.isNone || run.isStale postCount then { run with history }
    else
      { history
        taken := some postCount
        takenEntries := arrive run.takenEntries postedEntry
        arrived := arrive run.arrived postedEntry }

def postOwn (post : NotificationQueue.Post) (shouldShowToasts : Bool) : ViewerRun :=
  { run with
    history := run.history.postCoreEntry post.severity post.text post.postCount post.createdAt shouldShowToasts
    arrived := arrive run.arrived
      (run.history.clientQueue.postCoreEntry post.severity post.text post.postCount post.createdAt).2 }

def apply (run : ViewerRun) : ViewerEvent → ViewerRun
  | .copy postCount shouldShowToasts => run.takeCopy session postCount shouldShowToasts
  | .post postCount shouldShowToasts => run.takePost session postCount shouldShowToasts
  | .own post shouldShowToasts => run.postOwn post shouldShowToasts
  | .shows operation => { run with history := run.history.apply computeSlidePosition operation }

def runEvents (events : List ViewerEvent) : ViewerRun :=
  events.foldl (apply session computeSlidePosition) run

/-- What may reach the viewer: states the queue had, and a post only once no post between it and the state last taken is
missing. -/
def Allows : ViewerEvent → Prop
  | .copy postCount _ => postCount ≤ session.posts.length
  | .post postCount _ => 0 < postCount ∧ postCount ≤ session.posts.length ∧ ∀ taken ∈ run.taken, postCount ≤ taken + 1
  | .own _ _ => True
  | .shows operation => operation.onlyShows = true

def AllowsAll (run : ViewerRun) : List ViewerEvent → Prop
  | [] => True
  | event :: events =>
    run.Allows session event ∧ AllowsAll (run.apply session computeSlidePosition event) events

def RepeatsHeld : ViewerEvent → Prop
  | .copy postCount _ | .post postCount _ =>
    run.isStale postCount = true ∨ ∀ entry ∈ (session.queueAfter postCount).queuedEntries,
      ∀ newestEntry ∈ (run.listTakenQueue session).getLast?, entry.notificationId = newestEntry.notificationId →
        entry ≠ newestEntry → entry.notificationId ∈ run.history.listMergedIds
  | .own post _ =>
    ∀ newestEntry ∈ run.history.clientQueue.findRepeatedEntry post.severity
        (sanitizeTextToByteCount post.text maxNotificationTextByteCount),
      newestEntry.notificationId ∈ run.history.listMergedIds
  | .shows _ => True

/-- Every event of a run that repeats an entry finds it still held. -/
def AllRepeatsHeld (run : ViewerRun) : List ViewerEvent → Prop
  | [] => True
  | event :: events =>
    run.RepeatsHeld session event ∧ AllRepeatsHeld (run.apply session computeSlidePosition event) events

end Steps

/-- How many entries the session posted up to the state last taken. -/
def countPostedEntries : Nat :=
  (run.taken.map fun postCount => (session.queueAfter postCount).nextSequence).getD 0

structure Replicates (run : ViewerRun) : Prop where
  uniqueIds : run.history.listMergedIds.Nodup
  bounded : run.history.mergedEntries.length ≤ 256
  held : run.history.mergedEntries = run.arrived.drop (run.arrived.length - 256)
  taken : ∀ entry ∈ run.takenEntries,
    entry ∈ run.history.mergedEntries ∨ entry ∈ run.arrived.take (run.arrived.length - 256)
  stale : ∀ postCount shouldShowToasts, run.isStale postCount = true →
    (run.takeCopy session postCount shouldShowToasts).history.mergedEntries = run.history.mergedEntries ∧
      (run.takePost session postCount shouldShowToasts).history.mergedEntries = run.history.mergedEntries
  dropped : run.history.droppedEntryCount + run.history.mergedEntries.length =
    run.countPostedEntries session + run.history.clientQueue.nextSequence

end ViewerRun

end Koshi.Client
