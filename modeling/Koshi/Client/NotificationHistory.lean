import Koshi.Client.NotificationToast

/-!
# The notifications of one viewer

The entries of the viewer's own queue and those it takes from its session's queue, merged in one bounded history, with
what the viewer shows of them: the notification center, the unread count and the toast
(`koshi-client/src/notification_history.rs`). The row caches of the center and the toast are left out. The position of a
running slide is computed in floating point, and is a parameter here.
-/

namespace Koshi.Client

open Koshi.Core

/-- The most entries one viewer's history holds. -/
def maxMergedNotificationCount : Nat := 256

/-! ### The center -/

structure NotificationCenterSlide where
  isClosing : Bool
  startHiddenPerMille : Nat
  startedAt : Option Nat
  hiddenPerMille : Nat
  deriving DecidableEq, Repr

namespace NotificationCenterSlide

/-- A slide that starts at the next advance of the clock. -/
def fromStart (isClosing : Bool) (startHiddenPerMille : Nat) : NotificationCenterSlide :=
  ⟨isClosing, startHiddenPerMille, none, startHiddenPerMille⟩

/-- The thousandths past the edge the slide ends at. -/
def getEndHiddenPerMille (slide : NotificationCenterSlide) : Nat := if slide.isClosing then fullyHiddenPerMille else 0

end NotificationCenterSlide

structure NotificationCenterState where
  scrollRowOffset : Nat
  selectedNotificationId : Option NotificationId
  slide : NotificationCenterSlide
  deriving DecidableEq, Repr

/-! ### What was taken from the session -/

/-- The newest entry of one epoch that the history took. -/
structure MergedThrough where
  sequence : Nat
  repeatCount : Nat
  deriving DecidableEq, Repr

/-- The entry arrived after the one the mark names. -/
def MergedThrough.isOlderThan (mergedThrough : MergedThrough) (receivedEntry : NotificationEntry) : Bool :=
  receivedEntry.notificationId.sequence > mergedThrough.sequence ||
    (receivedEntry.notificationId.sequence = mergedThrough.sequence && receivedEntry.repeatCount >
      mergedThrough.repeatCount)

/-- What the viewer last took from its session's queue. -/
structure SessionQueueMark where
  owner : NotificationQueueOwner
  epoch : NotificationEpoch
  revision : Nat
  mergedThrough : Option MergedThrough
  deriving DecidableEq, Repr

/-- Why a queue or post from the session was not taken. -/
inductive NotificationTakeError where
  | invalidQueue (queueError : NotificationQueueError)
  | foreignQueue (owner : NotificationQueueOwner)
  | postWithoutQueue (notificationId : NotificationId)
  | foreignPost (notificationId : NotificationId)
  deriving DecidableEq, Repr

def sanitizeReceivedEntry (receivedEntry : NotificationEntry) : NotificationEntry :=
  { receivedEntry with text := sanitizeTextToByteCount receivedEntry.text maxNotificationTextByteCount }

def isSessionEntry (entry : NotificationEntry) : Bool :=
  match entry.notificationId.owner with
  | .session _ => true
  | .client _ => false

/-- One more than a sequence, saturating at the largest `u64`. -/
def followingSequence (sequence : Nat) : Nat := min (sequence + 1) maxU64

/-! ### The history -/

structure NotificationHistory where
  clientQueue : NotificationQueue
  sessionQueueMark : Option SessionQueueMark
  /-- Every entry the history holds, oldest arrival first. -/
  mergedEntries : List NotificationEntry
  /-- How many entries the viewer can no longer show. -/
  droppedEntryCount : Nat
  /-- How many of the newest entries arrived since the center last opened. -/
  unreadEntryCount : Nat
  isSessionLocal : Bool
  notificationCenter : Option NotificationCenterState
  notificationToast : NotificationToastQueue
  /-- Counts each change to what the viewer draws. -/
  revision : Nat
  deriving DecidableEq, Repr

namespace NotificationHistory

/-- An empty history whose own queue the client owns. -/
def fromClientId (clientId : ClientId) (epoch : NotificationEpoch) : NotificationHistory :=
  ⟨.fromOwner (.client clientId) epoch, none, [], 0, 0, false, none, .default, 0⟩

variable (history : NotificationHistory)

/-- Records whether the session runs on the viewer's machine. -/
def setSessionLocal (isSessionLocal : Bool) : NotificationHistory :=
  { history with isSessionLocal }

variable (notificationId : NotificationId)

def findMergedEntryIndex : Option Nat :=
  history.mergedEntries.findIdx? fun mergedEntry => mergedEntry.notificationId = notificationId

def findOpenCenterState : Option NotificationCenterState :=
  history.notificationCenter.filter fun centerState => !centerState.slide.isClosing

/-- The center is shown and does not slide out. -/
def isNotificationCenterOpen : Bool := history.findOpenCenterState.isSome

/-- Sets the center's selected entry, while there is a center. -/
def setSelectedNotificationId (selectedNotificationId : Option NotificationId) :
    NotificationHistory :=
  match history.notificationCenter with
  | none => history
  | some centerState =>
    if centerState.selectedNotificationId ≠ selectedNotificationId then
      { history with
        notificationCenter := some { centerState with selectedNotificationId }
        revision := history.revision + 1 }
    else history

/-! ### Removing entries -/

/-- The center selects the entry. -/
def isSelected : Bool :=
  history.notificationCenter.any fun centerState => centerState.selectedNotificationId = some notificationId

/-- Removes the entry at an index. A selected entry hands the selection to the older one, else to the newer one. -/
def removeMergedEntryAt (mergedEntryIndex : Nat) : NotificationHistory × Option NotificationEntry :=
  let firstUnreadIndex := history.mergedEntries.length - history.unreadEntryCount
  match history.mergedEntries[mergedEntryIndex]? with
  | none => (history, none)
  | some removedEntry =>
    let isRemovedEntrySelected := history.isSelected removedEntry.notificationId
    let history := { history with
      mergedEntries := history.mergedEntries.eraseIdx mergedEntryIndex
      unreadEntryCount :=
        if mergedEntryIndex ≥ firstUnreadIndex then history.unreadEntryCount - 1 else history.unreadEntryCount }
    -- the older entry stands one place before, and at place 0 the newer one has taken the place
    let history :=
      if isRemovedEntrySelected then
        history.setSelectedNotificationId (history.mergedEntries[mergedEntryIndex - 1]?.map (·.notificationId))
      else history
    ({ history with revision := history.revision + 1 }, some removedEntry)

def evictOldestEntry : NotificationHistory :=
  match history.removeMergedEntryAt 0 with
  | (history, none) => history
  | (history, some evictedEntry) =>
    { history with
      droppedEntryCount := history.droppedEntryCount + 1
      notificationToast := history.notificationToast.removePreviews evictedEntry.notificationId }

/-- Removes the entry and its toast previews. -/
def dismissMergedEntry : NotificationHistory :=
  match history.findMergedEntryIndex notificationId with
  | none => history
  | some mergedEntryIndex =>
    let history := (history.removeMergedEntryAt mergedEntryIndex).1
    { history with notificationToast := history.notificationToast.removePreviews notificationId }

/-- Removes every entry, the counts and every toast preview. -/
def clearMergedEntries : NotificationHistory :=
  { history with
    mergedEntries := []
    droppedEntryCount := 0
    unreadEntryCount := 0
    notificationCenter := history.notificationCenter.map fun centerState =>
      { centerState with scrollRowOffset := 0, selectedNotificationId := none }
    notificationToast := history.notificationToast.clearPreviews
    revision := history.revision + 1 }

/-! ### Arrivals -/

def isReplacedBy (arrivedEntry mergedEntry : NotificationEntry) : Bool :=
  !isSessionEntry mergedEntry && isCoreNotice mergedEntry arrivedEntry.severity arrivedEntry.text

/-- The loop that removes the viewer's own entries with the severity and text of the arrived one. -/
def removeReplacedEntries (arrivedEntry : NotificationEntry) :
    Nat → Nat → NotificationHistory → List NotificationId → NotificationHistory × List NotificationId
  | 0, _, history, replacedIds => (history, replacedIds)
  | remaining + 1, mergedEntryIndex, history, replacedIds =>
    match history.mergedEntries[mergedEntryIndex]? with
    | none => (history, replacedIds)
    | some mergedEntry =>
      if isReplacedBy arrivedEntry mergedEntry then
        removeReplacedEntries arrivedEntry remaining mergedEntryIndex (history.removeMergedEntryAt mergedEntryIndex).1
          (replacedIds ++ [mergedEntry.notificationId])
      else removeReplacedEntries arrivedEntry remaining (mergedEntryIndex + 1) history replacedIds

variable (arrivedEntry : NotificationEntry)

/-- In a history of a local session, a session entry from koshi takes the place of the viewer's own entries with its
severity and text. -/
def replaceOwnEntries : NotificationHistory :=
  if history.isSessionLocal && isSessionEntry arrivedEntry && arrivedEntry.source = .core then
    let (history, replacedIds) := removeReplacedEntries arrivedEntry history.mergedEntries.length 0 history []
    if replacedIds.isEmpty then history
    else { history with notificationToast := history.notificationToast.repointPreviews replacedIds arrivedEntry }
  else history

/-- A full history evicts its oldest entry. -/
def makeRoom : NotificationHistory :=
  if history.mergedEntries.length = maxMergedNotificationCount then history.evictOldestEntry else history

def addNewestEntry (shouldPreview : Bool) :
    NotificationHistory :=
  { history with
    notificationToast :=
      if shouldPreview && !history.isNotificationCenterOpen then history.notificationToast.queuePreview arrivedEntry
      else (history.notificationToast.updatePreviews arrivedEntry).1
    unreadEntryCount :=
      if history.isNotificationCenterOpen then history.unreadEntryCount else history.unreadEntryCount + 1
    notificationCenter := history.notificationCenter.map fun centerState =>
      if centerState.slide.isClosing then centerState
      else { centerState with
        selectedNotificationId := some (centerState.selectedNotificationId.getD arrivedEntry.notificationId) }
    mergedEntries := history.mergedEntries ++ [arrivedEntry]
    revision := history.revision + 1 }

/-- The arrived entry at the newest place, after the own entries it replaces and the oldest entry made room. -/
def pushMergedEntry (shouldPreview : Bool) :
    NotificationHistory :=
  ((history.replaceOwnEntries arrivedEntry).makeRoom).addNewestEntry arrivedEntry shouldPreview

/-- Puts the arrived entry at the newest place; a held entry of its id moves there, and stays selected. -/
def takeArrival (heldEntryIndex : Option Nat) (shouldShowToasts : Bool) : NotificationHistory :=
  let selectedNotificationId := history.notificationCenter.bind (·.selectedNotificationId)
  let history :=
    match heldEntryIndex with
    | some heldEntryIndex => (history.removeMergedEntryAt heldEntryIndex).1
    | none => history
  let history := history.pushMergedEntry arrivedEntry shouldShowToasts
  if selectedNotificationId = some arrivedEntry.notificationId then
    history.setSelectedNotificationId selectedNotificationId
  else history

def isHeldBySession (severity : NotificationSeverity) (sanitizedText : List Char) : Bool :=
  history.mergedEntries.any fun mergedEntry =>
    isSessionEntry mergedEntry && isCoreNotice mergedEntry severity sanitizedText

/-- Posts a text to the viewer's own queue and takes the entry as the newest arrival. -/
def postCoreEntry (history : NotificationHistory) (severity : NotificationSeverity) (text : List Char)
    (postCount createdAt : Nat) (shouldShowToasts : Bool) : NotificationHistory :=
  if history.isSessionLocal &&
      history.isHeldBySession severity (sanitizeTextToByteCount text maxNotificationTextByteCount) then history
  else
    let (clientQueue, postedEntry) := history.clientQueue.postCoreEntry severity text postCount createdAt
    let history := { history with clientQueue }
    history.takeArrival postedEntry (history.findMergedEntryIndex postedEntry.notificationId) shouldShowToasts

/-- Adds the sequences between the expected one and the entry's to the dropped count, and gives the next expected one.
-/
def countSkippedSequences (receivedEntry : NotificationEntry) (nextExpectedSequence : Nat) :
    NotificationHistory × Nat :=
  let receivedSequence := receivedEntry.notificationId.sequence
  if receivedSequence < nextExpectedSequence then (history, nextExpectedSequence)
  else
    let skippedSequenceCount := receivedSequence - nextExpectedSequence
    let history :=
      if skippedSequenceCount > 0 then
        { history with
          droppedEntryCount := min (history.droppedEntryCount + skippedSequenceCount) maxU64
          revision := history.revision + 1 }
      else history
    (history, followingSequence receivedSequence)

/-- The entry is newer than every entry taken from its epoch. -/
def isNewEntry (mergedThrough : Option MergedThrough) (receivedEntry : NotificationEntry) : Bool :=
  mergedThrough.all fun mergedThrough => mergedThrough.isOlderThan receivedEntry

/-- The sequence expected after the newest entry taken. -/
def expectedSequence (mergedThrough : Option MergedThrough) : Nat :=
  (mergedThrough.map fun mergedThrough => followingSequence mergedThrough.sequence).getD 0

/-- What the loop over a session queue's entries carries. -/
structure QueueLoop where
  history : NotificationHistory
  mergedThrough : Option MergedThrough
  nextExpectedSequence : Nat

def takeQueuedEntry (shouldPreviewNewEntries : Bool) (loop : QueueLoop) (queuedEntry : NotificationEntry) : QueueLoop :=
  let receivedEntry := sanitizeReceivedEntry queuedEntry
  let (history, nextExpectedSequence) := loop.history.countSkippedSequences receivedEntry loop.nextExpectedSequence
  if isNewEntry loop.mergedThrough receivedEntry then
    { history := history.takeArrival receivedEntry (history.findMergedEntryIndex receivedEntry.notificationId)
        shouldPreviewNewEntries
      mergedThrough := some ⟨receivedEntry.notificationId.sequence, receivedEntry.repeatCount⟩
      nextExpectedSequence }
  else { loop with history, nextExpectedSequence }

/-- Every entry of a session queue. -/
def takeQueuedEntries (queue : NotificationQueue) (mergedThrough : Option MergedThrough)
    (shouldPreviewNewEntries : Bool) : NotificationHistory :=
  let loop := queue.queuedEntries.foldl (takeQueuedEntry shouldPreviewNewEntries)
    ⟨history, mergedThrough, expectedSequence mergedThrough⟩
  { loop.history with sessionQueueMark := some ⟨queue.owner, queue.epoch, queue.revision, loop.mergedThrough⟩ }

/-- The mark when the last queue taken was of the same owner and epoch. -/
def findMarkOf (queue : NotificationQueue) : Option SessionQueueMark :=
  history.sessionQueueMark.filter fun mark => mark.owner = queue.owner && mark.epoch = queue.epoch

/-- Takes the queue of a session, as an attach answer or a resync carries it. -/
def takeSessionQueue (sessionId : SessionId) (queue : NotificationQueue) (shouldShowToasts : Bool) :
    NotificationHistory × Except NotificationTakeError Unit :=
  match queue.validateQueuedEntries with
  | .error queueError => (history, .error (.invalidQueue queueError))
  | .ok () =>
    if queue.owner ≠ .session sessionId then (history, .error (.foreignQueue queue.owner))
    else
      let isFirstQueueOfOwner := history.sessionQueueMark.all fun mark => mark.owner ≠ queue.owner
      let shouldPreviewNewEntries := shouldShowToasts && !isFirstQueueOfOwner
      match history.findMarkOf queue with
      | some mark =>
        if queue.revision < mark.revision then (history, .ok ())
        else (history.takeQueuedEntries queue mark.mergedThrough shouldPreviewNewEntries, .ok ())
      | none => (history.takeQueuedEntries queue none shouldPreviewNewEntries, .ok ())

/-- Takes one post from the session, at the queue's revision. -/
def takeSessionPost (revision : Nat) (postedEntry : NotificationEntry) (shouldShowToasts : Bool) :
    NotificationHistory × Except NotificationTakeError Unit :=
  match history.sessionQueueMark with
  | none => (history, .error (.postWithoutQueue postedEntry.notificationId))
  | some mark =>
    if postedEntry.notificationId.owner ≠ mark.owner ∨ postedEntry.notificationId.epoch ≠ mark.epoch then
      (history, .error (.foreignPost postedEntry.notificationId))
    else if revision ≤ mark.revision then (history, .ok ())
    else
      let isNew := isNewEntry mark.mergedThrough postedEntry
      let history := { history with
        sessionQueueMark := some { mark with
          revision
          mergedThrough :=
            if isNew then some ⟨postedEntry.notificationId.sequence, postedEntry.repeatCount⟩ else
                mark.mergedThrough } }
      let history := (history.countSkippedSequences postedEntry (expectedSequence mark.mergedThrough)).1
      if isNew then
        (history.takeArrival (sanitizeReceivedEntry postedEntry)
          (history.findMergedEntryIndex postedEntry.notificationId)
          shouldShowToasts, .ok ())
      else (history, .ok ())

/-! ### Showing -/

/-- Opens the center with its newest entry selected. Every entry counts as read, and every toast preview goes. -/
def openNotificationCenter (shouldReduceMotion : Bool) : NotificationHistory :=
  if history.isNotificationCenterOpen then history
  else
    let startHiddenPerMille :=
      (history.notificationCenter.map fun centerState => centerState.slide.hiddenPerMille).getD fullyHiddenPerMille
    { history with
      notificationCenter := some {
        scrollRowOffset := 0
        selectedNotificationId := history.mergedEntries.getLast?.map (·.notificationId)
        slide := .fromStart false (if shouldReduceMotion then 0 else startHiddenPerMille) }
      unreadEntryCount := 0
      notificationToast := history.notificationToast.clearPreviews
      revision := history.revision + 1 }

/-- Closes the center: at once with reduced motion, else by a slide out. -/
def closeNotificationCenter (shouldReduceMotion : Bool) : NotificationHistory :=
  match history.findOpenCenterState with
  | none => history
  | some centerState =>
    { history with
      notificationCenter :=
        if shouldReduceMotion then none
        else some { centerState with slide := .fromStart true centerState.slide.hiddenPerMille }
      revision := history.revision + 1 }

/-- Removes the center at once. -/
def removeNotificationCenter : NotificationHistory :=
  if history.notificationCenter.isSome then
      { history with notificationCenter := none, revision := history.revision + 1 }
  else history

/-- Draws the open center's body from a row on. -/
def setNotificationCenterScrollRowOffset (scrollRowOffset : Nat) : NotificationHistory :=
  match history.findOpenCenterState with
  | none => history
  | some centerState =>
    if centerState.scrollRowOffset ≠ scrollRowOffset then
      { history with
        notificationCenter := some { centerState with scrollRowOffset }
        revision := history.revision + 1 }
    else history

def findEntryBeside (entryIndex : Nat) (isSelectingNewer : Bool) : Option NotificationEntry :=
  if isSelectingNewer then history.mergedEntries[entryIndex + 1]?
  else if entryIndex = 0 then none else history.mergedEntries[entryIndex - 1]?

def findAdjacentEntry (isSelectingNewer : Bool) : Option NotificationId := do
  let centerState ← history.findOpenCenterState
  let selectedNotificationId ← centerState.selectedNotificationId
  let selectedEntryIndex ← history.findMergedEntryIndex selectedNotificationId
  let nextEntry ← history.findEntryBeside selectedEntryIndex isSelectingNewer
  return nextEntry.notificationId

def selectAdjacentEntry (isSelectingNewer : Bool) : NotificationHistory × Option NotificationId :=
  match history.findAdjacentEntry isSelectingNewer with
  | none => (history, none)
  | some nextNotificationId => (history.setSelectedNotificationId (some nextNotificationId), some nextNotificationId)

/-- Selects a held entry while the center is open. -/
def selectEntry : NotificationHistory :=
  if history.isNotificationCenterOpen && (history.findMergedEntryIndex notificationId).isSome then
    history.setSelectedNotificationId (some notificationId)
  else history

/-- Withdraws the toast while it shows under the number. -/
def requestToastWithdraw (toastNumber : Nat) : NotificationHistory :=
  if history.notificationToast.shownToast.map (·.toastNumber) = some toastNumber then
    { history with notificationToast := history.notificationToast.requestWithdraw }
  else history

section Clocks

-- the position of a slide from its start to its end position, for the time it started and the current time
variable (computeSlidePosition : Nat → Nat → Nat → Nat → Nat)

def advanceSlide (slide : NotificationCenterSlide) (currentTime : Nat) (shouldReduceMotion : Bool) :
    NotificationCenterSlide :=
  if shouldReduceMotion then { slide with hiddenPerMille := slide.getEndHiddenPerMille }
  else
    let startedAt := slide.startedAt.getD currentTime
    { slide with
      startedAt := some startedAt
      hiddenPerMille :=
        computeSlidePosition slide.startHiddenPerMille slide.getEndHiddenPerMille startedAt currentTime }

/-- Advances the toast's clock and the center's slide. A center whose slide out ends goes. -/
def advanceNotificationClocks (currentTime : Nat) (toastTiming : ToastTiming) (isToastPaused : Bool) :
    NotificationHistory :=
  let (notificationToast, isPreviewChanged) := history.notificationToast.advance currentTime toastTiming isToastPaused
  let history := { history with
    notificationToast
    revision := if isPreviewChanged then history.revision + 1 else history.revision }
  match history.notificationCenter with
  | none => history
  | some centerState =>
    let slide := advanceSlide computeSlidePosition centerState.slide currentTime toastTiming.shouldReduceMotion
    let revision :=
      if centerState.slide.hiddenPerMille ≠ slide.hiddenPerMille then history.revision + 1 else history.revision
    if slide.isClosing && slide.hiddenPerMille = fullyHiddenPerMille then
      { history with notificationCenter := none, revision := revision + 1 }
    else { history with notificationCenter := some { centerState with slide }, revision }

end Clocks

end NotificationHistory

end Koshi.Client
