import Koshi.Core.Ids

/-!
# Notifications and their queues

The entries koshi posts to the person at a client and the bounded queue one owner keeps for one epoch
(`koshi-core/src/notification.rs`), with the text filter they pass (`koshi-core/src/text.rs`). A text is its list of
characters; a time is a number. A new epoch is an argument where the source draws one.
-/

namespace Koshi.Core

/-- The longest text one entry holds, in bytes. -/
def maxNotificationTextByteCount : Nat := 4096

/-- The most entries one queue holds. -/
def maxQueuedNotificationCount : Nat := 256

def maxU64 : Nat := 2 ^ 64 - 1

def maxU32 : Nat := 2 ^ 32 - 1

/-! ### Texts -/

/-- A character that is removed: control characters, bidi controls, separators, noncharacters, annotation marks and
tags. -/
def isRefusedCharacter (character : Char) : Bool :=
  let code := character.toNat
  (0x202A ≤ code && code ≤ 0x202E) || (0x2066 ≤ code && code ≤ 0x2069) || code = 0x200E || code = 0x200F ||
    code = 0x061C || code = 0x2028 || code = 0x2029 || (0xFFF9 ≤ code && code ≤ 0xFFFB) || code = 0xFFFE ||
    code = 0xFFFF || (0xE0000 ≤ code && code ≤ 0xE007F) || code ≤ 0x1F || (0x7F ≤ code && code ≤ 0x9F)

/-- The start of the text that fits in the bytes left. -/
def takeFittingCharacters : Nat → List Char → List Char
  | _, [] => []
  | byteCount, character :: text =>
    if character.utf8Size ≤ byteCount then character :: takeFittingCharacters (byteCount - character.utf8Size) text
    else []

/-- The text without its refused characters, cut at the last character boundary that fits. -/
def sanitizeTextToByteCount (rawText : List Char) (maxByteCount : Nat) : List Char :=
  takeFittingCharacters maxByteCount (rawText.filter fun character => !isRefusedCharacter character)

/-! ### Entries -/

/-- How loud one entry is. -/
inductive NotificationSeverity where
  | info
  | warning
  | error
  deriving DecidableEq, Repr

/-- Who wrote an entry's text. -/
inductive NotificationSource where
  | core
  deriving DecidableEq, Repr

/-- The process that keeps a queue. -/
inductive NotificationQueueOwner where
  | client (clientId : ClientId)
  | session (sessionId : SessionId)
  deriving DecidableEq, Repr

/-- One run of a queue owner. -/
structure NotificationEpoch where
  uuid : Nat
  deriving DecidableEq, Repr

/-- Names one entry: its queue's owner, the owner's epoch, and its place in that epoch. -/
structure NotificationId where
  owner : NotificationQueueOwner
  epoch : NotificationEpoch
  sequence : Nat
  deriving DecidableEq, Repr

structure NotificationEntry where
  notificationId : NotificationId
  source : NotificationSource
  severity : NotificationSeverity
  text : List Char
  createdAt : Nat
  /-- The posts merged into the entry, saturating at the largest `u32`. -/
  repeatCount : Nat
  deriving DecidableEq, Repr

def isCoreNotice (entry : NotificationEntry) (severity : NotificationSeverity) (text : List Char) : Bool :=
  entry.source = .core && entry.severity = severity && entry.text = text

/-! ### Queues -/

structure NotificationQueue where
  owner : NotificationQueueOwner
  epoch : NotificationEpoch
  /-- How many posts the queue took. -/
  revision : Nat
  queuedEntries : List NotificationEntry
  deriving DecidableEq, Repr

/-- Why a queue another process sent cannot be taken. -/
inductive NotificationQueueError where
  | tooManyEntries (queuedEntryCount : Nat)
  | foreignEntry (notificationId : NotificationId)
  deriving DecidableEq, Repr

namespace NotificationQueue

/-- An empty queue, in a new epoch, at revision 0. -/
def fromOwner (owner : NotificationQueueOwner) (epoch : NotificationEpoch) : NotificationQueue := ⟨owner, epoch, 0, []⟩

variable (queue : NotificationQueue)

def findRepeatedEntry (severity : NotificationSeverity) (sanitizedText : List Char) : Option NotificationEntry :=
  queue.queuedEntries.getLast?.filter fun newestEntry => isCoreNotice newestEntry severity sanitizedText

/-- The sequence the next new entry takes. -/
def nextSequence : Nat :=
  (queue.queuedEntries.getLast?.map fun newestEntry => newestEntry.notificationId.sequence + 1).getD 0

/-- Posts a text `postCount` times in a row, and gives the entry the posts made or changed. -/
def postCoreEntry (severity : NotificationSeverity) (text : List Char) (postCount createdAt : Nat) :
    NotificationQueue × NotificationEntry :=
  let sanitizedText := sanitizeTextToByteCount text maxNotificationTextByteCount
  let queue := { queue with revision := queue.revision + postCount }
  match queue.findRepeatedEntry severity sanitizedText with
  | some newestEntry =>
    let newestEntry := { newestEntry with
      repeatCount := min (newestEntry.repeatCount + postCount) maxU32
      createdAt }
    ({ queue with queuedEntries := queue.queuedEntries.dropLast ++ [newestEntry] }, newestEntry)
  | none =>
    let newEntry := ⟨⟨queue.owner, queue.epoch, queue.nextSequence⟩, .core, severity, sanitizedText, createdAt,
      postCount⟩
    let keptEntries :=
      if queue.queuedEntries.length = maxQueuedNotificationCount then queue.queuedEntries.tail else queue.queuedEntries
    ({ queue with queuedEntries := keptEntries ++ [newEntry] }, newEntry)

/-- Checks a queue another process sent. -/
def validateQueuedEntries : Except NotificationQueueError Unit :=
  if queue.queuedEntries.length > maxQueuedNotificationCount then .error (.tooManyEntries queue.queuedEntries.length)
  else
    match queue.queuedEntries.find? fun queuedEntry =>
      queuedEntry.notificationId.owner ≠ queue.owner || queuedEntry.notificationId.epoch ≠ queue.epoch with
    | some foreignEntry => .error (.foreignEntry foreignEntry.notificationId)
    | none => .ok ()

end NotificationQueue

end Koshi.Core
