import Koshi.Base.Checked
import Koshi.Client.Proof.NotificationRun

/-!
# The counts of a notification history

Every addition and subtraction on a history's counts, in the state it is done in. The dropped count saturates where
entries never arrived, and an eviction adds to it with no such guard. A ledger counts the entries a run loses from its
operations alone, with no bound: the arithmetic stays in range exactly when no arrival that evicts finds that count at
the largest `u64`.
-/

namespace Koshi.Client

open Koshi.Core Base List Option

namespace NotificationHistory

/-! ### Reports of dropped entries -/

/-- Adds entries that never reached the viewer. -/
def addDroppedEntries (history : NotificationHistory) (droppedEntryCount : Nat) : NotificationHistory :=
  if droppedEntryCount = 0 then history
  else { history with
    droppedEntryCount := min (history.droppedEntryCount + droppedEntryCount) maxU64
    revision := history.revision + 1 }

inductive CountedOperation where
  | apply (operation : HistoryOperation)
  | addDropped (droppedEntryCount : Nat)

section Steps

variable (slide : Nat → Nat → Nat → Nat → Nat)

def applyCounted (history : NotificationHistory) : CountedOperation → NotificationHistory
  | .apply operation => history.apply slide operation
  | .addDropped droppedEntryCount => history.addDroppedEntries droppedEntryCount

end Steps

/-! ### Where the counts change -/

/-- One place of an operation that counts, with the state before it. -/
inductive CountStep where
  | skip (newSequence nextExpectedSequence : Nat)
  | arrive (history : NotificationHistory) (added : NotificationEntry)
  | remove (history : NotificationHistory) (mergedIndex : Nat)

variable (history : NotificationHistory)

/-- The steps of the loop over a session queue's entries. -/
def listQueueSteps (shouldPreviewNewEntries : Bool) : QueueLoop → List NotificationEntry → List CountStep
  | _, [] => []
  | loop, queuedEntry :: queuedEntries =>
    let ownEntry := sanitizeReceivedEntry queuedEntry
    let (history, _) := loop.history.countSkippedSequences ownEntry loop.nextExpectedSequence
    .skip ownEntry.notificationId.sequence loop.nextExpectedSequence ::
      ((if isNewEntry loop.mergedThrough ownEntry then [.arrive history ownEntry] else []) ++
        listQueueSteps shouldPreviewNewEntries (takeQueuedEntry shouldPreviewNewEntries loop queuedEntry) queuedEntries)

def listCountSteps : HistoryOperation → List CountStep
  | .post severity text postCount createdAt _ =>
    if history.isSessionLocal &&
        history.isHeldBySession severity (sanitizeTextToByteCount text maxNotificationTextByteCount) then []
    else
      let (clientQueue, postedEntry) := history.clientQueue.postCoreEntry severity text postCount createdAt
      [.arrive { history with clientQueue } postedEntry]
  | .takeQueue sessionId queue shouldShowToasts =>
    match queue.validateQueuedEntries with
    | .error _ => []
    | .ok () =>
      if queue.owner ≠ .session sessionId then []
      else
        let isFirstQueueOfOwner := history.sessionQueueMark.all fun mark => mark.owner ≠ queue.owner
        let listSteps := fun mergedThrough => listQueueSteps (shouldShowToasts && !isFirstQueueOfOwner)
          ⟨history, mergedThrough, expectedSequence mergedThrough⟩ queue.queuedEntries
        match history.findMarkOf queue with
        | some mark => if queue.revision < mark.revision then [] else listSteps mark.mergedThrough
        | none => listSteps none
  | .takePost revision postedEntry _ =>
    match history.sessionQueueMark with
    | none => []
    | some mark =>
      if postedEntry.notificationId.owner ≠ mark.owner ∨ postedEntry.notificationId.epoch ≠ mark.epoch then []
      else if revision ≤ mark.revision then []
      else
        let isNew := isNewEntry mark.mergedThrough postedEntry
        let history := { history with
          sessionQueueMark := some { mark with
            revision
            mergedThrough :=
              if isNew then some ⟨postedEntry.notificationId.sequence, postedEntry.repeatCount⟩ else
                  mark.mergedThrough } }
        let nextExpectedSequence := expectedSequence mark.mergedThrough
        .skip postedEntry.notificationId.sequence nextExpectedSequence ::
          if isNew then
            [.arrive (history.countSkippedSequences postedEntry nextExpectedSequence).1
              (sanitizeReceivedEntry postedEntry)]
          else []
  | .dismiss notificationId => (history.findMergedEntryIndex notificationId).toList.map (.remove history)
  | _ => []

/-- A report of dropped entries only saturates. -/
def CountedOperation.listCountSteps (history : NotificationHistory) : CountedOperation → List CountStep
  | .apply operation => history.listCountSteps operation
  | .addDropped _ => []

/-! ### Arithmetic in range -/

/-- The subtractions of `remove_merged_entry_at`. -/
def RemovalInRange (mergedIndex : Nat) : Prop :=
  ∃ firstUnreadIndex, checkedSub history.mergedEntries.length history.unreadEntryCount = some firstUnreadIndex ∧
    (mergedIndex < history.mergedEntries.length → mergedIndex ≥ firstUnreadIndex →
      (checkedSub history.unreadEntryCount 1).isSome)

/-- The removal of `evict_oldest_entry` and its addition to the dropped count. -/
def EvictionInRange : Prop :=
  history.RemovalInRange 0 ∧
    ∀ evictedEntry ∈ (history.removeMergedEntryAt 0).2,
      (checkedAdd maxU64 (history.removeMergedEntryAt 0).1.droppedEntryCount 1).isSome

variable (added : NotificationEntry)

/-- The removals of the loop over the own entries an arrival replaces. -/
def ReplacementInRange : Nat → Nat → NotificationHistory → Prop
  | 0, _, _ => True
  | rest + 1, mergedIndex, history =>
    match history.mergedEntries[mergedIndex]? with
    | none => True
    | some mergedEntry =>
      if isReplacedBy added mergedEntry then
        history.RemovalInRange mergedIndex ∧
          ReplacementInRange rest mergedIndex (history.removeMergedEntryAt mergedIndex).1
      else ReplacementInRange rest (mergedIndex + 1) history

/-- The arithmetic of `push_merged_entry`. -/
def PushInRange : Prop :=
  ReplacementInRange added history.mergedEntries.length 0 history ∧
    ((history.replaceOwnEntries added).mergedEntries.length = maxMergedNotificationCount →
      (history.replaceOwnEntries added).EvictionInRange) ∧
    (checkedAdd maxU64 (history.replaceOwnEntries added).makeRoom.unreadEntryCount 1).isSome

/-- The arithmetic of `take_arrival`. -/
def ArrivalInRange : Prop :=
  (∀ heldIndex ∈ history.findMergedEntryIndex added.notificationId, history.RemovalInRange heldIndex) ∧
    (history.withoutHeld added).PushInRange added

def CountStep.InRange : CountStep → Prop
  | .skip newSequence nextExpectedSequence =>
    newSequence < nextExpectedSequence ∨ (checkedSub newSequence nextExpectedSequence).isSome
  | .arrive history added => history.ArrivalInRange added
  | .remove history mergedIndex => history.RemovalInRange mergedIndex

/-! ### One step -/

variable {history added}

theorem removalInRange (h : EntriesSound history) (index : Nat) : history.RemovalInRange index := by
  have hunread := h.unread
  refine ⟨_, checkedSub_of_le hunread, fun hlt hge => ?_⟩
  rw [checkedSub_of_le (by omega)]
  rfl

theorem replacementInRange (rest index : Nat) (h : EntriesSound history) :
    ReplacementInRange added rest index history := by
  induction rest generalizing index history with
  | zero => trivial
  | succ rest ih =>
    rw [ReplacementInRange]
    split
    · trivial
    rename_i mergedEntry hg
    split
    · obtain ⟨next, hrm, -, hsn, -⟩ := removeMergedEntryAt_spec h hg
      rw [hrm]
      exact ⟨removalInRange h _, ih _ hsn⟩
    · exact ih _ h

theorem evictionInRange_iff (h : EntriesSound history)
    (hfull : history.mergedEntries.length = maxMergedNotificationCount) :
    history.EvictionInRange ↔ history.droppedEntryCount < maxU64 := by
  have hg : history.mergedEntries[0]? = some (history.mergedEntries.get ⟨0, by rw [hfull]; decide⟩) :=
    List.getElem?_eq_getElem _
  obtain ⟨next, hrm, -, -, -, -, hdp⟩ := removeMergedEntryAt_spec h hg
  unfold EvictionInRange
  rw [hrm, hdp, and_iff_right (removalInRange h 0)]
  simp only [Option.mem_some_iff, forall_eq', checkedAdd, checkedCast]
  split <;> simp <;> omega

theorem arrivalInRange_iff (h : EntriesSound history)
    (hpv : PreviewsSound (fun _ => True) (fun _ => False) history.mergedEntries history.notificationToast) :
    history.ArrivalInRange added ↔
      ((history.listKeptEntries added).length = maxMergedNotificationCount → history.droppedEntryCount < maxU64) := by
  have hrv := @heldRemoved_withoutHeld _ _ added h hpv
  obtain ⟨hmg, hsn, -, hreplacedPreviews, hdp⟩ :=
    replaceOwnEntries_spec hrv.sound hrv.previews trivial
  obtain ⟨-, hroomSound, -⟩ := makeRoom_spec hsn hreplacedPreviews
  have hk : ((history.withoutHeld added).replaceOwnEntries added).mergedEntries = history.listKeptEntries added := by
    rw [hmg, hrv.merged, hrv.same.isSessionLocal, listKeptEntries]
  have hunread : (checkedAdd maxU64
      ((history.withoutHeld added).replaceOwnEntries added).makeRoom.unreadEntryCount 1).isSome := by
    have hlen := hroomSound.unread.trans hroomSound.bounded
    rw [checkedAdd_of_le ((Nat.succ_le_succ hlen).trans (by decide))]
    rfl
  have hh : ∀ heldIndex ∈ history.findMergedEntryIndex added.notificationId,
      history.RemovalInRange heldIndex := fun heldIndex _ => removalInRange h heldIndex
  unfold ArrivalInRange PushInRange
  rw [and_iff_right hh, and_iff_right (replacementInRange _ _ hrv.sound), and_iff_left hunread, hk]
  refine imp_congr_right fun hfull => ?_
  rw [evictionInRange_iff hsn (hk ▸ hfull), hdp, hrv.dropped]

theorem skipInRange (newSequence nextSequence : Nat) : (CountStep.skip newSequence nextSequence).InRange := by
  rcases Nat.lt_or_ge newSequence nextSequence with hlt | hge
  · exact .inl hlt
  · exact .inr (by rw [checkedSub_of_le hge]; rfl)

/-! ### The entries a run loses -/

/-- What a run's operations hold and lose of entries, the count of the lost ones with no bound. -/
structure LossLedger where
  clientQueue : NotificationQueue
  sessionQueueMark : Option SessionQueueMark
  heldEntries : List NotificationEntry
  /-- The entries the viewer can no longer show, since the last clear. -/
  lostEntryCount : Nat
  /-- Every arrival that evicted an entry found fewer lost entries than the largest `u64`. -/
  hasRoom : Bool

namespace LossLedger

def start (clientId : ClientId) (epoch : NotificationEpoch) : LossLedger :=
  ⟨.fromOwner (.client clientId) epoch, none, [], 0, true⟩

variable (isSessionLocal : Bool) (ledger : LossLedger)

def lose (lostEntryCount : Nat) : LossLedger :=
  { ledger with lostEntryCount := ledger.lostEntryCount + lostEntryCount }

/-- An entry at the newest place. One that arrives beside as many others as a history holds evicts the oldest. -/
def arrive (added : NotificationEntry) : LossLedger :=
  let keptEntries := keepUnreplaced isSessionLocal added
    (ledger.heldEntries.filter fun entry => entry.notificationId ≠ added.notificationId)
  if keptEntries.length = maxMergedNotificationCount then
    { ledger.lose 1 with
      heldEntries := keptEntries.tail ++ [added]
      hasRoom := ledger.hasRoom && decide (ledger.lostEntryCount < maxU64) }
  else { ledger with heldEntries := keptEntries ++ [added] }

/-- An entry from the session: the sequences before it that did not come are lost, and a new one arrives. -/
def receive (mergedThrough : Option MergedThrough) (nextExpectedSequence : Nat) (ownEntry : NotificationEntry) :
    LossLedger :=
  let ledger := ledger.lose (ownEntry.notificationId.sequence - nextExpectedSequence)
  if isNewEntry mergedThrough ownEntry then ledger.arrive isSessionLocal (sanitizeReceivedEntry ownEntry)
  else ledger

/-- The newest entry taken, once the entry came. -/
def markThrough (mergedThrough : Option MergedThrough) (ownEntry : NotificationEntry) : Option MergedThrough :=
  if isNewEntry mergedThrough ownEntry then
    some ⟨ownEntry.notificationId.sequence, ownEntry.repeatCount⟩
  else mergedThrough

def receiveAll : List NotificationEntry → Option MergedThrough → Nat → LossLedger → LossLedger × Option MergedThrough
  | [], mergedThrough, _, ledger => (ledger, mergedThrough)
  | ownEntry :: receivedEntries, mergedThrough, nextExpectedSequence, ledger =>
    let newSequence := ownEntry.notificationId.sequence
    receiveAll receivedEntries (markThrough mergedThrough ownEntry)
      (if newSequence < nextExpectedSequence then nextExpectedSequence else followingSequence newSequence)
      (ledger.receive isSessionLocal mergedThrough nextExpectedSequence ownEntry)

def receiveQueue (queue : NotificationQueue) (mergedThrough : Option MergedThrough) : LossLedger :=
  let (ledger, mergedThrough) :=
    receiveAll isSessionLocal queue.queuedEntries mergedThrough (expectedSequence mergedThrough) ledger
  { ledger with sessionQueueMark := some ⟨queue.owner, queue.epoch, queue.revision, mergedThrough⟩ }

def step : CountedOperation → LossLedger
  | .addDropped droppedEntryCount => ledger.lose droppedEntryCount
  | .apply (.post severity text postCount createdAt _) =>
    let sanitizedText := sanitizeTextToByteCount text maxNotificationTextByteCount
    if isSessionLocal &&
        ledger.heldEntries.any (fun entry => isSessionEntry entry && isCoreNotice entry severity sanitizedText) then
      ledger
    else
      let (clientQueue, postedEntry) := ledger.clientQueue.postCoreEntry severity text postCount createdAt
      { ledger with clientQueue }.arrive isSessionLocal postedEntry
  | .apply (.takeQueue sessionId queue _) =>
    if queue.validateQueuedEntries ≠ .ok () ∨ queue.owner ≠ .session sessionId then ledger
    else
      match ledger.sessionQueueMark.filter fun mark => mark.owner = queue.owner && mark.epoch = queue.epoch with
      | some mark =>
        if queue.revision < mark.revision then ledger else ledger.receiveQueue isSessionLocal queue mark.mergedThrough
      | none => ledger.receiveQueue isSessionLocal queue none
  | .apply (.takePost revision postedEntry _) =>
    match ledger.sessionQueueMark with
    | none => ledger
    | some mark =>
      if postedEntry.notificationId.owner ≠ mark.owner ∨ postedEntry.notificationId.epoch ≠ mark.epoch then ledger
      else if revision ≤ mark.revision then ledger
      else
        { ledger with
          sessionQueueMark := some { mark with
            revision
            mergedThrough := markThrough mark.mergedThrough postedEntry } }.receive isSessionLocal mark.mergedThrough
          (expectedSequence mark.mergedThrough) postedEntry
  | .apply (.dismiss notificationId) =>
    { ledger with heldEntries := ledger.heldEntries.filter fun entry => entry.notificationId ≠ notificationId }
  | .apply .clear => { ledger with heldEntries := [], lostEntryCount := 0 }
  | .apply _ => ledger

end LossLedger

/-- The ledger has the entries of the history, and while there was room, its dropped count. -/
structure IsLedgerOf (history : NotificationHistory) (ledger : LossLedger) : Prop where
  clientQueue : history.clientQueue = ledger.clientQueue
  sessionQueueMark : history.sessionQueueMark = ledger.sessionQueueMark
  merged : history.mergedEntries = ledger.heldEntries
  dropped : ledger.hasRoom = true → history.droppedEntryCount = min ledger.lostEntryCount maxU64

/-- The steps lead to a history the ledger is of, and there is still room exactly when each step is in range. -/
structure Books (hadRoom : Bool) (steps : List CountStep) (next : NotificationHistory) (nextLedger : LossLedger) :
    Prop where
  isLedger : next.IsLedgerOf nextLedger
  hasRoom_iff : nextLedger.hasRoom = true ↔ hadRoom = true ∧ ∀ step ∈ steps, step.InRange

section Books

variable {isSessionLocal : Bool} {ledger : LossLedger}

theorem Books.nil (hl : history.IsLedgerOf ledger) : Books ledger.hasRoom [] history ledger :=
  ⟨hl, by simp⟩

theorem Books.append {middleHistory nextHistory : NotificationHistory} {middleLedger nextLedger : LossLedger}
    {steps nextSteps : List CountStep} (h : Books ledger.hasRoom steps middleHistory middleLedger)
    (hnext : Books middleLedger.hasRoom nextSteps nextHistory nextLedger) :
    Books ledger.hasRoom (steps ++ nextSteps) nextHistory nextLedger :=
  ⟨hnext.isLedger, by rw [hnext.hasRoom_iff, h.hasRoom_iff, forall_mem_append, and_assoc]⟩

/-- An arrival at a sound history. -/
theorem Books.arrive {arrived : NotificationEntry} (h : EntriesSound history)
    (hpreviews : PreviewsSound (fun _ => True) (fun _ => False) history.mergedEntries history.notificationToast)
    (hl : history.IsLedgerOf ledger) (hlocal : history.isSessionLocal = isSessionLocal) (shows : Bool) :
    Books ledger.hasRoom [.arrive history arrived]
      (history.takeArrival arrived (history.findMergedEntryIndex arrived.notificationId) shows)
      (ledger.arrive isSessionLocal arrived) := by
  have harrives := @arrives_takeArrival _ _ arrived h hpreviews trivial shows
  have hkept : history.listKeptEntries arrived = keepUnreplaced isSessionLocal arrived
      (ledger.heldEntries.filter fun entry => entry.notificationId ≠ arrived.notificationId) := by
    rw [listKeptEntries, listOtherEntries, hlocal, hl.merged]
  have hmerged := harrives.merged
  have hdropped := harrives.dropped
  have hroom : (∀ step ∈ [CountStep.arrive history arrived], step.InRange) ↔
      ((history.listKeptEntries arrived).length = maxMergedNotificationCount →
        history.droppedEntryCount < maxU64) := forall_mem_singleton.trans (arrivalInRange_iff h hpreviews)
  unfold keepRoom at hmerged
  rw [hkept] at hmerged hdropped hroom
  unfold LossLedger.arrive
  dsimp only
  split
  · rename_i hfull
    rw [if_pos hfull] at hmerged hdropped
    refine ⟨⟨harrives.same.clientQueue.trans hl.clientQueue, harrives.same.sessionQueueMark.trans hl.sessionQueueMark,
      hmerged, fun hr => ?_⟩, ?_⟩
    · obtain ⟨hbefore, hlt⟩ := Bool.and_eq_true_iff.mp hr
      have hlost := of_decide_eq_true hlt
      have hcount := hl.dropped hbefore
      show _ = min (ledger.lostEntryCount + 1) maxU64
      omega
    · rw [hroom, forall_prop_of_true hfull, Bool.and_eq_true, decide_eq_true_iff]
      refine and_congr_right fun hr => ?_
      have hcount := hl.dropped hr
      omega
  · rename_i hfree
    rw [if_neg hfree] at hmerged hdropped
    refine ⟨⟨harrives.same.clientQueue.trans hl.clientQueue, harrives.same.sessionQueueMark.trans hl.sessionQueueMark,
      hmerged, fun hr => hdropped.trans (hl.dropped hr)⟩, ?_⟩
    rw [hroom, and_iff_left fun hfull => absurd hfull hfree]

theorem IsLedgerOf.lose {lostCount revision : Nat} (hl : history.IsLedgerOf ledger) :
    IsLedgerOf { history with
      droppedEntryCount := min (history.droppedEntryCount + lostCount) maxU64
      revision } (ledger.lose lostCount) := by
  refine ⟨hl.clientQueue, hl.sessionQueueMark, hl.merged, fun hr => ?_⟩
  have hcount := hl.dropped hr
  show min (history.droppedEntryCount + lostCount) maxU64 = min (ledger.lostEntryCount + lostCount) maxU64
  omega

theorem IsLedgerOf.skip (hl : history.IsLedgerOf ledger) (entry : NotificationEntry) (nextSequence : Nat) :
    (history.countSkippedSequences entry nextSequence).1.IsLedgerOf
      (ledger.lose (entry.notificationId.sequence - nextSequence)) := by
  have hnone (h : entry.notificationId.sequence - nextSequence = 0) :
      history.IsLedgerOf (ledger.lose (entry.notificationId.sequence - nextSequence)) := by
    rw [h]
    exact hl
  unfold countSkippedSequences
  dsimp only
  split
  · exact hnone (by omega)
  · split
    · exact hl.lose
    · exact hnone (by omega)

/-- One entry from the session. -/
theorem Books.receive {entry : NotificationEntry} (h : RunSound isSessionLocal history) (hl : history.IsLedgerOf ledger)
    (mergedThrough : Option MergedThrough) (nextSequence : Nat) (shows : Bool) :
    Books ledger.hasRoom
      (.skip entry.notificationId.sequence nextSequence ::
        if isNewEntry mergedThrough entry then
          [.arrive (history.countSkippedSequences entry nextSequence).1 (sanitizeReceivedEntry entry)]
        else [])
      (if isNewEntry mergedThrough entry then
        (history.countSkippedSequences entry nextSequence).1.takeArrival (sanitizeReceivedEntry entry)
          ((history.countSkippedSequences entry nextSequence).1.findMergedEntryIndex entry.notificationId) shows
      else (history.countSkippedSequences entry nextSequence).1)
      (ledger.receive isSessionLocal mergedThrough nextSequence entry) := by
  have hskipped := (takeInvariant_runSound isSessionLocal []).countSkipped h entry nextSequence
  have hskip : Books ledger.hasRoom [.skip entry.notificationId.sequence nextSequence]
      (history.countSkippedSequences entry nextSequence).1
      (ledger.lose (entry.notificationId.sequence - nextSequence)) :=
    ⟨hl.skip entry nextSequence, (and_iff_left (forall_mem_singleton.mpr (skipInRange ..))).symm⟩
  unfold LossLedger.receive
  dsimp only
  split
  · exact hskip.append (Books.arrive hskipped.entries hskipped.previews hskip.isLedger hskipped.isLocal shows)
  · exact hskip

theorem takeQueuedEntry_eq (shows : Bool) (loop : QueueLoop) (entry : NotificationEntry) :
    (takeQueuedEntry shows loop entry).history = (if isNewEntry loop.mergedThrough entry then
        (loop.history.countSkippedSequences entry loop.nextExpectedSequence).1.takeArrival (sanitizeReceivedEntry entry)
          ((loop.history.countSkippedSequences entry loop.nextExpectedSequence).1.findMergedEntryIndex
            entry.notificationId) shows
      else (loop.history.countSkippedSequences entry loop.nextExpectedSequence).1) ∧
    (takeQueuedEntry shows loop entry).mergedThrough = LossLedger.markThrough loop.mergedThrough entry ∧
    (takeQueuedEntry shows loop entry).nextExpectedSequence =
      if entry.notificationId.sequence < loop.nextExpectedSequence then loop.nextExpectedSequence
      else followingSequence entry.notificationId.sequence := by
  have hnext : (loop.history.countSkippedSequences (sanitizeReceivedEntry entry) loop.nextExpectedSequence).2 =
      if entry.notificationId.sequence < loop.nextExpectedSequence then loop.nextExpectedSequence
      else followingSequence entry.notificationId.sequence := by
    unfold countSkippedSequences
    exact apply_ite Prod.snd ..
  have hisNew : isNewEntry loop.mergedThrough (sanitizeReceivedEntry entry) = isNewEntry loop.mergedThrough entry := rfl
  unfold takeQueuedEntry LossLedger.markThrough
  dsimp only
  rw [hisNew]
  by_cases hnew : isNewEntry loop.mergedThrough entry = true
  · rw [if_pos hnew, if_pos hnew, if_pos hnew]
    exact ⟨rfl, rfl, hnext⟩
  · rw [if_neg hnew, if_neg hnew, if_neg hnew]
    exact ⟨rfl, rfl, hnext⟩

/-- The entries of a queue. -/
theorem Books.receiveAll {loop : QueueLoop} (shows : Bool) (entries : List NotificationEntry)
    (hsession : ∀ entry ∈ entries, isSessionEntry entry = true) (h : RunSound isSessionLocal loop.history)
    (hl : loop.history.IsLedgerOf ledger) :
    Books ledger.hasRoom (listQueueSteps shows loop entries) (entries.foldl (takeQueuedEntry shows) loop).history
        (ledger.receiveAll isSessionLocal entries loop.mergedThrough loop.nextExpectedSequence).1 ∧
      (entries.foldl (takeQueuedEntry shows) loop).mergedThrough =
        (ledger.receiveAll isSessionLocal entries loop.mergedThrough loop.nextExpectedSequence).2 := by
  induction entries generalizing loop ledger with
  | nil => exact ⟨.nil hl, rfl⟩
  | cons entry entries ih =>
    have hsound : RunSound isSessionLocal (takeQueuedEntry shows loop entry).history :=
      (takeInvariant_runSound isSessionLocal [entry]).queuedEntries shows [entry] (fun other hm =>
        ⟨hm, by rw [mem_singleton.mp hm]; exact hsession entry mem_cons_self⟩) loop h
    have hreceive := @Books.receive _ _ ledger entry h hl loop.mergedThrough loop.nextExpectedSequence shows
    obtain ⟨hhistory, hthrough, hnext⟩ := takeQueuedEntry_eq shows loop entry
    rw [← hhistory] at hreceive
    obtain ⟨hbooks, hlast⟩ := ih (fun other hm => hsession other (mem_cons_of_mem _ hm)) hsound hreceive.isLedger
    rw [hthrough, hnext] at hbooks hlast
    exact ⟨hreceive.append hbooks, hlast⟩

section

variable (h : RunSound isSessionLocal history) (hl : history.IsLedgerOf ledger)

include h hl

theorem Books.takeQueue {queue : NotificationQueue}
    (hsession : ∀ entry ∈ queue.queuedEntries, isSessionEntry entry = true) (mergedThrough : Option MergedThrough)
    (shows : Bool) :
    Books ledger.hasRoom (listQueueSteps shows ⟨history, mergedThrough, expectedSequence mergedThrough⟩
      queue.queuedEntries)
      (history.takeQueuedEntries queue mergedThrough shows) (ledger.receiveQueue isSessionLocal queue
        mergedThrough) := by
  obtain ⟨hbooks, hthrough⟩ := @Books.receiveAll _ ledger ⟨history, mergedThrough, expectedSequence mergedThrough⟩ shows
    queue.queuedEntries hsession h hl
  refine ⟨⟨hbooks.isLedger.clientQueue, ?_, hbooks.isLedger.merged, hbooks.isLedger.dropped⟩, hbooks.hasRoom_iff⟩
  exact congrArg (fun through => some (SessionQueueMark.mk queue.owner queue.epoch queue.revision through)) hthrough

theorem Books.stepQueue (sessionId : SessionId) (queue : NotificationQueue) (shows : Bool) :
    Books ledger.hasRoom (history.listCountSteps (.takeQueue sessionId queue shows))
      (history.takeSessionQueue sessionId queue shows).1
      (ledger.step isSessionLocal (.apply (.takeQueue sessionId queue shows))) := by
  have hrefused (hr : queue.validateQueuedEntries ≠ .ok () ∨ queue.owner ≠ .session sessionId) :
      ledger.step isSessionLocal (.apply (.takeQueue sessionId queue shows)) = ledger := if_pos hr
  unfold listCountSteps takeSessionQueue
  dsimp only
  rcases hv : queue.validateQueuedEntries with queueError | ⟨⟩
  · rw [hrefused (.inl (by simp [hv]))]
    exact .nil hl
  by_cases howner : queue.owner = .session sessionId
  swap
  · rw [hrefused (.inr howner)]
    simp only [ne_eq, howner, not_false_eq_true, if_true]
    exact .nil hl
  have hsession : ∀ entry ∈ queue.queuedEntries, isSessionEntry entry = true := fun entry he =>
    isSessionEntry_of_owner ((owner_of_validateQueuedEntries hv he).trans howner)
  unfold LossLedger.step
  simp only [hv, howner, ne_eq, not_true_eq_false, or_false, if_false]
  rw [← hl.sessionQueueMark]
  have hmark : (history.sessionQueueMark.filter fun mark => mark.owner = .session sessionId && mark.epoch =
    queue.epoch) =
      history.findMarkOf queue := by
    rw [findMarkOf, howner]
  rw [hmark]
  rcases history.findMarkOf queue with _ | mark
  · exact Books.takeQueue h hl hsession none _
  · dsimp only
    split
    · exact .nil hl
    · exact Books.takeQueue h hl hsession mark.mergedThrough _

theorem Books.stepPost (revision : Nat) (postedEntry : NotificationEntry) (shows : Bool) :
    Books ledger.hasRoom (history.listCountSteps (.takePost revision postedEntry shows))
      (history.takeSessionPost revision postedEntry shows).1
      (ledger.step isSessionLocal (.apply (.takePost revision postedEntry shows))) := by
  unfold listCountSteps takeSessionPost LossLedger.step
  rw [← hl.sessionQueueMark]
  rcases hmark : history.sessionQueueMark with _ | mark
  · exact .nil hl
  dsimp only
  by_cases hforeign : postedEntry.notificationId.owner ≠ mark.owner ∨ postedEntry.notificationId.epoch ≠ mark.epoch
  · simp only [if_pos hforeign]
    exact .nil hl
  by_cases hseen : revision ≤ mark.revision
  · simp only [if_neg hforeign, if_pos hseen]
    exact .nil hl
  simp only [if_neg hforeign, if_neg hseen]
  rw [apply_ite Prod.fst]
  let marked : SessionQueueMark :=
      { mark with revision, mergedThrough := LossLedger.markThrough mark.mergedThrough postedEntry }
  exact @Books.receive { history with sessionQueueMark := some marked } _
      { ledger with sessionQueueMark := some marked }
    postedEntry ((takeInvariant_runSound isSessionLocal [postedEntry]).mark marked (h.mark mark hmark) h)
    ⟨hl.clientQueue, rfl, hl.merged, hl.dropped⟩ mark.mergedThrough (expectedSequence mark.mergedThrough) shows

theorem Books.stepOwnPost (severity : NotificationSeverity) (text : List Char) (postCount createdAt : Nat)
    (shows : Bool) :
    Books ledger.hasRoom (history.listCountSteps (.post severity text postCount createdAt shows))
      (history.postCoreEntry severity text postCount createdAt shows)
      (ledger.step isSessionLocal (.apply (.post severity text postCount createdAt shows))) := by
  obtain ⟨clientQueue, sessionQueueMark, heldEntries, lostEntryCount, hasRoom⟩ := ledger
  obtain ⟨rfl, rfl, rfl, hdropped⟩ := hl
  obtain rfl := h.isLocal
  unfold listCountSteps postCoreEntry LossLedger.step isHeldBySession
  dsimp only
  split
  · exact .nil ⟨rfl, rfl, rfl, hdropped⟩
  · obtain ⟨clientQueue, postedEntry⟩ := history.clientQueue.postCoreEntry severity text postCount createdAt
    have hentries : EntriesSound { history with clientQueue } := ⟨h.entries.nodup, h.entries.bounded, h.entries.unread,
      h.entries.unreadOpen, h.entries.selected, h.entries.selects⟩
    exact @Books.arrive _ _ ⟨clientQueue, _, _, lostEntryCount, hasRoom⟩ postedEntry hentries h.previews
      ⟨rfl, rfl, rfl, hdropped⟩ rfl shows

theorem Books.stepDismiss (notificationId : NotificationId) :
    Books ledger.hasRoom (history.listCountSteps (.dismiss notificationId)) (history.dismissMergedEntry notificationId)
      (ledger.step isSessionLocal (.apply (.dismiss notificationId))) := by
  have hfree : ∀ step ∈ history.listCountSteps (.dismiss notificationId), step.InRange := by
    intro step hm
    obtain ⟨index, -, rfl⟩ := List.mem_map.mp hm
    exact removalInRange h.entries index
  refine ⟨?_, (and_iff_left hfree).symm⟩
  unfold dismissMergedEntry
  rcases hindex : history.findMergedEntryIndex notificationId with _ | index
  · have hnew := findMergedEntryIndex_eq_none hindex
    refine ⟨hl.clientQueue, hl.sessionQueueMark, hl.merged.trans (eq_comm.mp (filter_eq_self.mpr fun entry hm => ?_)),
      hl.dropped⟩
    rw [← hl.merged] at hm
    exact decide_eq_true fun hs => hnew (hs ▸ List.mem_map_of_mem hm)
  · obtain ⟨entry, hg, hid⟩ := findMergedEntryIndex_eq_some hindex
    obtain ⟨next, hremoved, hmerged, -, hsame, -, hdropped⟩ := removeMergedEntryAt_spec h.entries hg
    rw [eraseIdx_eq_filter h.entries.nodup hg, hid, hl.merged] at hmerged
    dsimp only
    rw [hremoved]
    exact ⟨hsame.clientQueue.trans hl.clientQueue, hsame.sessionQueueMark.trans hl.sessionQueueMark, hmerged,
      fun hr => hdropped.trans (hl.dropped hr)⟩

end

/-- What a ledger is about. -/
def listBooks (history : NotificationHistory) :
    NotificationQueue × Option SessionQueueMark × List NotificationEntry × Nat :=
  (history.clientQueue, history.sessionQueueMark, history.mergedEntries, history.droppedEntryCount)

theorem Books.shown {next : NotificationHistory} (hl : history.IsLedgerOf ledger)
    (h : next.listBooks = history.listBooks) : Books ledger.hasRoom [] next ledger := by
  simp only [listBooks, Prod.mk.injEq] at h
  obtain ⟨hqueue, hmark, hmerged, hdropped⟩ := h
  exact .nil ⟨hqueue.trans hl.clientQueue, hmark.trans hl.sessionQueueMark, hmerged.trans hl.merged,
    fun hr => hdropped.trans (hl.dropped hr)⟩

theorem listBooks_selectedId (history : NotificationHistory) (notificationId : Option NotificationId) :
    (history.setSelectedNotificationId notificationId).listBooks = history.listBooks := by
  obtain ⟨revision, heq⟩ := history.setSelectedId_eq notificationId
  rw [heq]
  rfl

theorem Books.step {slide : Nat → Nat → Nat → Nat → Nat} (h : RunSound isSessionLocal history)
    (hl : history.IsLedgerOf ledger) (op : CountedOperation) :
    Books ledger.hasRoom (op.listCountSteps history) (history.applyCounted slide op)
      (ledger.step isSessionLocal op) := by
  cases op with
  | addDropped droppedCount =>
    refine ⟨?_, by simp [CountedOperation.listCountSteps, LossLedger.step, LossLedger.lose]⟩
    unfold applyCounted addDroppedEntries
    dsimp only
    split
    · rename_i hzero
      rw [hzero]
      exact hl
    · exact hl.lose
  | apply op =>
    show Books _ _ (history.apply slide op) _
    cases op with
    | post severity text postCount createdAt shows =>
      exact Books.stepOwnPost h hl severity text postCount createdAt shows
    | takeQueue sessionId queue shows => exact Books.stepQueue h hl sessionId queue shows
    | takePost revision postedEntry shows => exact Books.stepPost h hl revision postedEntry shows
    | dismiss notificationId => exact Books.stepDismiss h hl notificationId
    | clear =>
      refine ⟨⟨hl.clientQueue, hl.sessionQueueMark, rfl, fun _ => ?_⟩, (and_iff_left fun _ => not_mem_nil.elim).symm⟩
      exact (Nat.min_eq_left (Nat.zero_le maxU64)).symm
    | selectAdjacent isSelectingNewer =>
      refine Books.shown hl ?_
      unfold apply selectAdjacentEntry
      dsimp only
      rcases history.findAdjacentEntry isSelectingNewer with _ | notificationId
      · rfl
      · exact history.listBooks_selectedId _
    | select notificationId =>
      refine Books.shown hl ?_
      unfold apply selectEntry
      dsimp only
      split
      · exact history.listBooks_selectedId _
      · rfl
    | openCenter shouldReduceMotion =>
      refine Books.shown hl ?_
      unfold apply openNotificationCenter
      dsimp only
      split <;> rfl
    | closeCenter shouldReduceMotion =>
      refine Books.shown hl ?_
      unfold apply closeNotificationCenter
      rcases history.findOpenCenterState with _ | centerState <;> rfl
    | removeCenter =>
      refine Books.shown hl ?_
      unfold apply removeNotificationCenter
      dsimp only
      split <;> rfl
    | scroll scrollRowOffset =>
      refine Books.shown hl ?_
      unfold apply setNotificationCenterScrollRowOffset
      rcases history.findOpenCenterState with _ | centerState
      · rfl
      · dsimp only
        split <;> rfl
    | advance now toastTiming isToastPaused =>
      refine Books.shown hl ?_
      unfold apply advanceNotificationClocks
      rcases history.notificationCenter with _ | centerState
      · rfl
      · dsimp only
        split <;> rfl
    | withdraw toastNumber =>
      refine Books.shown hl ?_
      unfold apply requestToastWithdraw
      dsimp only
      split <;> rfl

end Books

/-! ### Runs -/

section Runs

variable (slide : Nat → Nat → Nat → Nat → Nat)

/-- Every counting step of a run is as asked. -/
def EveryCountStep (fits : CountStep → Prop) : NotificationHistory → List CountedOperation → Prop
  | _, [] => True
  | history, operation :: operations =>
    (∀ step ∈ operation.listCountSteps history, fits step) ∧
      EveryCountStep fits (history.applyCounted slide operation) operations

variable {slide} {isSessionLocal : Bool}

theorem RunSound.applyCounted (op : CountedOperation) (h : RunSound isSessionLocal history) :
    RunSound isSessionLocal (history.applyCounted slide op) := by
  cases op with
  | apply op => exact runSound_apply h op
  | addDropped droppedCount =>
    unfold NotificationHistory.applyCounted addDroppedEntries
    dsimp only
    split
    · exact h
    · exact (takeInvariant_runSound isSessionLocal []).book _ _ h

/-- The ledger of a run has room exactly when every step was in range. -/
theorem RunSound.hasRoom_iff {ledger : LossLedger} (ops : List CountedOperation) (h : RunSound isSessionLocal history)
    (hl : history.IsLedgerOf ledger) :
    (ops.foldl (LossLedger.step isSessionLocal) ledger).hasRoom = true ↔
      ledger.hasRoom = true ∧ EveryCountStep slide CountStep.InRange history ops := by
  induction ops generalizing history ledger with
  | nil => exact (and_iff_left trivial).symm
  | cons op ops ih =>
    have hbooks := @Books.step _ _ _ slide h hl op
    rw [foldl_cons, ih (h.applyCounted op) hbooks.isLedger, hbooks.hasRoom_iff, and_assoc, EveryCountStep]

theorem isLedgerOf_start (clientId : ClientId) (epoch : NotificationEpoch) (isSessionLocal : Bool) :
    ((fromClientId clientId epoch).setSessionLocal isSessionLocal).IsLedgerOf (.start clientId epoch) :=
  ⟨rfl, rfl, rfl, fun _ => (Nat.min_eq_left (Nat.zero_le maxU64)).symm⟩

/-- **The counts of a history.** No addition or subtraction of a run leaves its type exactly when every arrival that
evicts an entry finds fewer lost entries, over the run since the last clear, than the largest `u64`. -/
theorem countsInRange_iff (slide : Nat → Nat → Nat → Nat → Nat) (clientId : ClientId) (epoch : NotificationEpoch)
    (isSessionLocal : Bool) (operations : List CountedOperation) :
    EveryCountStep slide CountStep.InRange ((fromClientId clientId epoch).setSessionLocal isSessionLocal) operations ↔
      (operations.foldl (LossLedger.step isSessionLocal) (.start clientId epoch)).hasRoom = true := by
  have hroom := @RunSound.hasRoom_iff _ slide _ _ operations (runSound_start clientId epoch isSessionLocal)
    (isLedgerOf_start clientId epoch isSessionLocal)
  exact ⟨fun hrange => hroom.mpr ⟨rfl, hrange⟩, fun hr => (hroom.mp hr).2⟩

/-- A session's queue whose entries fill the history, the last at the largest sequence, then a report of the entries
that brings the dropped count to the largest `u64`. -/
def fillingOperations : List CountedOperation :=
  [.apply (.takeQueue ⟨0⟩ ⟨.session ⟨0⟩, ⟨0⟩, 256,
      (range 255).map (sampleSessionEntry · 1 .info) ++ [sampleSessionEntry maxU64 1 .info]⟩ false),
    .addDropped 255, .apply (.post .info [] 1 0 false)]

theorem fillingOperations_overflow : ¬ EveryCountStep (fun _ _ _ _ => 0) CountStep.InRange
    ((fromClientId ⟨0⟩ ⟨1⟩).setSessionLocal false) fillingOperations := by
  intro hrange
  have hroom := ((runSound_start ⟨0⟩ ⟨1⟩ false).hasRoom_iff fillingOperations (isLedgerOf_start ⟨0⟩ ⟨1⟩ false)).mpr
    ⟨rfl, hrange⟩
  revert hroom
  decide +kernel

end Runs

end NotificationHistory

end Koshi.Client
