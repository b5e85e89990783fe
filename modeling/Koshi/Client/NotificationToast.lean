import Koshi.Core.Notification

/-!
# The toast of one viewer

The preview a viewer shows, the previews that wait behind it, and the phase and slide of the shown one
(`koshi-client/src/notification_toast.rs`). Instants and durations are numbers of nanoseconds.
-/

namespace Koshi.Client

open Koshi.Core

/-- The most entry previews that wait behind the shown preview. -/
def maxWaitingToastCount : Nat := 3

def nanosecondsPerMillisecond : Nat := 1000000

def asMillis (duration : Nat) : Nat := duration / nanosecondsPerMillisecond

/-- The step of the toast's clock: 50 ms. -/
def toastFrameInterval : Nat := 50 * nanosecondsPerMillisecond

/-- How long appear and withdraw run while no preview waits: 1 s. -/
def normalSlideDuration : Nat := 1000 * nanosecondsPerMillisecond

/-- How long each phase runs while a preview waits, and a fast withdraw: 0.5 s. -/
def backlogPhaseDuration : Nat := 500 * nanosecondsPerMillisecond

/-- The thousandths of a toast's width past its side edge while it is fully out of view. -/
def fullyHiddenPerMille : Nat := 1000

/-- What a summary counts: each entry's id and severity, oldest first. -/
abbrev SummaryMembers := List (NotificationId × NotificationSeverity)

inductive ToastPreview where
  | entry (notificationEntry : NotificationEntry)
  | summary (summaryMembers : SummaryMembers)
  deriving DecidableEq, Repr

/-- How fast a withdraw runs. -/
inductive WithdrawSpeed where
  | normal
  | fast
  deriving DecidableEq, Repr

/-- The phase of the shown preview. -/
inductive ToastPhase where
  | appear
  | stay
  | withdraw (startHiddenPerMille : Nat) (withdrawSpeed : WithdrawSpeed)
  deriving DecidableEq, Repr

/-- The preview on screen, and where its phases stand. -/
structure ShownToast where
  toastNumber : Nat
  preview : ToastPreview
  phase : ToastPhase
  phaseStartedAt : Option Nat
  hiddenPerMille : Nat
  /-- A withdraw that the next advance of the clock starts. -/
  withdrawRequest : Option WithdrawSpeed
  deriving DecidableEq, Repr

/-- A toast that starts its appear phase at the next advance of the clock. -/
def ShownToast.fromPreview (toastNumber : Nat) (preview : ToastPreview) : ShownToast :=
  ⟨toastNumber, preview, .appear, none, fullyHiddenPerMille, none⟩

/-- The lengths that one viewer's settings give the toast's phases. -/
structure ToastTiming where
  stayDuration : Nat
  shouldReduceMotion : Bool
  deriving DecidableEq, Repr

/-! ### Phases -/

/-- How long a phase runs. -/
def computePhaseDuration (phase : ToastPhase) (toastTiming : ToastTiming) (hasWaitingPreview : Bool) : Nat :=
  match phase with
  | .stay => if hasWaitingPreview then backlogPhaseDuration else toastTiming.stayDuration
  | .appear =>
    if toastTiming.shouldReduceMotion then 0
    else if hasWaitingPreview then backlogPhaseDuration else normalSlideDuration
  | .withdraw _ withdrawSpeed =>
    if toastTiming.shouldReduceMotion then 0
    else if withdrawSpeed = .fast then backlogPhaseDuration
    else if hasWaitingPreview then backlogPhaseDuration else normalSlideDuration

/-- When a phase ends: no later than its full length, and with a preview waiting after its shorter length, but not
before the preview was seen. -/
def computePhaseEndedAt (phase : ToastPhase) (phaseStartedAt : Nat) (toastTiming : ToastTiming)
    (waitingPreviewSeenAt : Option Nat) : Nat :=
  let fullPhaseEndedAt := phaseStartedAt + computePhaseDuration phase toastTiming false
  match waitingPreviewSeenAt with
  | none => fullPhaseEndedAt
  | some waitingPreviewSeenAt =>
    let waitingPhaseEndedAt := phaseStartedAt + computePhaseDuration phase toastTiming true
    min (max waitingPhaseEndedAt waitingPreviewSeenAt) fullPhaseEndedAt

/-- The whole 50 ms steps in a duration. -/
def countElapsedSteps (elapsedDuration : Nat) : Nat := asMillis elapsedDuration / asMillis toastFrameInterval

/-- The thousandths of the toast's width past its side edge. -/
def computeHiddenPerMille (phase : ToastPhase) (elapsedDuration phaseDuration : Nat) : Nat :=
  let steppedMillisecondCount := countElapsedSteps elapsedDuration * asMillis toastFrameInterval
  let progressPerMille :=
    if asMillis phaseDuration = 0 then 1000 else min (steppedMillisecondCount * 1000 / asMillis phaseDuration) 1000
  match phase with
  | .appear => fullyHiddenPerMille - progressPerMille
  | .stay => 0
  | .withdraw startHiddenPerMille _ =>
    startHiddenPerMille + (fullyHiddenPerMille - startHiddenPerMille) * progressPerMille / 1000

/-! ### The queue -/

structure NotificationToastQueue where
  shownToast : Option ShownToast
  waitingEntries : List NotificationEntry
  waitingSummary : Option SummaryMembers
  pausedAt : Option Nat
  waitingPreviewSeenAt : Option Nat
  shownToastCount : Nat
  deriving DecidableEq, Repr

namespace NotificationToastQueue

def default : NotificationToastQueue := ⟨none, [], none, none, none, 0⟩

variable (queue : NotificationToastQueue)

def showPreview (preview : ToastPreview) : NotificationToastQueue :=
  { queue with
    shownToast := some (.fromPreview queue.shownToastCount preview)
    shownToastCount := queue.shownToastCount + 1 }

/-- Shows the oldest waiting entry, else the waiting summary, else nothing. -/
def showNextPreview : NotificationToastQueue :=
  match queue.waitingEntries with
  | waitingEntry :: waitingEntries => { queue with waitingEntries }.showPreview (.entry waitingEntry)
  | [] =>
    match queue.waitingSummary with
    | some summaryMembers => { queue with waitingSummary := none }.showPreview (.summary summaryMembers)
    | none => { queue with shownToast := none }

def updatePreview (changedEntry : NotificationEntry) : ToastPreview → ToastPreview
  | .entry shownEntry =>
    if shownEntry.notificationId = changedEntry.notificationId then .entry changedEntry else .entry shownEntry
  | .summary summaryMembers => .summary summaryMembers

def listPreviewIds : ToastPreview → List NotificationId
  | .entry shownEntry => [shownEntry.notificationId]
  | .summary summaryMembers => summaryMembers.map (·.1)

/-- Every id a preview shows: on screen, waiting, or in the waiting summary. -/
def listPreviewedIds : List NotificationId :=
  (queue.shownToast.map fun shownToast => listPreviewIds shownToast.preview).getD [] ++
    (queue.waitingEntries.map (·.notificationId) ++ (queue.waitingSummary.getD []).map (·.1))

/-- Takes the changed entry as the copy of every entry preview with its id, and tells whether any preview shows it. -/
def updatePreviews (changedEntry : NotificationEntry) : NotificationToastQueue × Bool :=
  ({ queue with
    shownToast := queue.shownToast.map fun shownToast =>
      { shownToast with preview := updatePreview changedEntry shownToast.preview }
    waitingEntries := queue.waitingEntries.map fun waitingEntry =>
      if waitingEntry.notificationId = changedEntry.notificationId then changedEntry else waitingEntry },
    decide (changedEntry.notificationId ∈ queue.listPreviewedIds))

/-- Previews an arrival of the history. -/
def queuePreview (arrivedEntry : NotificationEntry) : NotificationToastQueue :=
  match queue.updatePreviews arrivedEntry with
  | (queue, true) => queue
  | (queue, false) =>
    let summaryMember := (arrivedEntry.notificationId, arrivedEntry.severity)
    match queue.waitingSummary with
    | some summaryMembers => { queue with waitingSummary := some (summaryMembers ++ [summaryMember]) }
    | none =>
      if queue.shownToast.isNone then queue.showPreview (.entry arrivedEntry)
      else if queue.waitingEntries.length < maxWaitingToastCount then
        { queue with waitingEntries := queue.waitingEntries ++ [arrivedEntry] }
      else { queue with waitingSummary := some [summaryMember] }

/-- `retain_mut` of the repointing loops: the first replaced item becomes the replacing one unless an earlier preview
shows it already, the later ones go. The flag tells whether a preview shows the replacing entry. -/
def retainRepointed {Item : Type} (isReplaced : Item → Bool) (replacing : Item) : List Item → Bool → List Item × Bool
  | [], isPreviewed => ([], isPreviewed)
  | item :: items, isPreviewed =>
    if !isReplaced item then
      ((item :: (retainRepointed isReplaced replacing items isPreviewed).1),
        (retainRepointed isReplaced replacing items isPreviewed).2)
    else if isPreviewed then retainRepointed isReplaced replacing items true
    else
      ((replacing :: (retainRepointed isReplaced replacing items true).1),
        (retainRepointed isReplaced replacing items true).2)

def repointSummaryMembers (isReplaced : NotificationId → Bool) (replacingEntry : NotificationEntry)
    (summaryMembers : SummaryMembers) (isPreviewed : Bool) : SummaryMembers × Bool :=
  retainRepointed (fun member => isReplaced member.1) (replacingEntry.notificationId, replacingEntry.severity)
    summaryMembers isPreviewed

def repointPreview (isReplaced : NotificationId → Bool) (replacingEntry : NotificationEntry) :
    ToastPreview → ToastPreview × Bool
  | .entry shownEntry =>
    if isReplaced shownEntry.notificationId then (.entry replacingEntry, true) else (.entry shownEntry, false)
  | .summary summaryMembers =>
    let (summaryMembers, isPreviewed) := repointSummaryMembers isReplaced replacingEntry summaryMembers false
    (.summary summaryMembers, isPreviewed)

def isReplacedId (replacedIds : List NotificationId) (replacingEntry : NotificationEntry)
    (notificationId : NotificationId) :
    Bool :=
  decide (notificationId = replacingEntry.notificationId) || decide (notificationId ∈ replacedIds)

def repointPreviews (replacedIds : List NotificationId) (replacingEntry : NotificationEntry) : NotificationToastQueue :=
  let isReplaced := isReplacedId replacedIds replacingEntry
  let shown := queue.shownToast.map fun shownToast => repointPreview isReplaced replacingEntry shownToast.preview
  let waiting := retainRepointed (fun waitingEntry => isReplaced waitingEntry.notificationId) replacingEntry
    queue.waitingEntries ((shown.map (·.2)).getD false)
  { queue with
    shownToast := queue.shownToast.map fun shownToast =>
      { shownToast with preview := (repointPreview isReplaced replacingEntry shownToast.preview).1 }
    waitingEntries := waiting.1
    waitingSummary :=
      (queue.waitingSummary.map fun summaryMembers =>
        (repointSummaryMembers isReplaced replacingEntry summaryMembers waiting.2).1).filter (· ≠ []) }

/-- Drops the entry's previews that wait. -/
def removeWaitingPreviews (notificationId : NotificationId) : NotificationToastQueue :=
  { queue with
    waitingEntries := queue.waitingEntries.filter fun waitingEntry => waitingEntry.notificationId ≠ notificationId
    waitingSummary := (queue.waitingSummary.map fun summaryMembers =>
      summaryMembers.filter fun member => member.1 ≠ notificationId).filter (· ≠ []) }

/-- Drops every preview of an entry the history no longer holds: a shown one withdraws fast, a shown summary that counts
nothing more goes at once. -/
def removePreviews (notificationId : NotificationId) : NotificationToastQueue :=
  let queue := queue.removeWaitingPreviews notificationId
  match queue.shownToast with
  | none => queue
  | some shownToast =>
    match shownToast.preview with
    | .entry shownEntry =>
      if shownEntry.notificationId = notificationId then
        { queue with shownToast := some { shownToast with withdrawRequest := some .fast } }
      else queue
    | .summary summaryMembers =>
      let summaryMembers := summaryMembers.filter fun member => member.1 ≠ notificationId
      if summaryMembers.isEmpty then queue.showNextPreview
      else { queue with shownToast := some { shownToast with preview := .summary summaryMembers } }

/-- The toast withdraws, or does so at the next advance of the clock. -/
def isWithdrawn (shownToast : ShownToast) : Bool :=
  shownToast.withdrawRequest.isSome || match shownToast.phase with
    | .withdraw _ _ => true
    | _ => false

/-- Withdraws the shown preview at the next advance of the clock. -/
def requestWithdraw : NotificationToastQueue :=
  { queue with
    shownToast := queue.shownToast.map fun shownToast =>
      if isWithdrawn shownToast then shownToast else { shownToast with withdrawRequest := some .normal } }

/-- Drops every preview at once. -/
def clearPreviews : NotificationToastQueue :=
  { queue with shownToast := none, waitingEntries := [], waitingSummary := none }

def hasWaitingPreview : Bool :=
  !queue.waitingEntries.isEmpty || queue.waitingSummary.isSome

/-! ### The clock -/

/-- The phase of the shown toast resumes where a pause stopped it. -/
def resume (currentTime : Nat) : NotificationToastQueue :=
  match queue.pausedAt with
  | none => queue
  | some pausedAt =>
    { queue with
      pausedAt := none
      shownToast := queue.shownToast.map fun shownToast =>
        { shownToast with phaseStartedAt := shownToast.phaseStartedAt.map (· + (currentTime - pausedAt)) } }

/-- A waiting preview counts as seen from the first advance with it. -/
def seeWaitingPreview (currentTime : Nat) : NotificationToastQueue :=
  { queue with
    waitingPreviewSeenAt := if queue.hasWaitingPreview then some (queue.waitingPreviewSeenAt.getD currentTime)
      else none }

inductive AdvanceTurn where
  /-- The phase goes on. -/
  | rests (shownToast : ShownToast)
  /-- Another phase starts. -/
  | moves (shownToast : ShownToast)
  /-- The next preview shows. -/
  | ends
  deriving DecidableEq, Repr

def turnShownToast (shownToast : ShownToast) (currentTime : Nat) (toastTiming : ToastTiming)
    (waitingPreviewSeenAt : Option Nat) : AdvanceTurn :=
  let phaseStartedAt := shownToast.phaseStartedAt.getD currentTime
  let shownToast := { shownToast with phaseStartedAt := some phaseStartedAt }
  let phaseEndedAt := computePhaseEndedAt shownToast.phase phaseStartedAt toastTiming waitingPreviewSeenAt
  let phaseDuration := phaseEndedAt - phaseStartedAt
  let hiddenPerMille := computeHiddenPerMille shownToast.phase (currentTime - phaseStartedAt) phaseDuration
  match shownToast.withdrawRequest with
  | some withdrawSpeed =>
    if hiddenPerMille = fullyHiddenPerMille then .ends
    else .moves { shownToast with
      withdrawRequest := none
      phase := .withdraw hiddenPerMille withdrawSpeed
      phaseStartedAt := some currentTime }
  | none =>
    if currentTime < phaseEndedAt then .rests { shownToast with hiddenPerMille }
    else
      match shownToast.phase with
      | .appear => .moves { shownToast with phaseStartedAt := some phaseEndedAt, phase := .stay }
      | .stay => .moves { shownToast with phaseStartedAt := some phaseEndedAt, phase := .withdraw 0 .normal }
      | .withdraw _ _ => .ends

/-- The phases a toast still runs. -/
def phaseRank : ToastPhase → Nat
  | .appear => 2
  | .stay => 1
  | .withdraw _ _ => 0

/-- What bounds the turns of the loop: the previews, and the phases the shown toast still runs. -/
def advanceMeasure : Nat :=
  5 * (queue.waitingEntries.length + queue.waitingSummary.toList.length) +
    (queue.shownToast.map fun shownToast =>
      1 + phaseRank shownToast.phase + shownToast.withdrawRequest.toList.length).getD 0

theorem advanceMeasure_showNextPreview_lt {queue : NotificationToastQueue} {shown : ShownToast}
    (h : queue.shownToast = some shown) : queue.showNextPreview.advanceMeasure < queue.advanceMeasure := by
  unfold showNextPreview
  split
  · rename_i waitingEntry waitingEntries hwaiting
    simp [advanceMeasure, showPreview, ShownToast.fromPreview, phaseRank, h, hwaiting]
    omega
  · rename_i hwaiting
    split
    · rename_i sums hsum
      simp [advanceMeasure, showPreview, ShownToast.fromPreview, phaseRank, h, hwaiting, hsum]
      omega
    · rename_i hsum
      simp [advanceMeasure, h, hwaiting, hsum]

theorem rank_lt_of_moves {shown moved : ShownToast} {currentTime : Nat} {toastTiming : ToastTiming}
    {waitingPreviewSeenAt : Option Nat}
    (h : turnShownToast shown currentTime toastTiming waitingPreviewSeenAt = .moves moved) :
    phaseRank moved.phase + moved.withdrawRequest.toList.length <
      phaseRank shown.phase + shown.withdrawRequest.toList.length := by
  unfold turnShownToast at h
  dsimp only at h
  split at h
  · rename_i withdrawSpeed hreq
    split at h
    · cases h
    · cases h
      simp [phaseRank, hreq]
  · rename_i hreq
    split at h
    · cases h
    · split at h
      · rename_i hp
        cases h
        simp [phaseRank, hp, hreq]
      · rename_i hp
        cases h
        simp [phaseRank, hp, hreq]
      · cases h

def advanceLoop (queue : NotificationToastQueue) (currentTime : Nat) (toastTiming : ToastTiming)
    (isPreviewChanged : Bool) : NotificationToastQueue × Bool :=
  match _hshown : queue.shownToast with
  | none => (queue.seeWaitingPreview currentTime, isPreviewChanged)
  | some shownToast =>
    match _hturn : turnShownToast shownToast currentTime toastTiming
      (queue.seeWaitingPreview currentTime).waitingPreviewSeenAt with
    | .rests rested => ({ queue.seeWaitingPreview currentTime with shownToast := some rested }, isPreviewChanged)
    | .moves moved =>
      advanceLoop { queue.seeWaitingPreview currentTime with shownToast := some moved } currentTime toastTiming
        isPreviewChanged
    | .ends => advanceLoop (queue.seeWaitingPreview currentTime).showNextPreview currentTime toastTiming true
termination_by queue.advanceMeasure
decreasing_by
  · have hrank := rank_lt_of_moves _hturn
    simp only [advanceMeasure, seeWaitingPreview, _hshown, Option.map_some, Option.getD_some]
    omega
  · exact @advanceMeasure_showNextPreview_lt (queue.seeWaitingPreview currentTime) _ _hshown

/-- Advances the clock, and tells whether the preview on screen changed. -/
def advance (currentTime : Nat) (toastTiming : ToastTiming) (isPaused : Bool) : NotificationToastQueue × Bool :=
  if isPaused then ({ queue with pausedAt := some (queue.pausedAt.getD currentTime) }, false)
  else (queue.resume currentTime).advanceLoop currentTime toastTiming false

end NotificationToastQueue

end Koshi.Client
