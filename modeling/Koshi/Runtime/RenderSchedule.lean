import Koshi.Base.Checked
import Koshi.Core.Ids
import Koshi.Runtime.PaintWindow
import Mathlib.Order.Basic

/-!
# Render schedule

The pacing of a client's frames and the wakeup for the next animation frame
(`koshi-runtime/src/runtime/render_schedule.rs`, `runtime/driver.rs`). Durations are nanoseconds, and `none` is an
instant past the end of the clock, where the source panics.
-/

namespace Koshi.Runtime

open Base Koshi.Core

instance : LinearOrder Instant :=
  LinearOrder.lift' Instant.nanoseconds fun first second h => by cases first; cases second; cases h; rfl

def Instant.checkedAdd (instant : Instant) (duration : Nat) : Option Instant :=
  if inRange : instant.nanoseconds + duration < 2 ^ 63 * 1000000000 then some ⟨instant.nanoseconds + duration, inRange⟩
  else none

structure FramePace where
  frameInterval : Nat
  nextFrameAllowedAt : Option Instant
  hasViewChange : Bool
  isNextFrameImmediate : Bool
  deriving DecidableEq

namespace FramePace

def withFrameInterval (frameInterval : Nat) : FramePace := ⟨frameInterval, none, true, false⟩

variable (framePace : FramePace)

def markViewChanged : FramePace := { framePace with hasViewChange := true }

def allowNextFrameNow : FramePace := { framePace with isNextFrameImmediate := true }

def clearViewChange : FramePace := { framePace with hasViewChange := false }

def computeFrameWait (currentTime : Instant) : Option Nat :=
  if framePace.hasViewChange = false then none
  else if framePace.isNextFrameImmediate then some 0
  else some (framePace.nextFrameAllowedAt.elim 0 (·.saturatingDurationSince currentTime))

/-- The first time of the grid from `earliestTime` on, or `earliestTime` where there is none. -/
def findGridFrameTime (earliestTime : Instant) : Instant :=
  if framePace.isNextFrameImmediate then earliestTime
  else
    match framePace.nextFrameAllowedAt with
    | none => earliestTime
    | some nextFrameAllowedAt =>
      if earliestTime ≤ nextFrameAllowedAt then nextFrameAllowedAt
      else
        let lateNanoseconds := earliestTime.nanoseconds - nextFrameAllowedAt.nanoseconds
        let gridStepCount := (lateNanoseconds + framePace.frameInterval - 1) / framePace.frameInterval
        ((checkedCast u64Max (gridStepCount * framePace.frameInterval)).bind nextFrameAllowedAt.checkedAdd).getD
          earliestTime

/-- A frame in the interval after its allowed time keeps the grid, any other starts it. -/
def findNextAllowedTime (sentAt : Instant) : Option Instant :=
  match framePace.nextFrameAllowedAt with
  | none => sentAt.checkedAdd framePace.frameInterval
  | some allowedAt =>
    if allowedAt ≤ sentAt then do
      let stepEnd ← allowedAt.checkedAdd framePace.frameInterval
      if sentAt < stepEnd then some stepEnd else sentAt.checkedAdd framePace.frameInterval
    else sentAt.checkedAdd framePace.frameInterval

def recordFrameSent (sentAt : Instant) : Option FramePace :=
  (framePace.findNextAllowedTime sentAt).map fun nextFrameAllowedAt =>
    ⟨framePace.frameInterval, some nextFrameAllowedAt, false, false⟩

end FramePace

/-! ### Runs of a pace -/

inductive FramePaceOperation where
  | markViewChanged
  | allowNextFrameNow
  | clearViewChange
  | recordFrameSent
  deriving DecidableEq

structure SentFrame where
  sentAt : Instant
  isImmediate : Bool

/-- A pace, the time of its last operation, and the frames recorded so far. -/
structure FramePaceRun where
  framePace : FramePace
  currentTime : Instant
  sentFrames : List SentFrame

namespace FramePaceRun

def start (frameInterval : Nat) (startedAt : Instant) :
    FramePaceRun := ⟨.withFrameInterval frameInterval, startedAt, []⟩

/-- One operation, no earlier than the last one. A frame is recorded only where none has to wait. -/
def step (run : FramePaceRun) (operation : FramePaceOperation) (time : Instant) : Option FramePaceRun :=
  if time < run.currentTime then none
  else
    match operation with
    | .markViewChanged => some { run with framePace := run.framePace.markViewChanged, currentTime := time }
    | .allowNextFrameNow => some { run with framePace := run.framePace.allowNextFrameNow, currentTime := time }
    | .clearViewChange => some { run with framePace := run.framePace.clearViewChange, currentTime := time }
    | .recordFrameSent =>
      if run.framePace.computeFrameWait time = some 0 then
        (run.framePace.recordFrameSent time).map fun framePace =>
          ⟨framePace, time, run.sentFrames ++ [⟨time, run.framePace.isNextFrameImmediate⟩]⟩
      else none

def steps (run : FramePaceRun) (operations : List (FramePaceOperation × Instant)) : Option FramePaceRun :=
  operations.foldlM (fun run operation => run.step operation.1 operation.2) run

end FramePaceRun

/-! ### The next animation wakeup -/

/-- The panes' deadlines, earliest first. -/
structure PaneRenderDeadlines where
  listRenderDeadlines : List (Instant × PaneId)
  isSorted : listRenderDeadlines.Pairwise fun earlier later => earlier.1 ≤ later.1

structure FrameSubscription where
  subscriberId : Nat
  clientId : ClientId
  framePace : FramePace

section

variable (canTakeFrame : Nat → Bool) (isPaneShownToClient : ClientId → PaneId → Bool)
  (subscriptions : List FrameSubscription) (currentTime : Instant)

/-- When a frame of a pane with this deadline can go to each subscriber that can take one and shows the pane. -/
def listGridWakeups (renderDeadline : Instant × PaneId) : List Instant :=
  (subscriptions.filter fun frameSubscription =>
    canTakeFrame frameSubscription.subscriberId && isPaneShownToClient frameSubscription.clientId renderDeadline.2).map
      (·.framePace.findGridFrameTime (max renderDeadline.1 currentTime))

/-- The scan of the deadlines, which ends at the first that is not before the best time found. -/
def scanRenderDeadlines (earliestWakeupAt : Option Instant) : List (Instant × PaneId) → Option Instant
  | [] => earliestWakeupAt
  | renderDeadline :: rest =>
    if earliestWakeupAt.any (· ≤ renderDeadline.1) then earliestWakeupAt
    else
      match (listGridWakeups canTakeFrame isPaneShownToClient subscriptions currentTime renderDeadline).min? with
      | none => scanRenderDeadlines earliestWakeupAt rest
      | some wakeupAt =>
        scanRenderDeadlines (if earliestWakeupAt.all (wakeupAt < ·) then some wakeupAt else earliestWakeupAt) rest

def findShownAnimationWakeupAt (paneAnimationDeadlines : PaneRenderDeadlines) : Option Instant :=
  scanRenderDeadlines canTakeFrame isPaneShownToClient subscriptions currentTime none
    paneAnimationDeadlines.listRenderDeadlines

end

end Koshi.Runtime
