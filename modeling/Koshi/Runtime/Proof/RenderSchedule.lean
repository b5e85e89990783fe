import Koshi.Base.History
import Koshi.Runtime.RenderSchedule
import Mathlib.Tactic

/-!
# Frames are paced

The allowed time never goes back, and a frame that waits for it moves it by an interval at least. A frame time on the
grid is not before the deadline it is asked for, so the scan may end at a deadline that is no earlier than the best time
found.
-/

namespace Koshi.Runtime

open List Base Koshi.Core FramePace Option

theorem Instant.checkedAdd_eq {instant later : Instant} {duration : Nat}
    (h : instant.checkedAdd duration = some later) :
    later.nanoseconds = instant.nanoseconds + duration := by
  unfold Instant.checkedAdd at h
  split_ifs at h
  cases h
  rfl

namespace FramePace

variable {framePace : FramePace} {allowedAt sentAt nextAt : Instant}

/-- The allowed time after a frame: past the frame by an interval at most, and an interval past an allowed time that the
frame waited for. -/
theorem findNextAllowedTime_spec (hpace : 0 < framePace.frameInterval)
    (hn : framePace.findNextAllowedTime sentAt = some nextAt) :
    sentAt.nanoseconds < nextAt.nanoseconds ∧
      nextAt.nanoseconds ≤ sentAt.nanoseconds + framePace.frameInterval ∧
      ∀ allowedAt, framePace.nextFrameAllowedAt = some allowedAt →
        (allowedAt ≤ sentAt → allowedAt.nanoseconds + framePace.frameInterval ≤ nextAt.nanoseconds) ∧
        (allowedAt.nanoseconds ≤ sentAt.nanoseconds + framePace.frameInterval →
          allowedAt.nanoseconds ≤ nextAt.nanoseconds) := by
  unfold findNextAllowedTime at hn
  cases hallow : framePace.nextFrameAllowedAt with
  | none =>
    rw [hallow] at hn
    have heq := Instant.checkedAdd_eq hn
    exact ⟨by omega, by omega, nofun⟩
  | some allowedAt =>
    simp only [hallow] at hn
    simp only [some.injEq, forall_eq']
    split_ifs at hn with hwaited
    · replace hwaited : allowedAt.nanoseconds ≤ sentAt.nanoseconds := hwaited
      obtain ⟨stepEnd, hstep, hn⟩ := bind_eq_some_iff.1 hn
      have hstepEq := Instant.checkedAdd_eq hstep
      split_ifs at hn with hgrid
      · cases hn
        replace hgrid : sentAt.nanoseconds < nextAt.nanoseconds := hgrid
        exact ⟨hgrid, by omega, fun _ => by omega, fun _ => by omega⟩
      · replace hgrid : ¬ sentAt.nanoseconds < stepEnd.nanoseconds := hgrid
        have heq := Instant.checkedAdd_eq hn
        exact ⟨by omega, by omega, fun _ => by omega, fun _ => by omega⟩
    · replace hwaited : ¬ allowedAt.nanoseconds ≤ sentAt.nanoseconds := hwaited
      have heq := Instant.checkedAdd_eq hn
      exact ⟨by omega, by omega, fun h => absurd h hwaited, fun _ => by omega⟩

/-- A frame that does not wait has the allowance, is the first, or comes at its allowed time or later. -/
theorem allowed_of_wait {now : Instant} (hwait : framePace.computeFrameWait now = some 0)
    (himm : framePace.isNextFrameImmediate = false) (hallow : framePace.nextFrameAllowedAt = some allowedAt) :
    allowedAt ≤ now := by
  simp only [computeFrameWait, himm, hallow, elim_some, Bool.false_eq_true, if_false] at hwait
  split_ifs at hwait
  exact Nat.sub_eq_zero_iff_le.1 (some.inj hwait)

/-- On the grid the first step count that is not before the asked time is taken, where it fits. -/
theorem findGridFrameTime_step (hpace : 0 < framePace.frameInterval) (himm : framePace.isNextFrameImmediate = false)
    (hallow : framePace.nextFrameAllowedAt = some allowedAt) (soonest : Instant) :
    ∃ stepCount, IsLeast {count | soonest.nanoseconds ≤ allowedAt.nanoseconds + count * framePace.frameInterval}
        stepCount ∧
      if stepCount * framePace.frameInterval ≤ u64Max ∧
          allowedAt.nanoseconds + stepCount * framePace.frameInterval < 2 ^ 63 * 1000000000 then
        (framePace.findGridFrameTime soonest).nanoseconds = allowedAt.nanoseconds + stepCount * framePace.frameInterval
      else framePace.findGridFrameTime soonest = soonest := by
  have hrng := allowedAt.inRange
  simp only [findGridFrameTime, himm, hallow, Bool.false_eq_true, if_false]
  split_ifs with hearly
  · refine ⟨0, ⟨?_, fun _ _ => Nat.zero_le _⟩, ?_⟩
    · rw [Set.mem_ofPred_eq, Nat.zero_mul]
      exact hearly
    · rw [Nat.zero_mul, if_pos ⟨Nat.zero_le _, hrng⟩]
      rfl
  · replace hearly : ¬ soonest.nanoseconds ≤ allowedAt.nanoseconds := hearly
    refine ⟨(soonest.nanoseconds - allowedAt.nanoseconds + framePace.frameInterval - 1) / framePace.frameInterval,
      ⟨?_, fun count hc => ?_⟩, ?_⟩
    · have hceil := Nat.lt_div_mul_add
        (a := soonest.nanoseconds - allowedAt.nanoseconds + framePace.frameInterval - 1) hpace
      change soonest.nanoseconds ≤ _
      omega
    · replace hc : soonest.nanoseconds ≤ allowedAt.nanoseconds + count * framePace.frameInterval := hc
      refine Nat.le_of_lt_succ ((Nat.div_lt_iff_lt_mul hpace).2 ?_)
      rw [Nat.succ_mul]
      omega
    · generalize (soonest.nanoseconds - allowedAt.nanoseconds + framePace.frameInterval - 1) /
        framePace.frameInterval * framePace.frameInterval = gridStep
      by_cases hft : gridStep ≤ u64Max
      · have hcast : (checkedCast u64Max gridStep).bind allowedAt.checkedAdd = allowedAt.checkedAdd gridStep := by
          rw [checkedCast_of_le hft]
          rfl
        simp only [hcast, Instant.checkedAdd, hft, true_and]
        split_ifs <;> rfl
      · simp only [checkedCast, hft, false_and, if_false]
        rfl

theorem le_findGridFrameTime (hpace : 0 < framePace.frameInterval) (soonest : Instant) :
    soonest ≤ framePace.findGridFrameTime soonest := by
  cases himm : framePace.isNextFrameImmediate with
  | true => exact le_of_eq (by simp [findGridFrameTime, himm])
  | false =>
    cases hallow : framePace.nextFrameAllowedAt with
    | none => exact le_of_eq (by simp [findGridFrameTime, himm, hallow])
    | some allowedAt =>
      obtain ⟨stepCount, hleast, hstep⟩ := findGridFrameTime_step hpace himm hallow soonest
      split_ifs at hstep
      · exact (hleast.1.trans_eq hstep.symm : soonest.nanoseconds ≤ _)
      · exact hstep.ge

end FramePace

/-! ### The rate of frames -/

namespace FramePaceRun

/-- The frame waited for the grid, and went from `since` on. -/
def IsPacedFrom (since : Nat) (frame : SentFrame) : Bool := !frame.isImmediate && since ≤ frame.sentAt.nanoseconds

structure Paced (frameInterval since spanLen : Nat) (run : FramePaceRun) : Prop where
  interval : run.framePace.frameInterval = frameInterval
  allowed : ∀ allowedAt, run.framePace.nextFrameAllowedAt = some allowedAt →
    allowedAt.nanoseconds ≤ run.currentTime.nanoseconds + frameInterval
  later : ∀ count, run.sentFrames.countP (IsPacedFrom since) = count + 1 →
    ∃ allowedAt, run.framePace.nextFrameAllowedAt = some allowedAt ∧
      since + count * frameInterval < allowedAt.nanoseconds
  rate : run.sentFrames.countP (fun frame => IsPacedFrom since frame &&
    frame.sentAt.nanoseconds ≤ since + spanLen) ≤ (spanLen + frameInterval - 1) / frameInterval + 1

variable {frameInterval since spanLen : Nat} {run nextRun : FramePaceRun} {time : Instant}

theorem Paced.start (startAt : Instant) : Paced frameInterval since spanLen (.start frameInterval startAt) where
  interval := rfl
  allowed := nofun
  later := nofun
  rate := Nat.zero_le _

section

variable (h : Paced frameInterval since spanLen run)

include h

theorem Paced.record (hpace : 0 < frameInterval) (htime : run.currentTime ≤ time)
    (hwait : run.framePace.computeFrameWait time = some 0) {framePace : FramePace}
    (hrec : run.framePace.recordFrameSent time = some framePace) :
    Paced frameInterval since spanLen
      ⟨framePace, time, run.sentFrames ++ [⟨time, run.framePace.isNextFrameImmediate⟩]⟩ := by
  obtain ⟨nextAt, hn, rfl⟩ := map_eq_some_iff.1 hrec
  obtain ⟨haf, hw, hgrows⟩ := findNextAllowedTime_spec (h.interval ▸ hpace) hn
  rw [h.interval] at hw hgrows
  replace htime : run.currentTime.nanoseconds ≤ time.nanoseconds := htime
  have hk : ∀ allowedAt, run.framePace.nextFrameAllowedAt = some allowedAt →
      allowedAt.nanoseconds ≤ nextAt.nanoseconds := by
    intro allowedAt hallow
    have hle := h.allowed allowedAt hallow
    exact (hgrows allowedAt hallow).2 (by omega)
  -- a paced frame waits for the allowed time, which the frames before it moved
  have hpaced : IsPacedFrom since ⟨time, run.framePace.isNextFrameImmediate⟩ = true →
      since ≤ time.nanoseconds ∧ ∀ count, run.sentFrames.countP (IsPacedFrom since) = count + 1 →
        since + count * frameInterval < time.nanoseconds ∧
          since + (count + 1) * frameInterval < nextAt.nanoseconds := by
    intro hfrm
    simp only [IsPacedFrom, Bool.and_eq_true, Bool.not_eq_true', decide_eq_true_eq] at hfrm
    refine ⟨hfrm.2, fun count hc => ?_⟩
    obtain ⟨allowedAt, hallow, hlr⟩ := h.later count hc
    have hwaited := allowed_of_wait hwait hfrm.1 hallow
    have hstep := (hgrows allowedAt hallow).1 hwaited
    replace hwaited : allowedAt.nanoseconds ≤ time.nanoseconds := hwaited
    rw [Nat.succ_mul]
    omega
  refine ⟨h.interval, fun allowedAt hallow => ?_, fun count hc => ⟨nextAt, rfl, ?_⟩, ?_⟩
  · cases hallow
    exact hw
  · rw [countP_append, countP_singleton] at hc
    split_ifs at hc with hfrm
    · obtain ⟨hspan, hb⟩ := hpaced hfrm
      cases count with
      | zero => omega
      | succ count => exact (hb count (by omega)).2
    · obtain ⟨allowedAt, hallow, hlr⟩ := h.later count hc
      exact hlr.trans_le (hk allowedAt hallow)
  · rw [countP_append, countP_singleton]
    split_ifs with hfrm
    · rw [Bool.and_eq_true, decide_eq_true_eq] at hfrm
      obtain ⟨hspan, hb⟩ := hpaced hfrm.1
      have hle : run.sentFrames.countP (fun fr => IsPacedFrom since fr &&
          fr.sentAt.nanoseconds ≤ since + spanLen) ≤ run.sentFrames.countP (IsPacedFrom since) :=
        countP_mono_left fun fr _ hboth => (Bool.and_eq_true_iff.1 hboth).1
      refine Nat.succ_le_succ (hle.trans ?_)
      cases hc : run.sentFrames.countP (IsPacedFrom since) with
      | zero => exact Nat.zero_le _
      | succ count =>
        have hlr := (hb count hc).1
        refine (Nat.le_div_iff_mul_le hpace).2 ?_
        rw [Nat.succ_mul]
        have := hfrm.2
        dsimp only at this
        omega
    · exact h.rate

theorem Paced.step (hpace : 0 < frameInterval) {op : FramePaceOperation} (hstep : run.step op time = some nextRun) :
    Paced frameInterval since spanLen nextRun := by
  unfold FramePaceRun.step at hstep
  rcases lt_or_ge time run.currentTime with htime | hle
  · rw [if_pos htime] at hstep
    cases hstep
  rw [if_neg (not_lt.2 hle)] at hstep
  -- an operation that records no frame leaves the grid alone
  have hk : ∀ framePace : FramePace, framePace.frameInterval = run.framePace.frameInterval →
      framePace.nextFrameAllowedAt = run.framePace.nextFrameAllowedAt →
      Paced frameInterval since spanLen { run with framePace, currentTime := time } := by
    intro framePace hs hallow
    refine ⟨hs.trans h.interval, fun allowedAt ho => ?_, fun count hc => ?_, h.rate⟩
    · exact (h.allowed allowedAt (hallow.symm.trans ho)).trans (Nat.add_le_add_right hle _)
    · rw [hallow]
      exact h.later count hc
  cases op with
  | markViewChanged => cases hstep; exact hk _ rfl rfl
  | allowNextFrameNow => cases hstep; exact hk _ rfl rfl
  | clearViewChange => cases hstep; exact hk _ rfl rfl
  | recordFrameSent =>
    dsimp only at hstep
    split_ifs at hstep with hwait
    obtain ⟨framePace, hrec, rfl⟩ := map_eq_some_iff.1 hstep
    exact h.record hpace hle hwait hrec

theorem Paced.steps (hpace : 0 < frameInterval) {ops : List (FramePaceOperation × Instant)}
    (hsteps : run.steps ops = some nextRun) :
    Paced frameInterval since spanLen nextRun :=
  foldlM_invariant (Paced frameInterval since spanLen) (fun h hstep => h.step hpace hstep) h hsteps

end

end FramePaceRun

/-! ### The scan of the deadlines -/

section

variable {canTake : Nat → Bool} {isShown : ClientId → PaneId → Bool} {subscriptions : List FrameSubscription}
  {now : Instant}

theorem le_of_mem_gridWakeups (hintervals : ∀ subscription ∈ subscriptions, 0 < subscription.framePace.frameInterval)
    {deadline : Instant × PaneId} {wakeupAt : Instant}
    (hm : wakeupAt ∈ listGridWakeups canTake isShown subscriptions now deadline) :
    deadline.1 ≤ wakeupAt := by
  obtain ⟨subscription, hsub, rfl⟩ := mem_map.1 hm
  exact (le_max_left _ _).trans (le_findGridFrameTime (hintervals subscription (mem_filter.1 hsub).1) _)

theorem min?_toList_append : ∀ (best : Option Instant) (wakeups rest : List Instant),
    (best.toList ++ (wakeups ++ rest)).min? = ((best.toList ++ wakeups).min?.toList ++ rest).min?
  | none, [], _ | some _, [], _ => rfl
  | none, _ :: _, _ => congrArg some foldl_append
  | some earliest, fst :: wakeups, rest => congrArg some (@foldl_append _ _ min earliest (fst :: wakeups) rest)

theorem min?_toList_wakeups (best : Option Instant) (wakeups : List Instant) :
    (best.toList ++ wakeups).min? =
      wakeups.min?.elim best fun wakeupAt => if best.all (wakeupAt < ·) then some wakeupAt else best := by
  cases best with
  | none => cases wakeups <;> rfl
  | some earliest =>
    rw [toList_some, singleton_append, min?_cons]
    cases wakeups.min? with
    | none => rfl
    | some wakeupAt =>
      simp only [elim_some, all_some, decide_eq_true_eq]
      split_ifs with her
      · rw [min_eq_right her.le]
      · rw [min_eq_left (not_lt.1 her)]

theorem scanRenderDeadlines_eq (hintervals : ∀ subscription ∈ subscriptions, 0 < subscription.framePace.frameInterval)
    (best : Option Instant) {deadlines : List (Instant × PaneId)}
    (hsrt : deadlines.Pairwise fun earlier later => earlier.1 ≤ later.1) :
    scanRenderDeadlines canTake isShown subscriptions now best deadlines =
      (best.toList ++ deadlines.flatMap (listGridWakeups canTake isShown subscriptions now)).min? := by
  induction deadlines generalizing best with
  | nil => cases best <;> rfl
  | cons deadline rest ih =>
    obtain ⟨hf, hr⟩ := pairwise_cons.1 hsrt
    rw [scanRenderDeadlines]
    split_ifs with hends
    · -- no deadline left gives an earlier time
      obtain ⟨earliest, rfl, hle⟩ := (any_eq_true _ _).1 hends
      rw [toList_some, singleton_append, min?_cons]
      cases hmin : ((deadline :: rest).flatMap (listGridWakeups canTake isShown subscriptions now)).min? with
      | none => rfl
      | some wakeupAt =>
        obtain ⟨other, ho, hwakeup⟩ := mem_flatMap.1 (min?_mem hmin)
        have hdue : deadline.1 ≤ other.1 := by
          rcases mem_cons.1 ho with rfl | ho
          · exact le_rfl
          · exact hf other ho
        have hlr := hdue.trans (le_of_mem_gridWakeups hintervals hwakeup)
        exact congrArg some (min_eq_left ((of_decide_eq_true hle).trans hlr)).symm
    · rw [flatMap_cons, min?_toList_append,
        min?_toList_wakeups best (listGridWakeups canTake isShown subscriptions now deadline)]
      cases (listGridWakeups canTake isShown subscriptions now deadline).min? with
      | none => exact ih best hr
      | some wakeupAt => exact ih _ hr

end

/-! ### Frame pacing -/

/-- **Frames are paced**: a span holds at most its length in intervals, rounded up, plus one frames without the
allowance; a grid time is the first step of the grid from the asked time on, unless no grid applies or the step does not
fit; and the scan gives the minimum over all panes and all subscribers that can take a frame and show the pane. -/
theorem framePace_limits (frameInterval : Nat) (hpace : 0 < frameInterval) :
    (∀ startedAt operations run, (FramePaceRun.start frameInterval startedAt).steps operations = some run →
      ∀ since spanLen, run.sentFrames.countP (fun frame => FramePaceRun.IsPacedFrom since frame &&
        frame.sentAt.nanoseconds ≤ since + spanLen) ≤ (spanLen + frameInterval - 1) / frameInterval + 1) ∧
    (∀ framePace : FramePace, framePace.frameInterval = frameInterval → ∀ soonest,
      (framePace.isNextFrameImmediate = true ∨ framePace.nextFrameAllowedAt = none →
        framePace.findGridFrameTime soonest = soonest) ∧
      ∀ allowedAt, framePace.isNextFrameImmediate = false → framePace.nextFrameAllowedAt = some allowedAt →
        ∃ stepCount, IsLeast {count | soonest.nanoseconds ≤ allowedAt.nanoseconds + count * frameInterval} stepCount ∧
          if stepCount * frameInterval ≤ u64Max ∧
              allowedAt.nanoseconds + stepCount * frameInterval < 2 ^ 63 * 1000000000 then
            (framePace.findGridFrameTime soonest).nanoseconds = allowedAt.nanoseconds + stepCount * frameInterval
          else framePace.findGridFrameTime soonest = soonest) ∧
    ∀ canTake isShown subscriptions now paneDeadlines,
      (∀ frameSubscription ∈ subscriptions, 0 < frameSubscription.framePace.frameInterval) →
      findShownAnimationWakeupAt canTake isShown subscriptions now paneDeadlines =
        (paneDeadlines.listRenderDeadlines.flatMap (listGridWakeups canTake isShown subscriptions now)).min? := by
  refine ⟨fun startedAt operations run hsteps since spanLen => ?_, fun framePace hsame soonest => ⟨?_, ?_⟩, ?_⟩
  · exact ((FramePaceRun.Paced.start startedAt).steps hpace hsteps).rate
  · rintro (himm | hfirst)
    · simp [findGridFrameTime, himm]
    · simp [findGridFrameTime, hfirst]
  · intro allowedAt himm hallowed
    subst hsame
    exact findGridFrameTime_step hpace himm hallowed soonest
  · intro canTake isShown subscriptions now paneDeadlines hintervals
    exact scanRenderDeadlines_eq hintervals none paneDeadlines.isSorted

/-- A late frame, and one on the grid soon after it: three frames in a span of two intervals. -/
theorem framePace_limits_late :
    let operations : List (FramePaceOperation × Instant) := [(.recordFrameSent, ⟨0, by decide⟩),
      (.markViewChanged, ⟨12, by decide⟩), (.recordFrameSent, ⟨16, by decide⟩),
      (.markViewChanged, ⟨20, by decide⟩), (.recordFrameSent, ⟨20, by decide⟩)]
    ∃ run, (FramePaceRun.start 10 ⟨0, by decide⟩).steps operations = some run ∧
      run.sentFrames.map (·.sentAt.nanoseconds) = [0, 16, 20] ∧
      run.sentFrames.countP (fun frame => FramePaceRun.IsPacedFrom 0 frame && frame.sentAt.nanoseconds ≤ 0 + 20) ≤
        (20 + 10 - 1) / 10 + 1 := by
  intro operations
  exact ⟨_, rfl, rfl, (framePace_limits 10 (by decide)).1 ⟨0, by decide⟩ operations _ rfl 0 20⟩

/-- With steps that do not fit 64 bits the grid time is the asked one, which is off the grid. -/
theorem gridFrameTime_off_grid :
    ¬ ∃ stepCount : Nat, (findGridFrameTime ⟨2 ^ 64, some ⟨0, by decide⟩, true, false⟩ ⟨1, by decide⟩).nanoseconds =
      0 + stepCount * 2 ^ 64 := by
  have heq : (findGridFrameTime ⟨2 ^ 64, some ⟨0, by decide⟩, true, false⟩ ⟨1, by decide⟩).nanoseconds = 1 := by
    decide
  rintro ⟨stepCount, hstep⟩
  omega

end Koshi.Runtime
