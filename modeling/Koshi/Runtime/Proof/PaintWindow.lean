import Mathlib.Tactic
import Koshi.Runtime.PaintWindow

/-!
# The paint window over a run

A run records, beside the window, the updates sent, the reports accepted, and the measurements since the last change.
The flight is the sent updates above every accepted report, the batch is the summary of the measurements since the last
change, and round trips are long enough and short enough that no operation overflows or divides by zero.
-/

namespace Koshi.Runtime

open List Option PaintWindow Duration

/-! ### Arithmetic in range -/

theorem checked_of_lt {bound value : Nat} (h : value < bound) : checked bound value = some value := if_pos h

/-- A round trip the code measures: at least a millisecond, and at most the range of the clock. -/
def IsRoundTrip (roundTrip : Nat) : Prop := minimumRoundTripDuration ≤ roundTrip ∧ roundTrip < 2 ^ 63 * 1000000000

theorem measureRoundTrip_isRoundTrip (report : PaintedUpdateReport) (painted : InFlightUpdate) :
    IsRoundTrip (measureRoundTrip report painted) := by
  have hreported := report.reportedAt.inRange
  constructor
  · exact le_max_right _ _
  · unfold measureRoundTrip Instant.saturatingDurationSince
    apply max_lt
    · omega
    · decide

theorem scaleByteCount_isSome {byteCount : Nat} {numerator divisor : Nat} (hby : byteCount ≤ maximumWindowByteCount)
    (hnumerator : numerator < 2 ^ 63 * 1000000000) (hdenominator : minimumRoundTripDuration ≤ divisor) :
    ∃ scaled, scaleByteCount byteCount numerator divisor = some scaled ∧
      scaled ≤ byteCount * asMicros numerator / asMicros divisor := by
  have hmicros : asMicros numerator < 2 ^ 63 * 1000000 := by
    unfold asMicros
    omega
  have hprod : byteCount * asMicros numerator < 2 ^ 128 := by
    calc byteCount * asMicros numerator ≤ maximumWindowByteCount * (2 ^ 63 * 1000000) := Nat.mul_le_mul hby hmicros.le
      _ < 2 ^ 128 := by decide
  have hpos : asMicros divisor ≠ 0 := by
    unfold minimumRoundTripDuration fromMillis at hdenominator
    unfold asMicros
    omega
  refine ⟨_, ?_, min_le_left _ (2 ^ 64 - 1)⟩
  simp only [scaleByteCount, checked_of_lt hprod, checkedDiv, if_neg hpos, bind_eq_bind, bind_some]

def PaintWindow.withSize (paint : PaintWindow) (windowByteCount : Nat) (isDoubling : Bool) : PaintWindow :=
  { paint with windowByteCount, isDoubling }

namespace PaintWindow

variable {paint : PaintWindow} (baseRoundTrip : Nat) {sample : Nat}

section

variable (hlimits : paint.windowByteCount ≤ maximumWindowByteCount)

include hlimits

theorem scaleWindow_of_lt {baseRoundTrip : Nat} (htimed : IsRoundTrip sample) (hlt : baseRoundTrip < sample) :
    ∃ size, paint.scaleWindow baseRoundTrip sample =
        some (paint.withSize size false) ∧ size ≤ maximumWindowByteCount := by
  obtain ⟨scaled, hscaled, hbo⟩ := scaleByteCount_isSome hlimits (hlt.trans htimed.2) htimed.1
  refine ⟨scaled, ?_, hbo.trans (le_trans ?_ hlimits)⟩
  · rw [scaleWindow, hscaled]
    rfl
  · have hmicros : asMicros baseRoundTrip ≤ asMicros sample := Nat.div_le_div_right hlt.le
    apply Nat.div_le_of_le_mul
    rw [mul_comm]
    exact Nat.mul_le_mul_right _ hmicros

theorem changeForSpike_resizes (htimed : IsRoundTrip sample) :
    ∃ size isDoubling, paint.changeForSpike baseRoundTrip sample =
        some (paint.withSize size isDoubling) ∧ size ≤ maximumWindowByteCount := by
  unfold changeForSpike
  split_ifs with hspike
  · have hlt : baseRoundTrip < sample := by omega
    obtain ⟨size, hscaled, hle⟩ := scaleWindow_of_lt hlimits htimed hlt
    exact ⟨size, false, hscaled, hle⟩
  · exact ⟨_, _, rfl, hlimits⟩

theorem changeDoubling_resizes (htimed : IsRoundTrip sample) (filled : Option Nat) :
    ∃ size isDoubling, paint.changeDoubling baseRoundTrip sample filled = some (paint.withSize size isDoubling) := by
  unfold changeDoubling
  split_ifs with hexcess
  · have hlt : baseRoundTrip < sample := by omega
    obtain ⟨size, hscaled, -⟩ := scaleWindow_of_lt hlimits htimed hlt
    exact ⟨size, false, hscaled⟩
  · exact ⟨_, _, rfl⟩
  · exact ⟨_, _, rfl⟩

theorem growWindow_of_le {byteCount : Nat} (hstep : byteCount ≤ 2 * maximumWindowStepByteCount) :
    paint.growWindow byteCount = some (paint.withSize (paint.windowByteCount + byteCount) paint.isDoubling) := by
  have hlt : paint.windowByteCount + byteCount < 2 ^ 64 := by
    unfold maximumWindowByteCount at hlimits
    unfold maximumWindowStepByteCount at hstep
    omega
  rw [growWindow, checked_of_lt hlt]
  rfl

theorem changeBySteps_resizes (htimed : IsRoundTrip sample) (filled : Option Nat) :
    ∃ size isDoubling, paint.changeBySteps baseRoundTrip sample filled = some (paint.withSize size isDoubling) := by
  have hdur : windowStepDuration < 2 ^ 63 * 1000000000 := by decide
  obtain ⟨scaled, hscaled, -⟩ := scaleByteCount_isSome hlimits hdur htimed.1
  have hstep : min scaled maximumWindowStepByteCount ≤ maximumWindowStepByteCount := min_le_right _ _
  unfold changeBySteps
  rw [hscaled, bind_eq_bind, bind_some]
  dsimp only
  split_ifs
  · exact ⟨_, _, rfl⟩
  · have hlt : 2 * min scaled maximumWindowStepByteCount < 2 ^ 64 := by
      unfold maximumWindowStepByteCount at hstep ⊢
      omega
    rw [checked_of_lt hlt, bind_some, growWindow_of_le hlimits (by omega)]
    exact ⟨_, _, rfl⟩
  · rw [growWindow_of_le hlimits (by omega)]
    exact ⟨_, _, rfl⟩
  · exact ⟨_, _, rfl⟩

/-- **A change keeps the window within its limits**, with no overflow and no zero divisor, and touches nothing else. -/
theorem changeWindow_inLimits (htimed : IsRoundTrip sample) (filled : Option Nat) :
    ∃ size isDoubling, paint.changeWindow baseRoundTrip sample filled = some (paint.withSize size isDoubling) ∧
      minimumWindowByteCount ≤ size ∧ size ≤ maximumWindowByteCount := by
  obtain ⟨spikedByteCount, spikedDoubling, hspike, hspiked⟩ :=
    changeForSpike_resizes baseRoundTrip hlimits htimed
  have hspikedLimits : (paint.withSize spikedByteCount spikedDoubling).windowByteCount ≤ maximumWindowByteCount :=
    hspiked
  have hclamp (size : Nat) : minimumWindowByteCount ≤ max minimumWindowByteCount (min size maximumWindowByteCount) ∧
      max minimumWindowByteCount (min size maximumWindowByteCount) ≤ maximumWindowByteCount :=
    ⟨le_max_left _ _, max_le (by decide) (min_le_right _ _)⟩
  unfold changeWindow
  rw [hspike, bind_eq_bind, bind_some]
  split_ifs
  · obtain ⟨size, isDoubling, hchg⟩ :=
      changeDoubling_resizes baseRoundTrip hspikedLimits htimed filled
    rw [hchg]
    exact ⟨_, isDoubling, rfl, hclamp size⟩
  · obtain ⟨size, isDoubling, hchg⟩ :=
      changeBySteps_resizes baseRoundTrip hspikedLimits htimed filled
    rw [hchg]
    exact ⟨_, isDoubling, rfl, hclamp size⟩

end

end PaintWindow

/-! ### Runs -/

structure Measurement where
  update : InFlightUpdate
  roundTrip : Nat

def summarize (batch : List Measurement) : MeasurementBatch where
  measurementCount := batch.length
  lowestRoundTrip := (batch.map (·.roundTrip)).min?
  lowestFilledRoundTrip := ((batch.filter (·.update.isWindowFilled)).map (·.roundTrip)).min?

/-- A window with the history of its connection. -/
structure PaintRun where
  window : PaintWindow
  /-- Every update recorded as sent, oldest first. -/
  sentUpdates : List InFlightUpdate
  /-- The numbers of the reports that were not refused. -/
  acceptedReports : List Nat
  /-- How many updates had been sent when the window last changed. -/
  sentCountAtChange : Nat
  /-- The measurements of updates sent after the last change, since that change or a later start over. -/
  batch : List Measurement

/-- What the writing thread does with the window. -/
inductive PaintOperation where
  | send (updateSequence written endBytePosition : Nat) (startedAt sentAt : Instant)
  | report (paintedUpdateReport : PaintedUpdateReport)

namespace PaintRun

/-- A connection that has sent nothing. -/
def new : PaintRun := ⟨.new, [], [], 0, []⟩

/-- An update is sent only where the window allows it, under a new number (the first is at least 1), after everything
written before it. A report comes at any time with any number. -/
def Allows (run : PaintRun) : PaintOperation → Prop
  | .send updateSequence written endBytePosition _ _ =>
    run.window.canSendUpdate written = true ∧ 0 < updateSequence ∧ written ≤ endBytePosition ∧
      ∀ sent ∈ run.sentUpdates, sent.updateSequence < updateSequence ∧ sent.endBytePosition ≤ written
  | .report _ => True

/-- The update a report measures: the last one in flight that it covers. -/
def findPaintedUpdate (run : PaintRun) (paintedUpdateReport : PaintedUpdateReport) : Option InFlightUpdate :=
  (run.window.inFlightUpdates.filter fun update => update.updateSequence ≤ paintedUpdateReport.updateSequence).getLast?

def batchAfter (run : PaintRun) (paintedUpdateReport : PaintedUpdateReport) : List Measurement :=
  match run.findPaintedUpdate paintedUpdateReport with
  | none => run.batch
  | some painted =>
    if painted ∈ run.sentUpdates.drop run.sentCountAtChange then
      run.batch ++ [⟨painted, measureRoundTrip paintedUpdateReport painted⟩]
    else run.batch

/-- The history after an accepted report: a batch of three is a change of the window. -/
def acceptReport (run : PaintRun) (paintedUpdateReport : PaintedUpdateReport) (window : PaintWindow) : PaintRun :=
  { run with
    window
    acceptedReports := paintedUpdateReport.updateSequence :: run.acceptedReports
    sentCountAtChange := if (run.batchAfter paintedUpdateReport).length = 3 then run.sentUpdates.length
      else run.sentCountAtChange
    batch := if (run.batchAfter paintedUpdateReport).length = 3 then [] else run.batchAfter paintedUpdateReport }

/-- The window before an update goes out: started over after an idle time. -/
def windowBeforeSend (run : PaintRun) (isIdle : Bool) : PaintWindow :=
  if isIdle then run.window.startWindowOver else run.window

/-- One operation; `none` where the code panics or overflows. -/
def apply (run : PaintRun) : PaintOperation → Option PaintRun
  | .send updateSequence _ endBytePosition startedAt sentAt => do
    let isIdle ← run.window.isIdleBefore startedAt
    let window ← run.window.recordUpdateSent updateSequence endBytePosition startedAt sentAt
    some { run with
      window
      sentUpdates := run.sentUpdates ++
        [(run.windowBeforeSend isIdle).buildInFlightUpdate updateSequence endBytePosition sentAt]
      batch := if isIdle then [] else run.batch }
  | .report paintedUpdateReport => do
    match ← run.window.recordUpdatePainted paintedUpdateReport with
    | (window, .error _) => some { run with window }
    | (window, .ok ()) => some (run.acceptReport paintedUpdateReport window)

/-- The runs of a connection. -/
inductive Reachable : PaintRun → Prop
  | new : Reachable .new
  | step {run next : PaintRun} {op : PaintOperation} (hrun : Reachable run) (hallows : run.Allows op)
      (happly : run.apply op = some next) : Reachable next

/-! ### The invariant -/

/-- What holds of every run. The flight is what is left of the sent updates after the reported ones. -/
structure Inv (run : PaintRun) : Prop where
  limits : minimumWindowByteCount ≤ run.window.windowByteCount ∧ run.window.windowByteCount ≤ maximumWindowByteCount
  sorted : run.sentUpdates.Pairwise fun first second => first.updateSequence < second.updateSequence
  positive : ∀ sent ∈ run.sentUpdates, 0 < sent.updateSequence
  lastSent : run.window.lastSentUpdateSequence = (run.sentUpdates.getLast?.map (·.updateSequence)).getD 0
  acceptedLe : ∀ reported ∈ run.acceptedReports, reported ≤ run.window.lastSentUpdateSequence
  flight : ∃ painted, run.sentUpdates = painted ++ run.window.inFlightUpdates ∧
    (∀ update ∈ painted, ∃ reported ∈ run.acceptedReports, update.updateSequence ≤ reported) ∧
    (∀ update ∈ run.window.inFlightUpdates, ∀ reported ∈ run.acceptedReports, reported < update.updateSequence) ∧
    run.window.paintedBytePosition = (painted.getLast?.map (·.endBytePosition)).getD 0
  unreported : run.window.hasPaintReport = false → run.window.inFlightUpdates.length ≤ 1
  reported : run.window.hasPaintReport = true → run.acceptedReports ≠ []
  base : ∀ baseRoundTrip ∈ run.window.baseRoundTrip, IsRoundTrip baseRoundTrip
  sentCount : run.sentCountAtChange ≤ run.sentUpdates.length
  changedThrough : run.window.changedThroughUpdateSequence =
    ((run.sentUpdates.take run.sentCountAtChange).getLast?.map (·.updateSequence)).getD 0
  summary : run.window.measurementBatch = summarize run.batch
  batchLength : run.batch.length < 3
  batchMeasured : ∀ measured ∈ run.batch, IsRoundTrip measured.roundTrip ∧
    measured.update ∈ run.sentUpdates.drop run.sentCountAtChange

theorem inv_new : Inv .new where
  limits := by decide
  sorted := List.Pairwise.nil
  positive := by simp [PaintRun.new]
  lastSent := rfl
  acceptedLe := by simp [PaintRun.new]
  flight := ⟨[], rfl, by simp, by simp [PaintRun.new], rfl⟩
  unreported _ := by decide
  reported h := absurd h (by decide)
  base := by simp [PaintRun.new, PaintWindow.new]
  sentCount := le_rfl
  changedThrough := rfl
  summary := rfl
  batchLength := by decide
  batchMeasured := by simp [PaintRun.new]

/-! ### An update goes out -/

variable {run : PaintRun}

variable {updateSequence : Nat} {updates : List InFlightUpdate} {update : InFlightUpdate}

theorem isIdlePastBase_isSome {baseRoundTrip : Option Nat} (hbase : ∀ roundTrip ∈ baseRoundTrip, IsRoundTrip roundTrip)
    (idleDuration : Nat) :
    ∃ isIdlePastBase, PaintWindow.isIdlePastBase baseRoundTrip idleDuration = some isIdlePastBase := by
  cases baseRoundTrip with
  | none => exact ⟨true, rfl⟩
  | some baseRoundTrip =>
    have hlt : baseRoundTrip * 2 < 2 ^ 64 * 1000000000 := by
      have hround := (hbase baseRoundTrip rfl).2
      omega
    refine ⟨decide (idleDuration > baseRoundTrip * 2), ?_⟩
    rw [isIdlePastBase, checkedMul, checked_of_lt hlt, map_some]

theorem Inv.isIdleBefore (hi : run.Inv) (start : Instant) :
    ∃ isIdle, run.window.isIdleBefore start = some isIdle ∧ (isIdle = true → run.window.inFlightUpdates = []) := by
  unfold PaintWindow.isIdleBefore
  split_ifs with hem
  · have hnil : run.window.inFlightUpdates = [] := List.isEmpty_iff.1 hem
    cases run.window.flightEmptiedAt with
    | none => exact ⟨false, rfl, fun _ => hnil⟩
    | some flightEmptiedAt =>
      obtain ⟨isIdlePastBase, hpast⟩ := isIdlePastBase_isSome hi.base (start.saturatingDurationSince flightEmptiedAt)
      dsimp only
      rw [hpast, map_some]
      exact ⟨_, rfl, fun _ => hnil⟩
  · exact ⟨false, rfl, fun h => absurd h (by decide)⟩

theorem Inv.lastSent_lt (hi : run.Inv) (hpos : 0 < updateSequence)
    (hlr : ∀ sent ∈ run.sentUpdates, sent.updateSequence < updateSequence) :
    run.window.lastSentUpdateSequence < updateSequence := by
  rw [hi.lastSent]
  cases hl : run.sentUpdates.getLast? with
  | none => exact hpos
  | some sent => exact hlr sent (mem_of_getLast? hl)

def afterSend (run : PaintRun) (isIdle : Bool) (updateSequence endBytePosition : Nat) (sentAt : Instant) : PaintRun :=
  let sent := (run.windowBeforeSend isIdle).buildInFlightUpdate updateSequence endBytePosition sentAt
  { run with
    window := { run.windowBeforeSend isIdle with
      inFlightUpdates := (run.windowBeforeSend isIdle).inFlightUpdates ++ [sent]
      lastSentUpdateSequence := updateSequence }
    sentUpdates := run.sentUpdates ++ [sent]
    batch := if isIdle then [] else run.batch }

theorem apply_send {isIdle : Bool} {start : Instant} (hidle : run.window.isIdleBefore start = some isIdle)
    (updateSequence byteCount endPosition : Nat) (sentAt : Instant) :
    run.apply (.send updateSequence byteCount endPosition start sentAt) =
      some (run.afterSend isIdle updateSequence endPosition sentAt) := by
  simp only [apply, recordUpdateSent, hidle, bind_eq_bind, bind_some]
  rfl

theorem windowBeforeSend_flight (run : PaintRun) (isIdle : Bool) :
    (run.windowBeforeSend isIdle).inFlightUpdates = run.window.inFlightUpdates ∧
      (run.windowBeforeSend isIdle).paintedBytePosition = run.window.paintedBytePosition ∧
      (run.windowBeforeSend isIdle).hasPaintReport = run.window.hasPaintReport ∧
      (run.windowBeforeSend isIdle).changedThroughUpdateSequence = run.window.changedThroughUpdateSequence := by
  cases isIdle <;> exact ⟨rfl, rfl, rfl, rfl⟩

/-- **Sending an update** keeps the invariant. -/
theorem Inv.afterSend (hi : run.Inv) {byteCount endPosition : Nat} {start sentAt : Instant}
    (hallows : run.Allows (.send updateSequence byteCount endPosition start sentAt)) (isIdle : Bool) :
    (run.afterSend isIdle updateSequence endPosition sentAt).Inv := by
  obtain ⟨hcanSend, hpos, -, hlr⟩ := hallows
  have hl := hi.lastSent_lt hpos fun sent hsent => (hlr sent hsent).1
  obtain ⟨hflight, hposition, hreported, hchg⟩ := run.windowBeforeSend_flight isIdle
  obtain ⟨painted, hsp, hptd, hflying, hen⟩ := hi.flight
  constructor
  case limits =>
    obtain ⟨hlow, hhigh⟩ := hi.limits
    cases isIdle with
    | false => exact ⟨hlow, hhigh⟩
    | true => exact ⟨le_min hlow (by decide), (min_le_left _ _).trans hhigh⟩
  case sorted =>
    refine pairwise_append.2 ⟨hi.sorted, pairwise_singleton _ _, ?_⟩
    intro sent hsent new hnew
    obtain rfl := mem_singleton.1 hnew
    exact (hlr sent hsent).1
  case positive =>
    intro sent hsent
    rcases mem_append.1 hsent with hsent | hnew
    · exact hi.positive sent hsent
    · obtain rfl := mem_singleton.1 hnew
      exact hpos
  case lastSent => simp [PaintRun.afterSend, buildInFlightUpdate]
  case acceptedLe =>
    intro reported hreported
    exact (hi.acceptedLe reported hreported).trans hl.le
  case flight =>
    refine ⟨painted, ?_, hptd, ?_, hposition.trans hen⟩
    · show run.sentUpdates ++ _ = painted ++ ((run.windowBeforeSend isIdle).inFlightUpdates ++ _)
      rw [hflight, ← append_assoc, ← hsp]
    · intro update hupd reported hreported
      rcases mem_append.1 hupd with hupd | hnew
      · exact hflying update (hflight ▸ hupd) reported hreported
      · obtain rfl := mem_singleton.1 hnew
        exact (hi.acceptedLe reported hreported).trans_lt hl
  case unreported =>
    -- without a report the window allows an update only on an empty flight
    intro hnone
    have hnone : run.window.hasPaintReport = false := hreported ▸ hnone
    have hem : run.window.inFlightUpdates = [] := by
      unfold canSendUpdate at hcanSend
      by_contra hne
      rw [if_neg (by simpa using hne), hnone] at hcanSend
      exact Bool.false_ne_true hcanSend
    simp [PaintRun.afterSend, hflight, hem]
  case reported => exact fun h => hi.reported (hreported ▸ h)
  case base =>
    cases isIdle with
    | false => exact hi.base
    | true =>
      intro baseRoundTrip hbase
      exact absurd hbase (by simp [PaintRun.afterSend, windowBeforeSend, startWindowOver])
  case sentCount =>
    have hc := hi.sentCount
    simp only [PaintRun.afterSend, length_append]
    omega
  case changedThrough =>
    rw [PaintRun.afterSend, take_append_of_le_length hi.sentCount]
    exact hchg.trans hi.changedThrough
  case summary =>
    cases isIdle with
    | false => exact hi.summary
    | true => rfl
  case batchLength =>
    cases isIdle with
    | false => exact hi.batchLength
    | true => exact Nat.zero_lt_succ 2
  case batchMeasured =>
    intro measured htimed
    have hm : measured ∈ run.batch := by
      cases isIdle with
      | false => exact htimed
      | true => exact absurd htimed not_mem_nil
    obtain ⟨hrnd, hsent⟩ := hi.batchMeasured measured hm
    refine ⟨hrnd, ?_⟩
    rw [PaintRun.afterSend, drop_append_of_le_length hi.sentCount]
    exact mem_append_left _ hsent

/-! ### A report comes in -/

theorem takePaintedUpdates_eq (updateSequence : Nat) (painted : Option InFlightUpdate) (updates : List InFlightUpdate) :
    takePaintedUpdates updateSequence painted updates =
      ((updates.takeWhile fun update => update.updateSequence ≤ updateSequence).getLast?.or painted,
        updates.dropWhile fun update => update.updateSequence ≤ updateSequence) := by
  induction updates generalizing painted with
  | nil => rfl
  | cons update updates ih =>
    rw [takePaintedUpdates]
    split_ifs with hle
    · rw [ih, takeWhile_cons_of_pos (by simpa using hle), dropWhile_cons_of_pos (by simpa using hle),
        List.getLast?_cons]
      cases (updates.takeWhile fun update => update.updateSequence ≤ updateSequence).getLast? <;> rfl
    · rw [takeWhile_cons_of_neg (by simpa using hle), dropWhile_cons_of_neg (by simpa using hle)]
      rfl

theorem filter_eq_takeWhile (hsrt : updates.Pairwise fun fst snd => fst.updateSequence < snd.updateSequence)
    (updateSequence : Nat) :
    (updates.filter fun update => update.updateSequence ≤ updateSequence) =
      updates.takeWhile fun update => update.updateSequence ≤ updateSequence := by
  induction updates with
  | nil => rfl
  | cons update updates ih =>
    obtain ⟨hf, hr⟩ := pairwise_cons.1 hsrt
    by_cases hle : update.updateSequence ≤ updateSequence
    · rw [filter_cons_of_pos (by simpa using hle), takeWhile_cons_of_pos (by simpa using hle), ih hr]
    · rw [filter_cons_of_neg (by simpa using hle), takeWhile_cons_of_neg (by simpa using hle), filter_eq_nil_iff]
      intro other ho
      have hlt := hf other ho
      simp only [decide_eq_true_eq]
      omega

theorem lt_of_mem_dropWhile (hsrt : updates.Pairwise fun fst snd => fst.updateSequence < snd.updateSequence)
    (hm : update ∈ updates.dropWhile fun update => update.updateSequence ≤ updateSequence) :
    updateSequence < update.updateSequence := by
  induction updates with
  | nil => exact absurd hm not_mem_nil
  | cons fst updates ih =>
    obtain ⟨hf, hr⟩ := pairwise_cons.1 hsrt
    by_cases hle : fst.updateSequence ≤ updateSequence
    · rw [dropWhile_cons_of_pos (by simpa using hle)] at hm
      exact ih hr hm
    · rw [dropWhile_cons_of_neg (by simpa using hle)] at hm
      rcases mem_cons.1 hm with rfl | hm
      · omega
      · have hlt := hf update hm
        omega

theorem le_getLast_of_sorted (hsrt : updates.Pairwise fun fst snd => fst.updateSequence < snd.updateSequence)
    (hm : update ∈ updates) : update.updateSequence ≤ (updates.getLast?.map (·.updateSequence)).getD 0 := by
  rcases eq_nil_or_concat updates with rfl | ⟨before, last, rfl⟩
  · exact absurd hm not_mem_nil
  · rw [concat_eq_append] at hsrt hm ⊢
    rw [List.getLast?_concat, map_some, getD_some]
    rcases mem_append.1 hm with hm | hm
    · exact ((pairwise_append.1 hsrt).2.2 update hm last (mem_singleton_self _)).le
    · rw [mem_singleton.1 hm]

/-- An update was sent after the last change exactly when its number is above the one the window changed through. -/
theorem Inv.sentAfterChange (hi : run.Inv) (hsent : update ∈ run.sentUpdates) :
    update.updateSequence ≤ run.window.changedThroughUpdateSequence ↔
      update ∉ run.sentUpdates.drop run.sentCountAtChange := by
  have hsrt := hi.sorted
  rw [← take_append_drop run.sentCountAtChange run.sentUpdates, pairwise_append] at hsrt
  obtain ⟨hb, -, hacross⟩ := hsrt
  rw [hi.changedThrough]
  constructor
  · intro hle haf
    have hpos := hi.positive update hsent
    cases hl : (run.sentUpdates.take run.sentCountAtChange).getLast? with
    | none =>
      rw [hl] at hle
      exact absurd hle (not_le.2 hpos)
    | some last =>
      rw [hl] at hle
      exact absurd hle (not_le.2 (hacross last (mem_of_getLast? hl) update haf))
  · intro haf
    rw [← take_append_drop run.sentCountAtChange run.sentUpdates, mem_append] at hsent
    exact le_getLast_of_sorted hb (hsent.resolve_right haf)

theorem summarize_concat (batch : List Measurement) (measured : Measurement) :
    summarize (batch ++ [measured]) =
      { measurementCount := (summarize batch).measurementCount + 1
        lowestRoundTrip := some (lowerRoundTrip (summarize batch).lowestRoundTrip measured.roundTrip)
        lowestFilledRoundTrip :=
          if measured.update.isWindowFilled then
            some (lowerRoundTrip (summarize batch).lowestFilledRoundTrip measured.roundTrip)
          else (summarize batch).lowestFilledRoundTrip } := by
  have hmin (values : List Nat) (value : Nat) : (values ++ [value]).min? = some (lowerRoundTrip values.min? value) := by
    cases values with
    | nil => rfl
    | cons first values =>
      simp only [cons_append, List.min?_cons', List.foldl_append, foldl_cons, foldl_nil]
      rfl
  unfold summarize
  simp only [length_append, length_singleton, map_append, map_singleton, hmin, filter_append]
  cases hfilled : measured.update.isWindowFilled with
  | false => simp [hfilled]
  | true => simp [hfilled, hmin]

theorem isRoundTrip_lower {lowestTrip : Option Nat} {trip : Nat} (hlowest : ∀ lowest ∈ lowestTrip, IsRoundTrip lowest)
    (hrnd : IsRoundTrip trip) :
    IsRoundTrip (lowerRoundTrip lowestTrip trip) := by
  cases lowestTrip with
  | none => exact hrnd
  | some lowest =>
    rcases min_choice lowest trip with hmin | hmin
    · show IsRoundTrip (min lowest trip)
      rw [hmin]
      exact hlowest lowest rfl
    · show IsRoundTrip (min lowest trip)
      rw [hmin]
      exact hrnd

theorem summarize_lowest_isRoundTrip {batch : List Measurement}
    (hbatch : ∀ measured ∈ batch, IsRoundTrip measured.roundTrip) :
    ∀ lowest ∈ (summarize batch).lowestRoundTrip, IsRoundTrip lowest := by
  intro lowest hlowest
  obtain ⟨measured, hm, rfl⟩ := List.mem_map.1 (List.min?_mem hlowest)
  exact hbatch measured hm

theorem recordMeasurement_before (win : PaintWindow) {painted : InFlightUpdate}
    (hb : painted.updateSequence ≤ win.changedThroughUpdateSequence) (trip : Nat) :
    win.recordMeasurement painted trip =
      some { win with baseRoundTrip := some (lowerRoundTrip win.baseRoundTrip trip) } :=
  if_pos hb

theorem recordMeasurement_after (win : PaintWindow) (measured : Measurement)
    (haf : ¬measured.update.updateSequence ≤ win.changedThroughUpdateSequence) {batch : List Measurement}
    (hsum : win.measurementBatch = summarize batch) (hlen : batch.length < 3) :
    win.recordMeasurement measured.update measured.roundTrip =
      if (batch ++ [measured]).length = 3 then
        changeWindow
          { win with
            baseRoundTrip := some (lowerRoundTrip win.baseRoundTrip measured.roundTrip)
            measurementBatch := .default
            changedThroughUpdateSequence := win.lastSentUpdateSequence }
          (lowerRoundTrip win.baseRoundTrip measured.roundTrip)
          (lowerRoundTrip (summarize batch).lowestRoundTrip measured.roundTrip)
          (summarize (batch ++ [measured])).lowestFilledRoundTrip
      else
        some { win with
          baseRoundTrip := some (lowerRoundTrip win.baseRoundTrip measured.roundTrip)
          measurementBatch := summarize (batch ++ [measured]) } := by
  have hc : (summarize batch).measurementCount + 1 < 2 ^ 32 := by
    show batch.length + 1 < 2 ^ 32
    omega
  have hthd : (summarize batch).measurementCount + 1 < measurementCountPerChange ↔
      ¬(batch ++ [measured]).length = 3 := by
    rw [length_append, length_singleton]
    show batch.length + 1 < 3 ↔ _
    omega
  unfold recordMeasurement
  simp only [if_neg haf, hsum, checked_of_lt hc, bind_eq_bind, bind_some]
  rw [summarize_concat]
  by_cases hl : (batch ++ [measured]).length = 3
  · rw [if_neg (fun h => hthd.1 h hl), if_pos hl]
  · rw [if_pos (hthd.2 hl), if_neg hl]

/-! ### The step -/

def windowBeforeMeasurement (run : PaintRun) (paintedUpdateReport : PaintedUpdateReport)
    (painted : InFlightUpdate) : PaintWindow :=
  let inFlightUpdates := run.window.inFlightUpdates.dropWhile fun update =>
    update.updateSequence ≤ paintedUpdateReport.updateSequence
  { run.window with
    inFlightUpdates
    hasPaintReport := true
    paintedBytePosition := painted.endBytePosition
    flightEmptiedAt := if inFlightUpdates.isEmpty then some paintedUpdateReport.reportedAt
      else run.window.flightEmptiedAt }

/-- The window that the third measurement of a batch changes. -/
def windowBeforeChange (run : PaintRun) (paintedUpdateReport : PaintedUpdateReport) (painted : InFlightUpdate) :
    PaintWindow :=
  { run.windowBeforeMeasurement paintedUpdateReport painted with
    baseRoundTrip := some (lowerRoundTrip run.window.baseRoundTrip (measureRoundTrip paintedUpdateReport painted))
    measurementBatch := .default
    changedThroughUpdateSequence := run.window.lastSentUpdateSequence }

/-- How a report moves the size of the window: not at all, or by one change from exactly the three measurements of the
batch. -/
def SizeStep (run : PaintRun) (paintedUpdateReport : PaintedUpdateReport) (window : PaintWindow) : Prop :=
  if (run.batchAfter paintedUpdateReport).length = 3 then
    ∃ (prepared : PaintWindow) (baseRoundTrip sample : Nat),
      prepared.windowByteCount = run.window.windowByteCount ∧ prepared.isDoubling = run.window.isDoubling ∧
      window.baseRoundTrip = some baseRoundTrip ∧
      ((run.batchAfter paintedUpdateReport).map (·.roundTrip)).min? = some sample ∧
      prepared.changeWindow baseRoundTrip sample
        (((run.batchAfter paintedUpdateReport).filter (·.update.isWindowFilled)).map (·.roundTrip)).min? = some window
  else window.windowByteCount = run.window.windowByteCount ∧ window.isDoubling = run.window.isDoubling

/-- The batch never holds more than three measurements, each of an update sent after the last change. -/
theorem Inv.batchAfter (hi : run.Inv) (report : PaintedUpdateReport) :
    (run.batchAfter report).length ≤ 3 ∧
      ∀ measured ∈ run.batchAfter report, IsRoundTrip measured.roundTrip ∧
        measured.update ∈ run.sentUpdates.drop run.sentCountAtChange := by
  have hlen := hi.batchLength
  unfold PaintRun.batchAfter
  split
  · exact ⟨hlen.le, hi.batchMeasured⟩
  · split_ifs with haf
    · refine ⟨by rw [length_append, length_singleton]; omega, ?_⟩
      intro measured htimed
      rcases mem_append.1 htimed with htimed | hnew
      · exact hi.batchMeasured measured htimed
      · obtain rfl := mem_singleton.1 hnew
        exact ⟨measureRoundTrip_isRoundTrip _ _, haf⟩
    · exact ⟨hlen.le, hi.batchMeasured⟩

/-- What the window after an accepted report must be for the invariant to hold of the run. -/
theorem Inv.acceptReport (hi : run.Inv) {report : PaintedUpdateReport}
    (hle : report.updateSequence ≤ run.window.lastSentUpdateSequence) (popped : List InFlightUpdate) {win : PaintWindow}
    (hsp : run.window.inFlightUpdates = popped ++ win.inFlightUpdates)
    (hpopped : ∀ update ∈ popped, update.updateSequence ≤ report.updateSequence)
    (hk : ∀ update ∈ win.inFlightUpdates, report.updateSequence < update.updateSequence)
    (hpos : win.paintedBytePosition = (popped.getLast?.map (·.endBytePosition)).getD run.window.paintedBytePosition)
    (hreported : win.hasPaintReport = (run.window.hasPaintReport || !popped.isEmpty))
    (hl : win.lastSentUpdateSequence = run.window.lastSentUpdateSequence)
    (hlimits : minimumWindowByteCount ≤ win.windowByteCount ∧ win.windowByteCount ≤ maximumWindowByteCount)
    (hbase : ∀ baseRoundTrip ∈ win.baseRoundTrip, IsRoundTrip baseRoundTrip)
    (hchg : win.changedThroughUpdateSequence =
      if (run.batchAfter report).length = 3 then run.window.lastSentUpdateSequence
      else run.window.changedThroughUpdateSequence) (hsum : win.measurementBatch =
      summarize (if (run.batchAfter report).length = 3 then [] else run.batchAfter report)) :
    (run.acceptReport report win).Inv := by
  obtain ⟨painted, hsent, hptd, hflying, hen⟩ := hi.flight
  obtain ⟨hbatchLength, hbatchMeasured⟩ := hi.batchAfter report
  constructor
  case limits => exact hlimits
  case sorted => exact hi.sorted
  case positive => exact hi.positive
  case lastSent => exact hl.trans hi.lastSent
  case acceptedLe =>
    intro reported hm
    show reported ≤ win.lastSentUpdateSequence
    rw [hl]
    rcases mem_cons.1 hm with rfl | hm
    · exact hle
    · exact hi.acceptedLe reported hm
  case flight =>
    refine ⟨painted ++ popped, ?_, ?_, ?_, ?_⟩
    · show run.sentUpdates = painted ++ popped ++ win.inFlightUpdates
      rw [hsent, hsp, append_assoc]
    · intro update hupd
      rcases mem_append.1 hupd with hupd | hupd
      · obtain ⟨reported, hm, hcovered⟩ := hptd update hupd
        exact ⟨reported, mem_cons_of_mem _ hm, hcovered⟩
      · exact ⟨_, mem_cons_self, hpopped update hupd⟩
    · intro update hupd reported hm
      rcases mem_cons.1 hm with rfl | hm
      · exact hk update hupd
      · refine hflying update ?_ reported hm
        rw [hsp]
        exact mem_append_right _ hupd
    · show win.paintedBytePosition = _
      rw [hpos, List.getLast?_append]
      cases popped.getLast? with
      | none => exact hen
      | some update => rfl
  case unreported =>
    intro hnone
    have hnone : win.hasPaintReport = false := hnone
    rw [hreported, Bool.or_eq_false_iff] at hnone
    have hlen := hi.unreported hnone.1
    rw [hsp, length_append] at hlen
    show win.inFlightUpdates.length ≤ 1
    omega
  case reported => exact fun _ => cons_ne_nil _ _
  case base => exact hbase
  case sentCount =>
    show (if _ then _ else _) ≤ _
    split_ifs
    · exact le_rfl
    · exact hi.sentCount
  case changedThrough =>
    show win.changedThroughUpdateSequence =
      ((run.sentUpdates.take (if _ then _ else _)).getLast?.map (·.updateSequence)).getD 0
    rw [hchg]
    split_ifs
    · rw [take_length]
      exact hi.lastSent
    · exact hi.changedThrough
  case summary => exact hsum
  case batchLength =>
    show (if _ then _ else _ : List Measurement).length < 3
    split_ifs with hthd
    · exact Nat.zero_lt_succ 2
    · omega
  case batchMeasured =>
    intro measured htimed
    change measured ∈ (if _ then _ else _ : List Measurement) at htimed
    show _ ∧ _ ∈ run.sentUpdates.drop (if _ then _ else _)
    split_ifs at htimed ⊢ with hthd
    · exact absurd htimed not_mem_nil
    · exact hbatchMeasured measured htimed

theorem Inv.flightSorted (hi : run.Inv) :
    run.window.inFlightUpdates.Pairwise fun fst snd => fst.updateSequence < snd.updateSequence := by
  obtain ⟨painted, hsent, -⟩ := hi.flight
  have hsrt := hi.sorted
  rw [hsent] at hsrt
  exact (pairwise_append.1 hsrt).2.1

theorem Inv.mem_sentUpdates (hi : run.Inv) (hm : update ∈ run.window.inFlightUpdates) : update ∈ run.sentUpdates := by
  obtain ⟨painted, hsent, -⟩ := hi.flight
  rw [hsent]
  exact mem_append_right _ hm

/-- The window after a report is the one before its measurement, with another size, base and batch. -/
structure SameFlight (before after : PaintWindow) : Prop where
  inFlightUpdates : after.inFlightUpdates = before.inFlightUpdates
  paintedBytePosition : after.paintedBytePosition = before.paintedBytePosition
  hasPaintReport : after.hasPaintReport = before.hasPaintReport
  lastSentUpdateSequence : after.lastSentUpdateSequence = before.lastSentUpdateSequence

/-- **A report that covers an update in flight** keeps the invariant. -/
theorem Inv.painted (hi : run.Inv) {report : PaintedUpdateReport} {painted : InFlightUpdate}
    (hle : report.updateSequence ≤ run.window.lastSentUpdateSequence)
    (hptd : (run.window.inFlightUpdates.takeWhile fun update =>
      update.updateSequence ≤ report.updateSequence).getLast? = some painted) :
    ∃ win, (run.windowBeforeMeasurement report painted).recordMeasurement painted
        (measureRoundTrip report painted) = some win ∧
      SizeStep run report win ∧ (run.acceptReport report win).Inv := by
  have hsrt := hi.flightSorted
  have hlen := hi.batchLength
  have hfi : run.findPaintedUpdate report = some painted := by
    rw [findPaintedUpdate, filter_eq_takeWhile hsrt]
    exact hptd
  have hsent : painted ∈ run.sentUpdates :=
    hi.mem_sentUpdates (takeWhile_subset _ (mem_of_getLast? hptd))
  have hrnd := measureRoundTrip_isRoundTrip report painted
  have hbase : ∀ baseRoundTrip ∈ some (lowerRoundTrip run.window.baseRoundTrip
      (measureRoundTrip report painted)), IsRoundTrip baseRoundTrip := by
    intro baseRoundTrip hm
    rw [← Option.some.inj hm]
    exact isRoundTrip_lower hi.base hrnd
  have haccept (win : PaintWindow) (hs : SameFlight (run.windowBeforeMeasurement report painted) win) :=
    hi.acceptReport hle
      (run.window.inFlightUpdates.takeWhile fun update => update.updateSequence ≤ report.updateSequence)
      (by rw [hs.inFlightUpdates]; exact takeWhile_append_dropWhile.symm)
      (by
        intro update hupd
        rw [← filter_eq_takeWhile hsrt] at hupd
        simpa using (mem_filter.1 hupd).2)
      (by
        intro update hupd
        rw [hs.inFlightUpdates] at hupd
        exact lt_of_mem_dropWhile hsrt hupd)
      (by rw [hs.paintedBytePosition, hptd]; rfl)
      (by
        have hne : (run.window.inFlightUpdates.takeWhile fun update =>
            update.updateSequence ≤ report.updateSequence) ≠ [] := by
          intro hnil
          rw [hnil] at hptd
          exact some_ne_none _ hptd.symm
        rw [hs.hasPaintReport, isEmpty_eq_false_iff.2 hne, Bool.not_false, Bool.or_true]
        rfl)
      hs.lastSentUpdateSequence
  by_cases hb : painted.updateSequence ≤ run.window.changedThroughUpdateSequence
  · have hbatch : run.batchAfter report = run.batch := by
      rw [PaintRun.batchAfter, hfi]
      exact if_neg ((hi.sentAfterChange hsent).1 hb)
    have hthd : ¬(run.batchAfter report).length = 3 := by
      rw [hbatch]
      omega
    refine ⟨_, recordMeasurement_before (run.windowBeforeMeasurement report painted) hb _, ?_, ?_⟩
    · rw [SizeStep, if_neg hthd]
      exact ⟨rfl, rfl⟩
    · refine haccept _ ⟨rfl, rfl, rfl, rfl⟩ hi.limits hbase ?_ ?_
      · rw [if_neg hthd]
        rfl
      · rw [if_neg hthd, hbatch]
        exact hi.summary
  · have hbatch : run.batchAfter report = run.batch ++ [⟨painted, measureRoundTrip report painted⟩] := by
      rw [PaintRun.batchAfter, hfi]
      exact if_pos (not_not.1 (mt (hi.sentAfterChange hsent).2 hb))
    rw [recordMeasurement_after (run.windowBeforeMeasurement report painted)
      ⟨painted, measureRoundTrip report painted⟩ hb hi.summary hlen,
      ← hbatch]
    by_cases hthd : (run.batchAfter report).length = 3
    · rw [if_pos hthd]
      have htimed : IsRoundTrip (lowerRoundTrip (summarize run.batch).lowestRoundTrip
          (measureRoundTrip report painted)) :=
        isRoundTrip_lower (summarize_lowest_isRoundTrip fun measured hm => (hi.batchMeasured measured hm).1) hrnd
      have hwin : (run.windowBeforeChange report painted).windowByteCount ≤
          maximumWindowByteCount := hi.limits.2
      obtain ⟨size, isDoubling, hchg, hlimits⟩ := changeWindow_inLimits
        (lowerRoundTrip run.window.baseRoundTrip (measureRoundTrip report painted)) hwin htimed
        (summarize (run.batchAfter report)).lowestFilledRoundTrip
      refine ⟨_, hchg, ?_, ?_⟩
      · rw [SizeStep, if_pos hthd]
        refine ⟨run.windowBeforeChange report painted, _, _, rfl, rfl, rfl, ?_, hchg⟩
        show (summarize (run.batchAfter report)).lowestRoundTrip = _
        rw [hbatch, summarize_concat]
      · refine haccept _ ⟨rfl, rfl, rfl, rfl⟩ hlimits hbase ?_ ?_
        · rw [if_pos hthd]
          rfl
        · rw [if_pos hthd]
          rfl
    · rw [if_neg hthd]
      refine ⟨_, rfl, ?_, ?_⟩
      · rw [SizeStep, if_neg hthd]
        exact ⟨rfl, rfl⟩
      · refine haccept _ ⟨rfl, rfl, rfl, rfl⟩ hi.limits hbase ?_ ?_
        · rw [if_neg hthd]
          rfl
        · rw [if_neg hthd]

/-- **Every report** is taken without overflow. One of an update that was not sent changes nothing; any other joins the
accepted ones. -/
theorem Inv.report (hi : run.Inv) (report : PaintedUpdateReport) :
    ∃ next, run.apply (.report report) = some next ∧ next.Inv ∧
      (run.window.lastSentUpdateSequence < report.updateSequence → next = run) ∧
      (report.updateSequence ≤ run.window.lastSentUpdateSequence →
        next = run.acceptReport report next.window ∧ SizeStep run report next.window) := by
  by_cases hunsent : report.updateSequence > run.window.lastSentUpdateSequence
  · refine ⟨run, ?_, hi, fun _ => rfl, fun hle => absurd hle (not_le.2 hunsent)⟩
    simp only [apply, recordUpdatePainted, if_pos hunsent, bind_eq_bind, bind_some]
  · have hle : report.updateSequence ≤ run.window.lastSentUpdateSequence := not_lt.1 hunsent
    cases hptd : (run.window.inFlightUpdates.takeWhile fun update =>
        update.updateSequence ≤ report.updateSequence).getLast? with
    | none =>
      have hnil := List.getLast?_eq_none_iff.1 hptd
      have hall : (run.window.inFlightUpdates.dropWhile fun update =>
          update.updateSequence ≤ report.updateSequence) = run.window.inFlightUpdates := by
        have happend := takeWhile_append_dropWhile (l := run.window.inFlightUpdates)
          (p := fun update => update.updateSequence ≤ report.updateSequence)
        rwa [hnil, nil_append] at happend
      have hbatch : run.batchAfter report = run.batch := by
        have hfi : run.findPaintedUpdate report = none := by
          rw [findPaintedUpdate, filter_eq_takeWhile hi.flightSorted]
          exact hptd
        rw [PaintRun.batchAfter, hfi]
      have hlen := hi.batchLength
      have hthd : ¬(run.batchAfter report).length = 3 := by
        rw [hbatch]
        omega
      refine ⟨run.acceptReport report run.window, ?_, ?_, fun h => absurd h (not_lt.2 hle), fun _ => ?_⟩
      · simp only [apply, recordUpdatePainted, if_neg hunsent, takePaintedUpdates_eq, hptd,
          or_none, hall, bind_eq_bind, bind_some]
      · refine hi.acceptReport hle [] rfl (by simp) ?_ rfl ?_ rfl hi.limits hi.base ?_ ?_
        · intro update hupd
          exact lt_of_mem_dropWhile hi.flightSorted (by rwa [hall])
        · simp
        · rw [if_neg hthd]
        · rw [if_neg hthd, hbatch]
          exact hi.summary
      · refine ⟨rfl, ?_⟩
        rw [SizeStep, if_neg hthd]
        exact ⟨rfl, rfl⟩
    | some painted =>
      obtain ⟨win, hrec, hsize, hn⟩ := hi.painted hle hptd
      refine ⟨run.acceptReport report win, ?_, hn, fun h => absurd h (not_lt.2 hle), fun _ => ⟨rfl, hsize⟩⟩
      unfold windowBeforeMeasurement at hrec
      simp only [apply, recordUpdatePainted, if_neg hunsent, takePaintedUpdates_eq, hptd, some_or, bind_eq_bind]
      rw [hrec]
      rfl

theorem Reachable.inv (hreach : run.Reachable) : run.Inv := by
  induction hreach with
  | new => exact inv_new
  | @step run next op hrun hallows happly ih =>
    cases op with
    | send updateSequence byteCount endBytePosition start sentAt =>
      obtain ⟨isIdle, hidle, -⟩ := ih.isIdleBefore start
      rw [apply_send hidle] at happly
      rw [← Option.some.inj happly]
      exact ih.afterSend hallows isIdle
    | report paintedUpdateReport =>
      obtain ⟨reported, hreport, hi, -⟩ := ih.report paintedUpdateReport
      rw [hreport] at happly
      rwa [← Option.some.inj happly]

/-! ### What the history says -/

def lastSentSequence (run : PaintRun) : Nat := (run.sentUpdates.getLast?.map (·.updateSequence)).getD 0

/-- The written byte count at the end of the last sent update that an accepted report covers, or 0. -/
def lastReportedEnd (run : PaintRun) : Nat :=
  ((run.sentUpdates.filter fun update => run.acceptedReports.any fun reported =>
    update.updateSequence ≤ reported).getLast?.map (·.endBytePosition)).getD 0

theorem Inv.filter_sentUpdates (hi : run.Inv) :
    (run.sentUpdates.filter fun update => run.acceptedReports.all fun reported => reported < update.updateSequence) =
        run.window.inFlightUpdates ∧
      run.lastReportedEnd = run.window.paintedBytePosition := by
  obtain ⟨painted, hsent, hptd, hflying, hen⟩ := hi.flight
  have hpaintedAny : ∀ update ∈ painted,
      (run.acceptedReports.any fun reported => update.updateSequence ≤ reported) = true := by
    intro update hupd
    simpa using hptd update hupd
  have hflyingAll : ∀ update ∈ run.window.inFlightUpdates,
      (run.acceptedReports.all fun reported => reported < update.updateSequence) = true := by
    intro update hupd
    simpa using hflying update hupd
  have hflips (update : InFlightUpdate) :
      (run.acceptedReports.all fun reported => reported < update.updateSequence) =
        !(run.acceptedReports.any fun reported => update.updateSequence ≤ reported) := by
    rw [all_eq_not_any_not]
    simp only [← decide_not, not_lt]
  constructor
  · rw [hsent, filter_append, filter_eq_self.2 hflyingAll, filter_eq_nil_iff.2, nil_append]
    intro update hupd
    rw [hflips, hpaintedAny update hupd]
    exact Bool.false_ne_true
  · rw [lastReportedEnd, hsent, filter_append, filter_eq_self.2 hpaintedAny, filter_eq_nil_iff.2, append_nil]
    · exact hen.symm
    · intro update hupd
      have hall := hflyingAll update hupd
      rw [hflips] at hall
      simpa using hall

/-- **The paint window over any run.** The window stays between its limits, and no operation overflows or divides by
zero. Until a report is accepted at most one update is in flight; the flight is the sent updates numbered above every
accepted report; an update sent behind another one finds fewer bytes past the last reported update than the window.
A report of an update that was not sent changes nothing, and after a report of the last one the next update is always
allowed. A report moves the size of the window only by one change from exactly three measurements, all of updates sent
after the last change; a send only by starting over on an empty flight. -/
theorem paintWindow_flowControl (run : PaintRun) (hreach : run.Reachable) :
    (minimumWindowByteCount ≤ run.window.windowByteCount ∧ run.window.windowByteCount ≤ maximumWindowByteCount) ∧
    (run.acceptedReports = [] → run.window.inFlightUpdates.length ≤ 1) ∧
    (run.window.inFlightUpdates =
      run.sentUpdates.filter fun update => run.acceptedReports.all fun reported => reported < update.updateSequence) ∧
    (∀ updateSequence written endBytePosition startedAt sentAt,
      run.Allows (.send updateSequence written endBytePosition startedAt sentAt) →
      (run.window.inFlightUpdates ≠ [] → run.lastReportedEnd ≤ written ∧
        written - run.lastReportedEnd < run.window.windowByteCount) ∧
      ∃ next, run.apply (.send updateSequence written endBytePosition startedAt sentAt) = some next ∧
        (next.window.windowByteCount = run.window.windowByteCount ∧ next.window.isDoubling = run.window.isDoubling ∨
          run.window.inFlightUpdates = [] ∧
            next.window.windowByteCount = min run.window.windowByteCount initialWindowByteCount)) ∧
    ∀ paintedUpdateReport, ∃ next, run.apply (.report paintedUpdateReport) = some next ∧
      (run.lastSentSequence < paintedUpdateReport.updateSequence → next = run) ∧
      (paintedUpdateReport.updateSequence = run.lastSentSequence →
        ∀ written, next.window.canSendUpdate written = true) ∧
      (paintedUpdateReport.updateSequence ≤ run.lastSentSequence →
        SizeStep run paintedUpdateReport next.window ∧
        ((run.batchAfter paintedUpdateReport).length = 3 → next.sentCountAtChange = run.sentUpdates.length)) ∧
      ∀ measurement ∈ run.batchAfter paintedUpdateReport,
        measurement.update ∈ run.sentUpdates.drop run.sentCountAtChange := by
  have hinv := hreach.inv
  obtain ⟨hflight, hreportedEnd⟩ := hinv.filter_sentUpdates
  refine ⟨hinv.limits, ?_, hflight.symm, ?_, ?_⟩
  · intro hnone
    apply hinv.unreported
    rw [← Bool.not_eq_true]
    exact fun hreported => hinv.reported hreported hnone
  · intro updateSequence written endBytePosition startedAt sentAt hallows
    obtain ⟨isIdle, hidle, hempty⟩ := hinv.isIdleBefore startedAt
    refine ⟨fun hne => ⟨?_, ?_⟩, _, apply_send hidle _ _ _ _, ?_⟩
    · rw [lastReportedEnd]
      cases hlast : (run.sentUpdates.filter fun update => run.acceptedReports.any fun reported =>
          update.updateSequence ≤ reported).getLast? with
      | none => exact Nat.zero_le _
      | some update =>
        exact (hallows.2.2.2 update (mem_filter.1 (mem_of_getLast? hlast)).1).2
    · have hcanSend := hallows.1
      unfold canSendUpdate at hcanSend
      rw [if_neg (by simpa using hne), Bool.and_eq_true, decide_eq_true_iff] at hcanSend
      rw [hreportedEnd]
      exact hcanSend.2
    · cases isIdle with
      | false => exact Or.inl ⟨rfl, rfl⟩
      | true => exact Or.inr ⟨hempty rfl, rfl⟩
  · intro paintedUpdateReport
    obtain ⟨next, hreport, hnext, hrefused, haccepted⟩ := hinv.report paintedUpdateReport
    have hlast : run.window.lastSentUpdateSequence = run.lastSentSequence := hinv.lastSent
    rw [hlast] at hrefused haccepted
    refine ⟨next, hreport, hrefused, ?_, ?_, fun measurement hmem => ((hinv.batchAfter _).2 measurement hmem).2⟩
    · intro hseq written
      -- the flight holds only sent updates above the report, and there are none
      have hempty : next.window.inFlightUpdates = [] := by
        obtain ⟨hsame, -⟩ := haccepted hseq.le
        have hsent : next.sentUpdates = run.sentUpdates := by
          rw [hsame]
          rfl
        have hreports : paintedUpdateReport.updateSequence ∈ next.acceptedReports := by
          rw [hsame]
          exact mem_cons_self
        rw [← hnext.filter_sentUpdates.1, filter_eq_nil_iff]
        intro update hupdate hall
        rw [hsent] at hupdate
        have hle := le_getLast_of_sorted hinv.sorted hupdate
        have habove := List.all_eq_true.1 hall _ hreports
        rw [decide_eq_true_iff, hseq] at habove
        exact absurd hle (not_le.2 habove)
      rw [canSendUpdate, hempty]
      rfl
    · intro hle
      obtain ⟨hsame, hsize⟩ := haccepted hle
      refine ⟨hsize, fun hthird => ?_⟩
      rw [hsame]
      exact if_pos hthird

instance : DecidablePred run.Allows
  | .send .. => inferInstanceAs (Decidable (_ ∧ _ ∧ _ ∧ ∀ sent ∈ run.sentUpdates, _ ∧ _))
  | .report _ => isTrue trivial

/-- The operations one after another, each of them allowed. -/
def runAllowed : List PaintOperation → PaintRun → Option PaintRun
  | [], run => some run
  | op :: ops, run => if run.Allows op then (run.apply op).bind (runAllowed ops) else none

theorem Reachable.runAllowed {last : PaintRun} (ops : List PaintOperation) (hreach : run.Reachable)
    (hlast : PaintRun.runAllowed ops run = some last) : last.Reachable := by
  induction ops generalizing run with
  | nil => rwa [← Option.some.inj hlast]
  | cons op ops ih =>
    rw [PaintRun.runAllowed] at hlast
    split_ifs at hlast with hallows
    obtain ⟨next, happly, hrest⟩ := bind_eq_some_iff.1 hlast
    exact ih (.step hreach hallows happly) hrest

/-- Three updates that fill the window, each reported twenty milliseconds after it went out, a report of an update that
was not sent, and one more update. -/
def fillingOperations : List PaintOperation :=
  [.send 1 0 70000 ⟨0, by decide⟩ ⟨0, by decide⟩, .report ⟨1, ⟨20000000, by decide⟩⟩,
    .send 2 70000 140000 ⟨30000000, by decide⟩ ⟨30000000, by decide⟩, .report ⟨2, ⟨50000000, by decide⟩⟩,
    .send 3 140000 210000 ⟨60000000, by decide⟩ ⟨60000000, by decide⟩, .report ⟨9, ⟨70000000, by decide⟩⟩,
    .report ⟨3, ⟨80000000, by decide⟩⟩, .send 4 210000 280000 ⟨90000000, by decide⟩ ⟨90000000, by decide⟩]

/-- The third measurement doubles the window, and the last update alone is in flight. -/
theorem paintWindow_flowControl_fillingRun : ∃ run, runAllowed fillingOperations .new = some run ∧
    run.window.windowByteCount = 2 * initialWindowByteCount ∧ run.acceptedReports = [3, 2, 1] ∧
    run.window.inFlightUpdates =
      run.sentUpdates.filter fun update =>
        run.acceptedReports.all fun reported => reported < update.updateSequence := by
  have hfacts : (runAllowed fillingOperations .new).map (fun run => (run.window.windowByteCount, run.acceptedReports)) =
      some (2 * initialWindowByteCount, [3, 2, 1]) := by decide +kernel
  obtain ⟨run, hrun, hfacts⟩ := map_eq_some_iff.1 hfacts
  obtain ⟨hwindow, hreports⟩ := Prod.mk.inj hfacts
  have hreach : run.Reachable := Reachable.new.runAllowed fillingOperations hrun
  exact ⟨run, hrun, hwindow, hreports, (paintWindow_flowControl run hreach).2.2.1⟩

end PaintRun

end Koshi.Runtime
