import Koshi.Base.Loop
import Koshi.Base.Thinned
import Koshi.Runtime.DeliveryQueue

/-!
# What the delivery queue loses

Under every interleaving of the bus, the writing thread and the reading thread, a delivery is lost only when it is a
frame and the delivery accepted right after it is a frame, and a paint report taken is the newest of those that waited.
-/

namespace Koshi.Runtime

open Base List DeliveryQueueState

variable {α : Type}

/-- A frame gives way to the frame accepted right after it. -/
def Supersedes (earlier later : Delivery α) : Prop := (∃ old, earlier = .frame old) ∧ ∃ new, later = .frame new

namespace DeliveryHistory

/-- A queue in the middle of a run: the deliveries, and the reports. -/
structure Delivers (h : DeliveryHistory α) (capacity : Nat) : Prop where
  capacity_eq : h.queueState.capacity = capacity
  length_le : h.queueState.deliveries.length ≤ capacity
  thins : ∃ lost, Thins Supersedes h.accepted (h.received ++ h.queueState.deliveries ++ lost) ∧
    (h.queueState.isReceiverClosed = false → lost = [])
  closed : h.queueState.isReceiverClosed = true → h.queueState.deliveries = []

/-- The report is the newest of the list. -/
def IsNewest (report : PaintedUpdateReport) (reports : List PaintedUpdateReport) : Prop :=
  report ∈ reports ∧ ∀ r ∈ reports, r.updateSequence ≤ report.updateSequence

structure Reports (h : DeliveryHistory α) : Prop where
  waiting : ∀ report, h.queueState.paintedUpdateReport = some report → IsNewest report h.reports
  noneWaits : h.queueState.paintedUpdateReport = none → h.reports = []
  taken : ∀ entry ∈ h.taken, IsNewest entry.1 entry.2

variable {h : DeliveryHistory α} {capacity : Nat} {q : DeliveryQueueState α}

/-! ### One step -/

theorem trySend_ok {d : Delivery α} (hok : h.queueState.trySend d = .ok q) :
    h.queueState.isReceiverClosed = false ∧ h.queueState.deliveries.length < h.queueState.capacity ∧
      q = { h.queueState with deliveries := h.queueState.deliveries ++ [d] } := by
  unfold trySend at hok
  split_ifs at hok with hc hfull
  cases hok
  exact ⟨by simpa using hc, Nat.lt_of_not_le hfull, rfl⟩

/-- A frame accepted is put at the tail, or takes the place of the frame there. -/
theorem trySendFrame_ok {f : α} (hok : h.queueState.trySendFrame f = .ok q) :
    h.queueState.trySend (.frame f) = .ok q ∨ h.queueState.isReceiverClosed = false ∧
      ∃ ds old, h.queueState.deliveries = ds ++ [.frame old] ∧
        q = { h.queueState with deliveries := ds ++ [.frame f] } := by
  unfold trySendFrame at hok
  split_ifs at hok with hc
  split at hok
  · next old hlast =>
    obtain ⟨ds, hds⟩ := getLast?_eq_some_iff.1 hlast
    cases hok
    exact .inr ⟨by simpa using hc, ds, old, hds, by rw [hds, dropLast_concat]⟩
  · exact .inl hok

/-- A pass of the paced receive takes the report that waits, or the head, or nothing. -/
theorem step_recvPaced (h : DeliveryHistory α) (isAllowed isEnding isPast : Bool) :
    let later := h.step (.recvPaced isAllowed isEnding isPast)
    (∃ r, h.queueState.paintedUpdateReport = some r ∧ later =
      { h with queueState := { h.queueState with paintedUpdateReport := none }, reports := [],
               taken := h.taken ++ [(r, h.reports)] }) ∨
    (∃ d ds, h.queueState.deliveries = d :: ds ∧ later =
      { h with queueState := { h.queueState with deliveries := ds }, received := h.received ++ [d] }) ∨
    later = h := by
  dsimp only [DeliveryHistory.step, recvPaced]
  cases hw : h.queueState.paintedUpdateReport with
  | some r => exact .inl ⟨r, rfl, rfl⟩
  | none =>
    dsimp only
    by_cases hending : isEnding = true
    · rw [if_pos hending]
      exact .inr (.inr rfl)
    · rw [if_neg hending]
      cases hds : h.queueState.deliveries with
      | nil =>
        dsimp only [recvPaced.holdOn]
        split_ifs <;> exact .inr (.inr rfl)
      | cons d ds =>
        dsimp only [recvPaced.holdOn]
        split_ifs with hheld hpast
        · exact .inr (.inr rfl)
        · exact .inr (.inr rfl)
        · exact .inr (.inl ⟨d, ds, rfl, rfl⟩)

namespace Delivers

theorem put (hd : h.Delivers capacity) {d : Delivery α} (hok : h.queueState.trySend d = .ok q) :
    ({ h with queueState := q, accepted := h.accepted ++ [d] } : DeliveryHistory α).Delivers capacity := by
  obtain ⟨hc, hlt, rfl⟩ := trySend_ok hok
  obtain ⟨lost, ht, hlost⟩ := hd.thins
  obtain rfl := hlost hc
  refine ⟨hd.capacity_eq, ?_, ⟨[], ?_, fun _ => rfl⟩, fun hcl => absurd (hc.symm.trans hcl) Bool.false_ne_true⟩
  · have := hd.capacity_eq
    simp only [length_append, length_singleton]
    omega
  · simpa using ht.append_singleton d

theorem send (hd : h.Delivers capacity) (f : α) :
    (h.send (.frame f) (h.queueState.trySendFrame f)).Delivers capacity := by
  cases hok : h.queueState.trySendFrame f with
  | error e => exact hd
  | ok q =>
    rcases trySendFrame_ok hok with hput | ⟨hc, ds, old, hds, rfl⟩
    · exact hd.put hput
    · obtain ⟨lost, ht, hlost⟩ := hd.thins
      obtain rfl := hlost hc
      rw [hds, append_nil, ← append_assoc] at ht
      refine ⟨hd.capacity_eq, ?_, ⟨[], ?_, fun _ => rfl⟩, fun hcl => absurd (hc.symm.trans hcl) Bool.false_ne_true⟩
      · have := hd.length_le
        rw [hds] at this
        simpa [DeliveryHistory.send] using this
      · simpa [DeliveryHistory.send] using ht.replace_last ⟨⟨old, rfl⟩, f, rfl⟩

/-- The head is handed out. -/
theorem take (hd : h.Delivers capacity) {d : Delivery α} {ds : List (Delivery α)}
    (hds : h.queueState.deliveries = d :: ds) :
    ({ h with queueState := { h.queueState with deliveries := ds }, received := h.received ++ [d] } :
      DeliveryHistory α).Delivers capacity := by
  obtain ⟨lost, ht, hlost⟩ := hd.thins
  have hlen := hd.length_le
  rw [hds] at ht hlen
  refine ⟨hd.capacity_eq, (Nat.le_succ _).trans hlen, ⟨lost, by simpa using ht, hlost⟩, fun hc => ?_⟩
  rw [hd.closed hc] at hds
  cases hds

theorem step (hd : h.Delivers capacity) (s : DeliveryStep α) : (h.step s).Delivers capacity := by
  cases s with
  | trySend d =>
    rw [DeliveryHistory.step]
    cases hok : h.queueState.trySend d with
    | error e => exact hd
    | ok q => exact hd.put hok
  | trySendFrame f => exact hd.send f
  | tryRecv =>
    rw [DeliveryHistory.step, tryRecv]
    cases hds : h.queueState.deliveries with
    | nil => exact hd
    | cons d ds => exact hd.take hds
  | recvPaced isAllowed isEnding isPast =>
    rcases h.step_recvPaced isAllowed isEnding isPast with
      ⟨r, -, hstep⟩ | ⟨d, ds, hds, hstep⟩ | hstep
    · rw [hstep]
      exact { hd with }
    · rw [hstep]
      exact hd.take hds
    · rwa [hstep]
  | reportPaintedUpdate report =>
    rw [DeliveryHistory.step, reportPaintedUpdate]
    split_ifs <;> exact { hd with }
  | dropSender => exact { hd with }
  | dropReceiver =>
    obtain ⟨lost, ht, -⟩ := hd.thins
    exact ⟨hd.capacity_eq, Nat.zero_le _,
      ⟨h.queueState.deliveries ++ lost, by simpa [DeliveryHistory.step, dropReceiver] using ht, nofun⟩,
      fun _ => rfl⟩

end Delivers

theorem IsNewest.add {report : PaintedUpdateReport} {reports : List PaintedUpdateReport} (hn : IsNewest report reports)
    (r : PaintedUpdateReport) :
    IsNewest (if report.updateSequence ≤ r.updateSequence then r else report) (reports ++ [r]) := by
  obtain ⟨hmem, hle⟩ := hn
  split_ifs with hnew
  · refine ⟨by simp, fun s hs => ?_⟩
    rcases mem_append.1 hs with hs | hs
    · exact (hle s hs).trans hnew
    · rw [mem_singleton.1 hs]
  · refine ⟨mem_append_left _ hmem, fun s hs => ?_⟩
    rcases mem_append.1 hs with hs | hs
    · exact hle s hs
    · rw [mem_singleton.1 hs]
      exact (Nat.lt_of_not_le hnew).le

namespace Reports

theorem report (hr : h.Reports) (r : PaintedUpdateReport) : (h.step (.reportPaintedUpdate r)).Reports := by
  cases hw : h.queueState.paintedUpdateReport with
  | none =>
    have hstep : h.step (.reportPaintedUpdate r) =
        { h with queueState := { h.queueState with paintedUpdateReport := some r }, reports := [r] } := by
      simp [DeliveryHistory.step, reportPaintedUpdate, hw, hr.noneWaits hw]
    rw [hstep]
    refine ⟨fun s hs => ?_, nofun, hr.taken⟩
    cases hs
    exact ⟨mem_singleton_self r, fun s hs => by rw [mem_singleton.1 hs]⟩
  | some waiting =>
    have hstep : h.step (.reportPaintedUpdate r) = { h with
        queueState := { h.queueState with
          paintedUpdateReport := some (if waiting.updateSequence ≤ r.updateSequence then r else waiting) }
        reports := h.reports ++ [r] } := by
      simp only [DeliveryHistory.step, reportPaintedUpdate, hw, Option.all_some, decide_eq_true_eq]
      split_ifs
      · rfl
      · rw [← hw]
    rw [hstep]
    refine ⟨fun s hs => ?_, nofun, hr.taken⟩
    cases hs
    exact (hr.waiting waiting hw).add r

theorem step (hr : h.Reports) (s : DeliveryStep α) : (h.step s).Reports := by
  cases s with
  | trySend d =>
    rw [DeliveryHistory.step]
    cases hok : h.queueState.trySend d with
    | error e => exact hr
    | ok q =>
      obtain ⟨-, -, rfl⟩ := trySend_ok hok
      exact { hr with }
  | trySendFrame f =>
    rw [DeliveryHistory.step]
    cases hok : h.queueState.trySendFrame f with
    | error e => exact hr
    | ok q =>
      rcases trySendFrame_ok hok with hput | ⟨-, ds, old, -, rfl⟩
      · obtain ⟨-, -, rfl⟩ := trySend_ok hput
        exact { hr with }
      · exact { hr with }
  | tryRecv =>
    rw [DeliveryHistory.step, tryRecv]
    cases h.queueState.deliveries <;> exact { hr with }
  | recvPaced isAllowed isEnding isPast =>
    rcases h.step_recvPaced isAllowed isEnding isPast with
      ⟨r, hw, hstep⟩ | ⟨d, ds, -, hstep⟩ | hstep
    · rw [hstep]
      refine ⟨nofun, fun _ => rfl, fun entry hmem => ?_⟩
      rcases mem_append.1 hmem with hmem | hmem
      · exact hr.taken entry hmem
      · rw [mem_singleton.1 hmem]
        exact hr.waiting r hw
    · rw [hstep]
      exact { hr with }
    · rwa [hstep]
  | reportPaintedUpdate r => exact hr.report r
  | dropSender => exact { hr with }
  | dropReceiver => exact { hr with }

end Reports

theorem run_invariants (capacity : Nat) (steps : List (DeliveryStep α)) :
    (run capacity steps).Delivers capacity ∧ (run capacity steps).Reports := by
  refine foldl_keeps (fun h : DeliveryHistory α => h.Delivers capacity ∧ h.Reports) ⟨?_, ?_⟩
    fun h hinv s _ => ⟨hinv.1.step s, hinv.2.step s⟩
  · exact ⟨rfl, Nat.zero_le _, ⟨[], .nil, fun _ => rfl⟩, fun _ => rfl⟩
  · exact ⟨fun _ => nofun, fun _ => rfl, fun _ => nofun⟩

end DeliveryHistory

open DeliveryHistory

/-- **The queue loses only superseded frames.** After any interleaving of steps the queue holds no more than its
capacity, and while the receiver is there, the deliveries handed out and then those queued are the accepted ones in
order, less frames whose next accepted delivery is a frame. -/
theorem deliveryQueue_keeps_order (capacity : Nat) (steps : List (DeliveryStep α)) :
    (run capacity steps).queueState.deliveries.length ≤ capacity ∧
      ((run capacity steps).queueState.isReceiverClosed = false →
        Thins Supersedes (run capacity steps).accepted
          ((run capacity steps).received ++ (run capacity steps).queueState.deliveries)) := by
  obtain ⟨hd, -⟩ := run_invariants capacity steps
  refine ⟨hd.length_le, fun hopen => ?_⟩
  obtain ⟨lost, hthins, hlost⟩ := hd.thins
  rwa [hlost hopen, append_nil] at hthins

/-- **Paint reports.** Every report taken is one that came since the report taken before it, and none that came since
then names a higher update. -/
theorem deliveryQueue_takes_newest (capacity : Nat) (steps : List (DeliveryStep α)) :
    ∀ entry ∈ (run capacity steps).taken, entry.1 ∈ entry.2 ∧
      ∀ report ∈ entry.2, report.updateSequence ≤ entry.1.updateSequence :=
  (run_invariants capacity steps).2.taken

/-- A report that comes after a report of a higher update. -/
theorem deliveryQueue_takes_newest_stale :
    let reports : List PaintedUpdateReport := [⟨2, ⟨0, by decide⟩⟩, ⟨1, ⟨0, by decide⟩⟩]
    ⟨2, ⟨0, by decide⟩⟩ ∈ reports ∧ ∀ report ∈ reports, report.updateSequence ≤ 2 :=
  deliveryQueue_takes_newest (α := Unit) 1 [.reportPaintedUpdate ⟨2, ⟨0, by decide⟩⟩,
    .reportPaintedUpdate ⟨1, ⟨0, by decide⟩⟩, .recvPaced true false false] (⟨2, ⟨0, by decide⟩⟩, _) (.head _)

end Koshi.Runtime
