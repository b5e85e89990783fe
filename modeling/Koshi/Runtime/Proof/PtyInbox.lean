import Mathlib.Tactic
import Koshi.Base.History
import Koshi.Runtime.PtyInbox

/-!
# Pane output is delivered

A wake is a token: while a queue is open and its wake flag is up, exactly one of these holds it: a call that is about to
send the wake, the inbox, the turn rotation, or the pane being served. A queue with something in it has its flag up, so
no wake is lost. Beside the tokens the invariant says that an open queue is held and registered, so a pane has one open
queue at most, and that what was handed over from a queue and what is still in it are together what was pushed.
-/

namespace Koshi.Runtime

open Koshi.Core List Option Function PaneOutputQueue PaneOutputWorld

/-! ### One queue -/

theorem listOutputs_append (events later : List PaneEvent) :
    listOutputs (events ++ later) = listOutputs events ++ listOutputs later :=
  filterMap_append

theorem listOutputs_map_output (chunks : List (List UInt8)) : listOutputs (chunks.map .output) = chunks := by
  induction chunks with
  | nil => rfl
  | cons chunk chunks ih => exact congrArg (chunk :: ·) ih

def countChunkBytes (chunks : List (List UInt8)) : Nat := (chunks.map List.length).sum

theorem countChunkBytes_append (chunks laterChunks : List (List UInt8)) :
    countChunkBytes (chunks ++ laterChunks) = countChunkBytes chunks + countChunkBytes laterChunks := by
  rw [countChunkBytes, map_append, sum_append]
  rfl

theorem takeChunks_spec (qd chunks : List (List UInt8)) :
    ∃ taken left, chunks ++ qd = taken ++ left ∧
      takeChunks chunks (countChunkBytes chunks) qd = (taken, countChunkBytes taken, left) := by
  induction qd generalizing chunks with
  | nil => exact ⟨chunks, [], rfl, rfl⟩
  | cons nextChunk qd ih =>
    rw [takeChunks]
    split_ifs
    · exact ⟨chunks, nextChunk :: qd, rfl, rfl⟩
    · obtain ⟨taken, left, hchunks, htake⟩ := ih (chunks ++ [nextChunk])
      refine ⟨taken, left, ?_, ?_⟩
      · rw [← hchunks, append_assoc]
        rfl
      · rw [← htake, countChunkBytes_append]
        rfl

/-- Every exit handed over came after all the chunks pushed before it. -/
def ExitsFollowChunks (pushedEvents fedEvents : List PaneEvent) : Prop :=
  ∀ earlierEvents status laterEvents, fedEvents = earlierEvents ++ .exit status :: laterEvents →
    ∃ pushedBefore pushedAfter, pushedEvents = pushedBefore ++ .exit status :: pushedAfter ∧
      listOutputs pushedBefore <+: listOutputs earlierEvents

section

variable {pushedEvents fedEvents : List PaneEvent}

section

variable (h : ExitsFollowChunks pushedEvents fedEvents)

include h

theorem ExitsFollowChunks.push (event : PaneEvent) : ExitsFollowChunks (pushedEvents ++ [event]) fedEvents := by
  intro earlier status later hfed
  obtain ⟨before, pushedAfter, hpu, hchunks⟩ := h earlier status later hfed
  refine ⟨before, pushedAfter ++ [event], ?_, hchunks⟩
  rw [hpu, append_assoc]
  rfl

theorem ExitsFollowChunks.feedOutput (chunk : List UInt8) :
    ExitsFollowChunks pushedEvents (fedEvents ++ [.output chunk]) := by
  intro earlier status later hfed
  rcases eq_nil_or_concat later with rfl | ⟨midEvents, lastEvent, rfl⟩
  · cases (append_inj' hfed rfl).2
  · rw [concat_eq_append, ← cons_append, ← append_assoc] at hfed
    exact h earlier status midEvents (append_inj' hfed rfl).1

theorem ExitsFollowChunks.feedOutputs (chunks : List (List UInt8)) :
    ExitsFollowChunks pushedEvents (fedEvents ++ chunks.map .output) := by
  induction chunks generalizing fedEvents with
  | nil => rwa [map_nil, append_nil]
  | cons chunk chunks ih =>
    rw [map_cons, append_cons]
    exact ih (h.feedOutput chunk)

theorem ExitsFollowChunks.feedExit {status : ExitStatus} (hpu : .exit status ∈ pushedEvents)
    (hall : listOutputs pushedEvents <+: listOutputs fedEvents) :
    ExitsFollowChunks pushedEvents (fedEvents ++ [.exit status]) := by
  intro earlier otherStatus later hfed
  rcases eq_nil_or_concat later with rfl | ⟨midEvents, lastEvent, rfl⟩
  · obtain ⟨rfl, hl⟩ := append_inj' hfed rfl
    cases hl
    obtain ⟨before, pushedAfter, rfl⟩ := append_of_mem hpu
    refine ⟨before, pushedAfter, rfl, ?_⟩
    rw [listOutputs_append] at hall
    exact (prefix_append _ _).trans hall
  · rw [concat_eq_append, ← cons_append, ← append_assoc] at hfed
    exact h earlier otherStatus midEvents (append_inj' hfed rfl).1

end

end

namespace PaneOutputQueue

structure Ok (queue : PaneOutputQueue) : Prop where
  bytes : queue.queueState.queuedByteCount = countChunkBytes queue.queueState.outputChunks
  waked : queue.queueState.outputChunks ≠ [] ∨ queue.queueState.exitStatus ≠ none → queue.queueState.isWakeSent = true
  chunks : queue.queueState.isClosed = false →
    listOutputs queue.pushedEvents = listOutputs queue.fedEvents ++ queue.queueState.outputChunks
  fed : listOutputs queue.fedEvents <+: listOutputs queue.pushedEvents
  exit : ∀ status, queue.queueState.exitStatus = some status → .exit status ∈ queue.pushedEvents
  exits : ExitsFollowChunks queue.pushedEvents queue.fedEvents

theorem ok_start (paneId : PaneId) : (start paneId).Ok where
  bytes := rfl
  waked := by rintro (h | h) <;> exact absurd rfl h
  chunks _ := rfl
  fed := prefix_rfl
  exit _ h := by cases h
  exits earlier status laterEvents h := by
    cases earlier <;> cases h

variable {queue : PaneOutputQueue}

theorem Ok.accept (h : queue.Ok) (hop : queue.queueState.isClosed = false) (event : PaneEvent) :
    (queue.accept event).Ok := by
  have hexits := h.exits.push event
  have hfed : listOutputs queue.fedEvents <+: listOutputs (queue.pushedEvents ++ [event]) := by
    rw [listOutputs_append]
    exact h.fed.trans (prefix_append _ _)
  cases event with
  | output chunk =>
    refine ⟨?_, fun _ => rfl, fun _ => ?_, hfed, ?_, hexits⟩
    · rw [PaneOutputQueue.accept, PaneOutputQueueState.accept, h.bytes, countChunkBytes_append]
      simp [countChunkBytes]
    · rw [PaneOutputQueue.accept, listOutputs_append, h.chunks hop, append_assoc]
      rfl
    · intro status hexit
      exact mem_append_left _ (h.exit status hexit)
  | exit status =>
    refine ⟨h.bytes, fun _ => rfl, fun _ => ?_, hfed, ?_, hexits⟩
    · rw [PaneOutputQueue.accept, listOutputs_append, h.chunks hop]
      exact append_nil _
    · intro otherStatus hexit
      obtain rfl := some_inj.1 hexit
      exact mem_append_right _ mem_cons_self

theorem Ok.close (h : queue.Ok) : queue.close.Ok where
  __ := h
  bytes := rfl
  waked := by rintro (h | h) <;> exact absurd rfl h
  chunks hop := by cases hop
  exit _ h := by cases h

/-- What a turn does: it hands over the front of the queue, and the exit with the last chunk. -/
theorem takeOutputTurn_eq (h : queue.Ok) :
    ∃ taken left, queue.queueState.outputChunks = taken ++ left ∧
      queue.takeOutputTurn = (⟨taken, if left = [] then queue.queueState.exitStatus else none,
        decide (left ≠ [])⟩, { queue with
          queueState := { queue.queueState with
            outputChunks := left
            queuedByteCount := countChunkBytes left
            exitStatus := if left = [] then none else queue.queueState.exitStatus
            isWakeSent := decide (left ≠ []) && queue.queueState.isWakeSent }
          fedEvents := queue.fedEvents ++ taken.map .output ++
            (if left = [] then queue.queueState.exitStatus else none).toList.map .exit }) := by
  obtain ⟨taken, left, hchunks, htake⟩ := takeChunks_spec queue.queueState.outputChunks []
  rw [nil_append] at hchunks
  rw [show countChunkBytes [] = 0 from rfl] at htake
  refine ⟨taken, left, hchunks, ?_⟩
  have hby : queue.queueState.queuedByteCount - countChunkBytes taken = countChunkBytes left := by
    rw [h.bytes, hchunks, countChunkBytes_append]
    omega
  simp only [takeOutputTurn, PaneOutputQueueState.takeOutputTurn, htake, hby, PaneOutputTurn.listEvents, append_assoc]
  by_cases hleft : left = []
  · simp [hleft]
  · simp [hleft]

theorem takeOutputTurn_paneId (queue : PaneOutputQueue) : queue.takeOutputTurn.2.paneId = queue.paneId := rfl

theorem takeOutputTurn_fedEvents (queue : PaneOutputQueue) :
    queue.takeOutputTurn.2.fedEvents = queue.fedEvents ++ queue.takeOutputTurn.1.listEvents := rfl

theorem takeOutputTurn_isClosed (queue : PaneOutputQueue) :
    queue.takeOutputTurn.2.queueState.isClosed = queue.queueState.isClosed := rfl

theorem takeOutputTurn_isWakeSent (queue : PaneOutputQueue) :
    queue.takeOutputTurn.2.queueState.isWakeSent =
      if queue.takeOutputTurn.1.hasMoreOutput then queue.queueState.isWakeSent else false := rfl

theorem Ok.takeOutputTurn (h : queue.Ok) (hop : queue.queueState.isClosed = false) : queue.takeOutputTurn.2.Ok := by
  obtain ⟨taken, left, hchunks, hturn⟩ := takeOutputTurn_eq h
  have hpu : listOutputs queue.pushedEvents = listOutputs (queue.fedEvents ++ taken.map .output) ++ left := by
    rw [h.chunks hop, hchunks, listOutputs_append, listOutputs_map_output, append_assoc]
  have hfed := h.exits.feedOutputs taken
  rw [hturn]
  by_cases hleft : left = []
  · rw [hleft, append_nil] at hpu
    simp only [hleft, if_true]
    cases hexit : queue.queueState.exitStatus with
    | none =>
      simp only [toList_none, map_nil, append_nil]
      exact ⟨rfl, by simp, fun _ => by rw [hpu, append_nil], hpu ▸ prefix_rfl, by simp, hfed⟩
    | some status =>
      have houts : listOutputs (queue.fedEvents ++ taken.map .output ++ [.exit status]) =
          listOutputs queue.pushedEvents := by
        rw [listOutputs_append, hpu]
        exact append_nil _
      simp only [toList_some, map_cons, map_nil]
      exact ⟨rfl, by simp, fun _ => by rw [houts, append_nil], houts ▸ prefix_rfl, by simp,
        hfed.feedExit (h.exit status hexit) (hpu ▸ prefix_rfl)⟩
  · simp only [hleft, if_false, toList_none, map_nil, append_nil]
    refine ⟨rfl, fun _ => ?_, fun _ => hpu, ⟨left, hpu.symm⟩, h.exit, hfed⟩
    have hso : queue.queueState.outputChunks ≠ [] := by
      rw [hchunks]
      exact append_ne_nil_of_right_ne_nil _ hleft
    simp [hleft, h.waked (.inl hso)]

end PaneOutputQueue

/-! ### The invariant -/

namespace PaneOutputWorld

/-- The turns in the rotation, or in the making, that the queue will be asked for. -/
def countTurns (world : PaneOutputWorld) (queueId : Nat) : Nat :=
  if world.paneOutputQueueByPaneId (world.queueById queueId).paneId = some queueId then
    world.readyOutputPaneIds.count (world.queueById queueId).paneId +
      world.servedPaneId.toList.count (world.queueById queueId).paneId
  else 0

/-- The wakes of the queue that are about to be sent or wait in the inbox. -/
def countSentWakes (world : PaneOutputWorld) (queueId : Nat) : Nat :=
  world.sinkCalls.count ⟨queueId, .sendsWake⟩ + world.inboxWakes.count queueId

structure OpenInv (world : PaneOutputWorld) : Prop where
  started : ∀ queueId, world.IsHeld queueId → queueId < world.queueCount
  registeredPane : ∀ paneId queueId, world.registeredQueueByPaneId paneId = some queueId →
    (world.queueById queueId).paneId = paneId ∧ queueId < world.queueCount
  heldPane : ∀ paneId queueId, world.paneOutputQueueByPaneId paneId = some queueId →
    (world.queueById queueId).paneId = paneId ∧ paneId ∈ world.livePaneIds ∧
      (world.queueById queueId).queueState.isClosed = false
  phases : ∀ call ∈ world.sinkCalls, call.phase = .sendsWake ∨ ∃ event, call.phase = .holdsQueue event
  registered : ∀ queueId < world.queueCount, (world.queueById queueId).queueState.isClosed = false →
    world.registeredQueueByPaneId (world.queueById queueId).paneId = some queueId ∧ world.IsHeld queueId
  closing : ∀ queueId, world.closingQueueId = some queueId → (world.queueById queueId).queueState.isClosed = true
  spawned : world.livePaneIds ⊆ world.spawnedPaneIds
  wakes_le : ∀ queueId, world.countSentWakes queueId + world.countTurns queueId ≤ 1
  wakes : ∀ queueId < world.queueCount, (world.queueById queueId).queueState.isClosed = false →
    world.countSentWakes queueId + world.countTurns queueId = (world.queueById queueId).queueState.isWakeSent.toNat
  stale : ∀ queueId, (world.queueById queueId).queueState.isClosed = true → 0 < world.countSentWakes queueId →
    (world.queueById queueId).paneId ∈ world.spawnedPaneIds ∧ (world.queueById queueId).paneId ∉ world.livePaneIds
  ready : ∀ paneId, paneId ∈ world.readyOutputPaneIds ∨ world.servedPaneId = some paneId →
    paneId ∈ world.spawnedPaneIds ∧ (paneId ∈ world.livePaneIds → world.paneOutputQueueByPaneId paneId ≠ none)
  engine : ∀ paneId queueId, world.paneOutputQueueByPaneId paneId = some queueId →
    world.engineEventsByPaneId paneId = (world.queueById queueId).fedEvents
  idle : ∀ paneId, (paneId ∈ world.spawnedPaneIds → paneId ∈ world.livePaneIds) →
    world.paneOutputQueueByPaneId paneId = none → world.engineEventsByPaneId paneId = []
  unserved : ∀ queueId < world.queueCount, (world.queueById queueId).queueState.isClosed = false →
    world.paneOutputQueueByPaneId (world.queueById queueId).paneId ≠ some queueId →
      (world.queueById queueId).fedEvents = []

/-- What is true of every world that steps reach. -/
structure Inv (world : PaneOutputWorld) : Prop where
  ok : ∀ queueId, (world.queueById queueId).Ok
  inboxOpen : world.isInboxOpen = true → world.OpenInv
  inboxClosed : world.isInboxOpen = false → world.livePaneIds = ∅ ∧ world.inboxWakes = []

theorem inv_initial (shouldWaitForQueueRoom : Bool) : (initial shouldWaitForQueueRoom).Inv where
  ok _ := ok_start ⟨0⟩
  inboxClosed h := by cases h
  inboxOpen _ := by
    constructor <;> simp [initial, IsHeld, countSentWakes, countTurns]

variable {world : PaneOutputWorld}

variable {paneId : PaneId} {queueId changedId : Nat} {inboxWakes : List Nat} {after : PaneOutputWorld}

variable {queueById : Nat → PaneOutputQueue}

theorem ok_update (h : ∀ queueId, (queueById queueId).Ok) (changedId : Nat) {queue : PaneOutputQueue} (hq : queue.Ok)
    (queueId : Nat) :
    (update queueById changedId queue queueId).Ok :=
  (forall_update_iff queueById fun _ queue => queue.Ok).2 ⟨hq, fun j _ => h j⟩ queueId

/-! ### The dispatcher's steps -/

theorem OpenInv.parkPanePty (h : world.OpenInv) (hfresh : paneId ∉ world.spawnedPaneIds) :
    (world.parkPanePty paneId).OpenInv where
  __ := h
  heldPane heldPaneId queueId hh := by
    obtain ⟨hpa, hlive, hop⟩ := h.heldPane heldPaneId queueId hh
    exact ⟨hpa, Finset.mem_insert_of_mem hlive, hop⟩
  spawned := Finset.insert_subset_insert paneId h.spawned
  stale queueId hcz hsent := by
    obtain ⟨hsw, hdead⟩ := h.stale queueId hcz hsent
    refine ⟨Finset.mem_insert_of_mem hsw, ?_⟩
    simp only [PaneOutputWorld.parkPanePty, Finset.mem_insert, not_or]
    exact ⟨fun hs => hfresh (hs ▸ hsw), hdead⟩
  ready readyId hrdy := by
    obtain ⟨hsw, hh⟩ := h.ready readyId hrdy
    refine ⟨Finset.mem_insert_of_mem hsw, fun hlive => hh ?_⟩
    rcases Finset.mem_insert.1 hlive with rfl | hlive
    · exact absurd hsw hfresh
    · exact hlive
  idle idlePaneId halive hnone := by
    by_cases hs : idlePaneId = paneId
    · exact h.idle idlePaneId (fun hsw => absurd (hs ▸ hsw) hfresh) hnone
    · refine h.idle idlePaneId (fun hsw => ?_) hnone
      exact (Finset.mem_insert.1 (halive (Finset.mem_insert_of_mem hsw))).resolve_left hs

theorem OpenInv.putBack (h : world.OpenInv) (hsrv : world.servedPaneId = some paneId) :
    OpenInv { world with readyOutputPaneIds := world.readyOutputPaneIds ++ [paneId], servedPaneId := none } := by
  have hturns : ∀ queueId, countTurns { world with
      readyOutputPaneIds := world.readyOutputPaneIds ++ [paneId], servedPaneId := none } queueId =
        world.countTurns queueId := by
    intro queueId
    simp only [countTurns, hsrv, count_append, toList_some, toList_none, count_nil, Nat.add_zero]
  exact { h with
    wakes_le := fun queueId => (congrArg (_ + ·) (hturns queueId)).trans_le (h.wakes_le queueId)
    wakes := fun queueId hstart hop =>
      (congrArg (_ + ·) (hturns queueId)).trans (h.wakes queueId hstart hop)
    ready := by
      rintro readyId (hrdy | hrdy)
      · rcases mem_append.1 hrdy with hrdy | hrdy
        · exact h.ready readyId (.inl hrdy)
        · exact h.ready readyId (.inr (mem_singleton.1 hrdy ▸ hsrv))
      · cases hrdy
    unserved := h.unserved }

theorem leaveQueueRegistry_eq (world : PaneOutputWorld) (leavingQId : Nat) :
    ∃ registry, world.leaveQueueRegistry leavingQId = { world with registeredQueueByPaneId := registry } ∧
      (∀ paneId queueId, registry paneId = some queueId → world.registeredQueueByPaneId paneId = some queueId) ∧
      ∀ paneId queueId, queueId ≠ leavingQId → world.registeredQueueByPaneId paneId = some queueId →
        registry paneId = some queueId := by
  rw [leaveQueueRegistry]
  split_ifs with hown
  · refine ⟨_, rfl, fun paneId queueId he => ?_, fun paneId queueId ho he => ?_⟩
    · by_cases hs : paneId = (world.queueById leavingQId).paneId
      · rw [hs, update_self] at he
        cases he
      · rwa [update_of_ne hs] at he
    · have hs : paneId ≠ (world.queueById leavingQId).paneId := by
        rintro rfl
        exact ho (some_inj.1 (he.symm.trans hown))
      rwa [update_of_ne hs]
  · exact ⟨world.registeredQueueByPaneId, rfl, fun _ _ he => he, fun _ _ _ he => he⟩

theorem OpenInv.leaveRegistry (h : world.OpenInv) {closingQueueId : Nat}
    (hcl : world.closingQueueId = some closingQueueId) :
    OpenInv { world.leaveQueueRegistry closingQueueId with closingQueueId := none } := by
  obtain ⟨registry, hleave, hk, hothers⟩ := world.leaveQueueRegistry_eq closingQueueId
  rw [hleave]
  have hh : ∀ queueId, queueId ≠ closingQueueId → world.IsHeld queueId →
      IsHeld { world with registeredQueueByPaneId := registry, closingQueueId := none } queueId := by
    rintro queueId ho (hca | hwake | hsrv | hcz)
    · exact .inl hca
    · exact .inr (.inl hwake)
    · exact .inr (.inr (.inl hsrv))
    · exact absurd (some_inj.1 (hcz.symm.trans hcl)) ho
  exact { h with
    started := by
      rintro queueId (hca | hwake | hsrv | hcz)
      · exact h.started queueId (.inl hca)
      · exact h.started queueId (.inr (.inl hwake))
      · exact h.started queueId (.inr (.inr (.inl hsrv)))
      · cases hcz
    registeredPane := fun paneId queueId he => h.registeredPane paneId queueId (hk paneId queueId he)
    registered := fun queueId hstart hop => by
      obtain ⟨he, hheldBefore⟩ := h.registered queueId hstart hop
      have ho : queueId ≠ closingQueueId := by
        rintro rfl
        exact Bool.false_ne_true (hop.symm.trans (h.closing queueId hcl))
      exact ⟨hothers _ queueId ho he, hh queueId ho hheldBefore⟩
    closing := fun queueId hcz => by cases hcz
    unserved := h.unserved }

theorem read_update {α : Type} (read : PaneOutputQueue → α) (queueById : Nat → PaneOutputQueue)
    {queue : PaneOutputQueue} (hrd : read queue = read (queueById changedId)) (queueId : Nat) :
    read (update queueById changedId queue queueId) = read (queueById queueId) := by
  by_cases hs : queueId = changedId
  · rw [hs, update_self, hrd]
  · rw [update_of_ne hs]

section

variable (h : world.OpenInv)

include h

theorem OpenInv.releaseUnheldPane (hnone : world.paneOutputQueueByPaneId paneId = none) :
    OpenInv { world with livePaneIds := world.livePaneIds.erase paneId } where
  __ := h
  heldPane heldPaneId queueId hh := by
    obtain ⟨hpa, hlive, hop⟩ := h.heldPane heldPaneId queueId hh
    refine ⟨hpa, Finset.mem_erase.2 ⟨?_, hlive⟩, hop⟩
    rintro rfl
    cases hnone.symm.trans hh
  spawned := (Finset.erase_subset paneId _).trans h.spawned
  stale queueId hcz hsent := by
    obtain ⟨hsw, hdead⟩ := h.stale queueId hcz hsent
    exact ⟨hsw, fun hlive => hdead (Finset.mem_of_mem_erase hlive)⟩
  ready readyId hrdy := by
    obtain ⟨hsw, hh⟩ := h.ready readyId hrdy
    exact ⟨hsw, fun hlive => hh (Finset.mem_of_mem_erase hlive)⟩
  idle idlePaneId halive hidle := h.idle idlePaneId (fun hsw => Finset.mem_of_mem_erase (halive hsw)) hidle

theorem OpenInv.closeQueue (hcl : world.closingQueueId = none) {livePaneIds : Finset PaneId}
    {paneOutputQueueByPaneId : PaneId → Option Nat} (hstart : queueId < world.queueCount)
    (hinbox : ∀ j ∈ inboxWakes, j ∈ world.inboxWakes) (hinboxCount : ∀ j, inboxWakes.count j ≤ world.inboxWakes.count j)
    (hinboxOther : ∀ j, j ≠ queueId → inboxWakes.count j = world.inboxWakes.count j)
    (hlive : livePaneIds ⊆ world.livePaneIds) (hdead : (world.queueById queueId).paneId ∉ livePaneIds)
    (hliveOther : ∀ paneId ∈ world.livePaneIds, paneId ≠ (world.queueById queueId).paneId → paneId ∈ livePaneIds)
    (hsrv : ∀ paneId j, paneOutputQueueByPaneId paneId = some j ↔
      j ≠ queueId ∧ world.paneOutputQueueByPaneId paneId = some j)
    (hunheld : ∀ j, j ≠ queueId → world.paneOutputQueueByPaneId (world.queueById queueId).paneId ≠ some j)
    (hstale : (world.queueById queueId).paneId ∈ world.spawnedPaneIds ∨
      world.sinkCalls.count ⟨queueId, .sendsWake⟩ + inboxWakes.count queueId = 0) :
    OpenInv { world.updateQueue queueId (·.close) with
      inboxWakes
      livePaneIds
      paneOutputQueueByPaneId
      closingQueueId := some queueId } := by
  have hpanes : ∀ j, ((world.updateQueue queueId (·.close)).queueById j).paneId =
      (world.queueById j).paneId := read_update (·.paneId) _ rfl
  have hself : (world.updateQueue queueId (·.close)).queueById queueId = (world.queueById queueId).close :=
    update_self ..
  have hothers : ∀ j, j ≠ queueId → (world.updateQueue queueId (·.close)).queueById j = world.queueById j :=
    fun j ho => update_of_ne ho ..
  -- an open queue afterwards is another one, and was open before
  have hbefore : ∀ j, ((world.updateQueue queueId (·.close)).queueById j).queueState.isClosed = false →
      j ≠ queueId ∧ (world.queueById j).queueState.isClosed = false := by
    intro j hop
    by_cases hs : j = queueId
    · rw [hs, hself] at hop
      cases hop
    · exact ⟨hs, hothers j hs ▸ hop⟩
  have hpaneOther : ∀ paneId j, j ≠ queueId → world.paneOutputQueueByPaneId paneId = some j → paneId ∈ livePaneIds := by
    intro paneId j ho hh
    refine hliveOther paneId (h.heldPane paneId j hh).2.1 ?_
    rintro rfl
    exact hunheld j ho hh
  have hturns : ∀ j, countTurns { world.updateQueue queueId (·.close) with
      inboxWakes
      livePaneIds
      paneOutputQueueByPaneId
      closingQueueId := some queueId } j = if j = queueId then 0 else world.countTurns j := by
    intro j
    simp only [countTurns, hpanes, hsrv]
    by_cases hs : j = queueId
    · simp [hs]
    · simp only [ne_eq, hs, not_false_eq_true, true_and, if_false]
      rfl
  refine {
    started := ?_
    registeredPane := ?_
    heldPane := ?_
    phases := h.phases
    registered := ?_
    closing := ?_
    spawned := hlive.trans h.spawned
    wakes_le := ?_
    wakes := ?_
    stale := ?_
    ready := ?_
    engine := ?_
    idle := ?_
    unserved := ?_ }
  · rintro j (hca | hwake | hh | hcz)
    · exact h.started j (.inl hca)
    · exact h.started j (.inr (.inl (hinbox j hwake)))
    · simp only [hpanes, hsrv] at hh
      exact h.started j (.inr (.inr (.inl hh.2)))
    · exact some_inj.1 hcz ▸ hstart
  · intro paneId j he
    obtain ⟨hpa, hlt⟩ := h.registeredPane paneId j he
    exact ⟨(hpanes j).trans hpa, hlt⟩
  · intro paneId j hh
    obtain ⟨ho, hh⟩ := (hsrv paneId j).1 hh
    obtain ⟨hpa, -, hop⟩ := h.heldPane paneId j hh
    exact ⟨(hpanes j).trans hpa, hpaneOther paneId j ho hh, (congrArg (·.queueState.isClosed) (hothers j ho)).trans hop⟩
  · intro j hlt hop
    obtain ⟨ho, hop⟩ := hbefore j hop
    obtain ⟨he, hh⟩ := h.registered j hlt hop
    refine ⟨(congrArg world.registeredQueueByPaneId (hpanes j)).trans he, ?_⟩
    rcases hh with hca | hwake | hh | hcz
    · exact .inl hca
    · refine .inr (.inl (count_pos_iff.1 ?_))
      rw [hinboxOther j ho]
      exact count_pos_iff.2 hwake
    · refine .inr (.inr (.inl ?_))
      rw [hpanes, hsrv]
      exact ⟨ho, hh⟩
    · cases hcl.symm.trans hcz
  · intro j hcz
    rw [← some_inj.1 hcz]
    exact congrArg (·.queueState.isClosed) hself
  · intro j
    rw [hturns]
    have hle := h.wakes_le j
    have hc := hinboxCount j
    simp only [countSentWakes] at hle ⊢
    split_ifs <;> simp only [updateQueue] <;> omega
  · intro j hlt hop
    obtain ⟨ho, hop⟩ := hbefore j hop
    rw [hturns, if_neg ho]
    have hwakes := h.wakes j hlt hop
    simp only [countSentWakes, hinboxOther j ho] at hwakes ⊢
    rw [hothers j ho]
    exact hwakes
  · intro j hcz hsent
    rw [hpanes]
    by_cases hs : j = queueId
    · rw [hs] at hsent ⊢
      refine ⟨hstale.resolve_right ?_, hdead⟩
      exact Nat.pos_iff_ne_zero.1 hsent
    · rw [hothers j hs] at hcz
      have hsentBefore : 0 < world.countSentWakes j := by
        simp only [countSentWakes, hinboxOther j hs] at hsent ⊢
        exact hsent
      obtain ⟨hsw, hdeadBefore⟩ := h.stale j hcz hsentBefore
      exact ⟨hsw, fun hliveAfter => hdeadBefore (hlive hliveAfter)⟩
  · intro paneId hrdy
    obtain ⟨hsw, hh⟩ := h.ready paneId hrdy
    refine ⟨hsw, fun hliveAfter => ?_⟩
    obtain ⟨j, ho⟩ := ne_none_iff_exists'.1 (hh (hlive hliveAfter))
    refine ne_none_iff_exists'.2 ⟨j, (hsrv paneId j).2 ⟨?_, ho⟩⟩
    rintro rfl
    exact hdead ((h.heldPane paneId j ho).1.symm ▸ hliveAfter)
  · intro paneId j hh
    obtain ⟨ho, hh⟩ := (hsrv paneId j).1 hh
    exact (h.engine paneId j hh).trans (congrArg (·.fedEvents) (hothers j ho).symm)
  · intro paneId halive hnone
    refine h.idle paneId (fun hsw => hlive (halive hsw)) ?_
    by_contra hso
    obtain ⟨j, ho⟩ := ne_none_iff_exists'.1 hso
    by_cases hs : j = queueId
    · obtain ⟨hpa, hliveBefore, -⟩ := h.heldPane paneId j ho
      rw [hs] at hpa
      exact hdead (hpa.symm ▸ halive (h.spawned hliveBefore))
    · cases hnone.symm.trans ((hsrv paneId j).2 ⟨hs, ho⟩)
  · intro j hlt hop hidle
    obtain ⟨ho, hop⟩ := hbefore j hop
    rw [hothers j ho]
    refine h.unserved j hlt hop fun hh => hidle ?_
    rw [hpanes, hsrv]
    exact ⟨ho, hh⟩

theorem OpenInv.releasePane (hcl : world.closingQueueId = none) (paneId : PaneId) :
    (world.releasePane paneId).OpenInv := by
  rw [PaneOutputWorld.releasePane]
  cases hh : world.paneOutputQueueByPaneId paneId with
  | none =>
    exact h.releaseUnheldPane hh
  | some queueId =>
    obtain ⟨rfl, hlive, hop⟩ := h.heldPane paneId queueId hh
    refine h.closeQueue hcl (h.started queueId (.inr (.inr (.inl hh)))) (fun _ hm => hm) (fun _ => le_rfl)
      (fun _ _ => rfl) (Finset.erase_subset _ _) (Finset.notMem_erase _ _)
      (fun openId hlive ho => Finset.mem_erase.2 ⟨ho, hlive⟩) ?_ ?_ (.inl (h.spawned hlive))
    · intro openId j
      by_cases hs : openId = (world.queueById queueId).paneId
      · rw [hs, update_self, hh]
        simp [eq_comm]
      · rw [update_of_ne hs]
        refine ⟨fun ho => ⟨?_, ho⟩, And.right⟩
        rintro rfl
        exact hs (h.heldPane openId j ho).1.symm
    · intro j ho hso
      exact ho (some_inj.1 (hso.symm.trans hh))

theorem OpenInv.closeUnknownQueue (hcl : world.closingQueueId = none)
    (hinbox : world.inboxWakes = queueId :: inboxWakes) (hdead : (world.queueById queueId).paneId ∉ world.livePaneIds) :
    OpenInv { world.updateQueue queueId (·.close) with inboxWakes, closingQueueId := some queueId } := by
  have hunheld : ∀ j, world.paneOutputQueueByPaneId (world.queueById queueId).paneId ≠ some j :=
    fun j hso => hdead (h.heldPane _ j hso).2.1
  have hc : ∀ j, world.inboxWakes.count j = inboxWakes.count j + if queueId = j then 1 else 0 := by
    intro j
    rw [hinbox, count_cons]
    simp
  refine h.closeQueue hcl (h.started queueId (.inr (.inl (hinbox ▸ mem_cons_self))))
    (fun j hm => hinbox ▸ mem_cons_of_mem queueId hm) (fun j => ?_) (fun j ho => ?_)
    subset_rfl hdead (fun _ hlive _ => hlive) (fun paneId j => ⟨fun hh => ⟨?_, hh⟩, And.right⟩)
    (fun j _ => hunheld j) (.inr ?_)
  · rw [hc]
    omega
  · rw [hc, if_neg (Ne.symm ho), Nat.add_zero]
  · rintro rfl
    obtain ⟨hpa, hlive, -⟩ := h.heldPane paneId j hh
    exact hdead (hpa.symm ▸ hlive)
  · have hle := h.wakes_le queueId
    rw [countSentWakes, hc, if_pos rfl] at hle
    omega

theorem OpenInv.isClosed_of_wake (hwake : queueId ∈ world.inboxWakes)
    (hlive : (world.queueById queueId).paneId ∈ world.livePaneIds) :
    (world.queueById queueId).queueState.isClosed = false := by
  by_contra hcz
  refine (h.stale queueId (Bool.eq_true_of_not_eq_false hcz) ?_).2 hlive
  exact Nat.add_pos_right _ (count_pos_iff.2 hwake)

end

variable {j : Nat}

theorem OpenInv.held_eq (h : world.OpenInv) (hstart : queueId < world.queueCount)
    (hop : (world.queueById queueId).queueState.isClosed = false)
    (hh : world.paneOutputQueueByPaneId (world.queueById queueId).paneId = some j) : j = queueId := by
  obtain ⟨hpa, -, hopen'⟩ := h.heldPane _ j hh
  have hotherStart := h.started j (.inr (.inr (.inl (hpa.symm ▸ hh))))
  have ho := (h.registered j hotherStart hopen').1
  rw [hpa, (h.registered queueId hstart hop).1] at ho
  exact (some_inj.1 ho).symm

abbrev holdQueue (world : PaneOutputWorld) (queueId : Nat) (inboxWakes : List Nat) : PaneOutputWorld :=
  { world with
    inboxWakes
    paneOutputQueueByPaneId := update world.paneOutputQueueByPaneId (world.queueById queueId).paneId (some queueId)
    readyOutputPaneIds := world.readyOutputPaneIds ++ [(world.queueById queueId).paneId] }

theorem OpenInv.takeInWake (h : world.OpenInv) (hinbox : world.inboxWakes = queueId :: inboxWakes)
    (hlive : (world.queueById queueId).paneId ∈ world.livePaneIds) : (world.holdQueue queueId inboxWakes).OpenInv := by
  have hwake : queueId ∈ world.inboxWakes := hinbox ▸ mem_cons_self
  have hop := h.isClosed_of_wake hwake hlive
  have hstart := h.started queueId (.inr (.inl hwake))
  have hheldEq : ∀ j, world.paneOutputQueueByPaneId (world.queueById queueId).paneId = some j →
    j = queueId := fun j => h.held_eq hstart hop
  have hsrv : ∀ paneId j, update world.paneOutputQueueByPaneId (world.queueById queueId).paneId
      (some queueId) paneId = some j →
        j = queueId ∧ paneId = (world.queueById queueId).paneId ∨
        world.paneOutputQueueByPaneId paneId = some j := by
    intro paneId j hso
    by_cases hs : paneId = (world.queueById queueId).paneId
    · rw [hs, update_self] at hso
      exact .inl ⟨(some_inj.1 hso).symm, hs⟩
    · rw [update_of_ne hs] at hso
      exact .inr hso
  have hk : ∀ paneId j, world.paneOutputQueueByPaneId paneId = some j →
      update world.paneOutputQueueByPaneId (world.queueById queueId).paneId (some queueId) paneId = some j := by
    intro paneId j hso
    by_cases hs : paneId = (world.queueById queueId).paneId
    · rw [hs, update_self, hheldEq j (hs ▸ hso)]
    · rwa [update_of_ne hs]
  have hwakes : ∀ j, (world.holdQueue queueId inboxWakes).countSentWakes j +
      (world.holdQueue queueId inboxWakes).countTurns j = world.countSentWakes j + world.countTurns j := by
    intro j
    simp only [countSentWakes, countTurns, holdQueue, hinbox, count_cons, count_append, count_nil]
    by_cases hs : j = queueId
    · subst hs
      simp only [update_self, if_true, beq_self_eq_true]
      split_ifs with hh
      · omega
      · -- the pane was not held: it has no turn yet
        have hnone : world.paneOutputQueueByPaneId (world.queueById j).paneId = none := by
          by_contra hso
          obtain ⟨heldId, hso⟩ := ne_none_iff_exists'.1 hso
          exact hh (hheldEq heldId hso ▸ hso)
        have hrdy : world.readyOutputPaneIds.count (world.queueById j).paneId = 0 := by
          refine count_eq_zero.2 fun hrdy => ?_
          exact (h.ready _ (.inl hrdy)).2 hlive hnone
        have hserved : world.servedPaneId.toList.count (world.queueById j).paneId = 0 := by
          refine count_eq_zero.2 fun hserved => ?_
          exact (h.ready _ (.inr (mem_toList.1 hserved))).2 hlive hnone
        omega
    · have hbeq : (queueId == j) = false := beq_false_of_ne (Ne.symm hs)
      simp only [hbeq, Bool.false_eq_true, if_false, Nat.add_zero]
      by_cases hpa : (world.queueById j).paneId = (world.queueById queueId).paneId
      · have hnot : ¬world.paneOutputQueueByPaneId (world.queueById queueId).paneId = some j :=
          fun hso => hs (hheldEq j hso)
        simp [hpa, Ne.symm hs, hnot]
      · simp [update_of_ne hpa, Ne.symm hpa]
  refine { h with
    started := ?_
    heldPane := ?_
    registered := ?_
    wakes_le := fun j => (hwakes j).trans_le (h.wakes_le j)
    wakes := fun j hlt hopen' => (hwakes j).trans (h.wakes j hlt hopen')
    stale := ?_
    ready := ?_
    engine := ?_
    idle := ?_
    unserved := ?_ }
  · rintro j (hca | hotherWake | hh | hcz)
    · exact h.started j (.inl hca)
    · exact h.started j (.inr (.inl (hinbox ▸ mem_cons_of_mem queueId hotherWake)))
    · rcases hsrv _ j hh with ⟨rfl, -⟩ | hh
      · exact hstart
      · exact h.started j (.inr (.inr (.inl hh)))
    · exact h.started j (.inr (.inr (.inr hcz)))
  · intro paneId j hh
    rcases hsrv paneId j hh with ⟨rfl, rfl⟩ | hh
    · exact ⟨rfl, hlive, hop⟩
    · exact h.heldPane paneId j hh
  · intro j hlt hopen'
    obtain ⟨he, hh⟩ := h.registered j hlt hopen'
    refine ⟨he, ?_⟩
    rcases hh with hca | hotherWake | hh | hcz
    · exact .inl hca
    · rw [hinbox] at hotherWake
      rcases mem_cons.1 hotherWake with rfl | hotherWake
      · exact .inr (.inr (.inl (update_self ..)))
      · exact .inr (.inl hotherWake)
    · exact .inr (.inr (.inl (hk _ j hh)))
    · exact .inr (.inr (.inr hcz))
  · intro j hcz hsent
    refine h.stale j hcz (Nat.lt_of_lt_of_le hsent ?_)
    simp only [countSentWakes, hinbox, count_cons]
    omega
  · rintro paneId (hrdy | hserved)
    · rcases mem_append.1 hrdy with hrdy | hrdy
      · obtain ⟨hsw, hh⟩ := h.ready paneId (.inl hrdy)
        refine ⟨hsw, fun hpaneLive => ?_⟩
        obtain ⟨j, hso⟩ := ne_none_iff_exists'.1 (hh hpaneLive)
        exact ne_none_iff_exists'.2 ⟨j, hk paneId j hso⟩
      · rw [mem_singleton.1 hrdy]
        exact ⟨h.spawned hlive, fun _ => ne_none_iff_exists'.2 ⟨queueId, update_self ..⟩⟩
    · obtain ⟨hsw, hh⟩ := h.ready paneId (.inr hserved)
      refine ⟨hsw, fun hpaneLive => ?_⟩
      obtain ⟨j, hso⟩ := ne_none_iff_exists'.1 (hh hpaneLive)
      exact ne_none_iff_exists'.2 ⟨j, hk paneId j hso⟩
  · intro paneId j hh
    by_cases hb : world.paneOutputQueueByPaneId paneId = some j
    · exact h.engine paneId j hb
    · obtain ⟨rfl, rfl⟩ := (hsrv paneId j hh).resolve_right hb
      have hnone : world.paneOutputQueueByPaneId (world.queueById j).paneId = none := by
        by_contra hso
        obtain ⟨heldId, hso⟩ := ne_none_iff_exists'.1 hso
        exact hb (hheldEq heldId hso ▸ hso)
      exact (h.idle _ (fun _ => hlive) hnone).trans (h.unserved j hstart hop hb).symm
  · intro paneId halive hnone
    refine h.idle paneId halive ?_
    by_contra hso
    obtain ⟨j, hso⟩ := ne_none_iff_exists'.1 hso
    cases hnone.symm.trans (hk paneId j hso)
  · intro j hlt hopen' hidle
    exact h.unserved j hlt hopen' fun hh => hidle (hk _ j hh)

variable {readyOutputPaneIds : List PaneId}

theorem OpenInv.skipTurn (h : world.OpenInv) (hrdy : world.readyOutputPaneIds = paneId :: readyOutputPaneIds)
    (hnone : world.paneOutputQueueByPaneId paneId = none) :
    OpenInv { world with readyOutputPaneIds } := by
  have hturns : ∀ queueId, countTurns { world with readyOutputPaneIds } queueId = world.countTurns queueId := by
    intro queueId
    simp only [countTurns, hrdy]
    split_ifs with hh
    · have ho : paneId ≠ (world.queueById queueId).paneId := by
        rintro rfl
        cases hnone.symm.trans hh
      rw [count_cons_of_ne ho]
    · rfl
  exact { h with
    wakes_le := fun queueId => (congrArg (_ + ·) (hturns queueId)).trans_le (h.wakes_le queueId)
    wakes := fun queueId hstart hop =>
      (congrArg (_ + ·) (hturns queueId)).trans (h.wakes queueId hstart hop)
    ready := by
      rintro readyId (hm | hserved)
      · exact h.ready readyId (.inl (hrdy ▸ mem_cons_of_mem paneId hm))
      · exact h.ready readyId (.inr hserved)
    unserved := h.unserved }

def afterTurn (world : PaneOutputWorld) (paneId : PaneId) (queueId : Nat) (readyOutputPaneIds : List PaneId) :
    PaneOutputWorld :=
  { world.updateQueue queueId fun _ => (world.queueById queueId).takeOutputTurn.2 with
    readyOutputPaneIds
    engineEventsByPaneId := update world.engineEventsByPaneId paneId
      (world.engineEventsByPaneId paneId ++ (world.queueById queueId).takeOutputTurn.1.listEvents)
    servedPaneId := if (world.queueById queueId).takeOutputTurn.1.hasMoreOutput then some paneId else none }

/-- A turn of a queue: the rotation's entry becomes the served pane, or the flag goes down with it. -/
theorem OpenInv.takeTurn (h : world.OpenInv) (hrdy : world.readyOutputPaneIds = paneId :: readyOutputPaneIds)
    (hsrv : world.servedPaneId = none) (hh : world.paneOutputQueueByPaneId paneId = some queueId) :
    (world.afterTurn paneId queueId readyOutputPaneIds).OpenInv := by
  obtain ⟨hpa, hlive, hop⟩ := h.heldPane paneId queueId hh
  have hstart : queueId < world.queueCount := h.started queueId (.inr (.inr (.inl (hpa.symm ▸ hh))))
  have hpanes : ∀ j, ((world.afterTurn paneId queueId readyOutputPaneIds).queueById j).paneId =
      (world.queueById j).paneId := read_update (·.paneId) _ (takeOutputTurn_paneId _)
  have hself : (world.afterTurn paneId queueId readyOutputPaneIds).queueById queueId =
      (world.queueById queueId).takeOutputTurn.2 := update_self ..
  have hothers : ∀ j, j ≠ queueId →
      (world.afterTurn paneId queueId readyOutputPaneIds).queueById j = world.queueById j :=
    fun j ho => update_of_ne ho ..
  have hcz : ∀ j, ((world.afterTurn paneId queueId readyOutputPaneIds).queueById j).queueState.isClosed =
      (world.queueById j).queueState.isClosed :=
    read_update (·.queueState.isClosed) _ (takeOutputTurn_isClosed _)
  have hheldSame : ∀ j, (world.afterTurn paneId queueId readyOutputPaneIds).IsHeld j ↔ world.IsHeld j := by
    intro j
    rw [IsHeld, hpanes]
    rfl
  have hheldOther : ∀ openId j, j ≠ queueId → world.paneOutputQueueByPaneId openId = some j → openId ≠ paneId := by
    rintro openId j ho hso rfl
    exact ho (some_inj.1 (hso.symm.trans hh))
  -- the entry of the rotation was the queue's one wake
  have hwakes := h.wakes queueId hstart hop
  have hturns : world.countTurns queueId = readyOutputPaneIds.count paneId + 1 := by
    rw [countTurns, hpa, if_pos hh, hrdy, hsrv, count_cons_self]
    rfl
  have hflag : (world.queueById queueId).queueState.isWakeSent = true := by
    cases hsent : (world.queueById queueId).queueState.isWakeSent with
    | true => rfl
    | false =>
      rw [hsent, hturns] at hwakes
      simp at hwakes
  have hr : world.countSentWakes queueId = 0 ∧ readyOutputPaneIds.count paneId = 0 := by
    rw [hflag, hturns, Bool.toNat_true] at hwakes
    omega
  have hturnsNext : ∀ j, (world.afterTurn paneId queueId readyOutputPaneIds).countTurns j =
      if world.paneOutputQueueByPaneId (world.queueById j).paneId = some j then
        readyOutputPaneIds.count (world.queueById j).paneId +
          (if (world.queueById queueId).takeOutputTurn.1.hasMoreOutput then some paneId else none).toList.count
            (world.queueById j).paneId
      else 0 := by
    intro j
    rw [countTurns, hpanes]
    rfl
  have hturnsOther : ∀ j, j ≠ queueId →
      (world.afterTurn paneId queueId readyOutputPaneIds).countTurns j = world.countTurns j := by
    intro j ho
    rw [hturnsNext, countTurns, hrdy, hsrv]
    by_cases hso : world.paneOutputQueueByPaneId (world.queueById j).paneId = some j
    · have hne := hheldOther _ j ho hso
      rw [if_pos hso, if_pos hso, count_cons_of_ne (Ne.symm hne)]
      split_ifs
      · simp [Ne.symm hne]
      · rfl
    · rw [if_neg hso, if_neg hso]
  have hturnsSelf : (world.afterTurn paneId queueId readyOutputPaneIds).countTurns queueId =
      (world.queueById queueId).takeOutputTurn.1.hasMoreOutput.toNat := by
    rw [hturnsNext, hpa, if_pos hh, hr.2, Nat.zero_add]
    cases (world.queueById queueId).takeOutputTurn.1.hasMoreOutput with
    | false => rfl
    | true => simp
  refine { h with
    started := ?_
    registeredPane := ?_
    heldPane := ?_
    registered := ?_
    closing := fun j hcl => (hcz j).trans (h.closing j hcl)
    wakes_le := ?_
    wakes := ?_
    stale := ?_
    ready := ?_
    engine := ?_
    idle := ?_
    unserved := ?_ }
  · exact fun j hotherHeld => h.started j ((hheldSame j).1 hotherHeld)
  · intro openId j he
    obtain ⟨hotherPane, hlt⟩ := h.registeredPane openId j he
    exact ⟨(hpanes j).trans hotherPane, hlt⟩
  · intro openId j hso
    obtain ⟨hotherPane, hotherLive, hopen'⟩ := h.heldPane openId j hso
    exact ⟨(hpanes j).trans hotherPane, hotherLive, (hcz j).trans hopen'⟩
  · intro j hlt hopen'
    obtain ⟨he, hheldBefore⟩ := h.registered j hlt ((hcz j).symm.trans hopen')
    exact ⟨(congrArg world.registeredQueueByPaneId (hpanes j)).trans he, (hheldSame j).2 hheldBefore⟩
  · intro j
    by_cases hs : j = queueId
    · rw [hs, hturnsSelf]
      refine (congrArg (· + _) hr.1).trans_le ?_
      cases (world.queueById queueId).takeOutputTurn.1.hasMoreOutput <;> decide
    · rw [hturnsOther j hs]
      exact h.wakes_le j
  · intro j hlt hopen'
    by_cases hs : j = queueId
    · rw [hs, hturnsSelf]
      refine (congrArg (· + _) hr.1).trans ?_
      rw [Nat.zero_add, hself, takeOutputTurn_isWakeSent, hflag]
      cases (world.queueById queueId).takeOutputTurn.1.hasMoreOutput <;> rfl
    · rw [hturnsOther j hs, hothers j hs]
      exact h.wakes j hlt ((hcz j).symm.trans hopen')
  · intro j hotherClosed hsent
    rw [hpanes]
    exact h.stale j ((hcz j).symm.trans hotherClosed) hsent
  · rintro readyId (hm | hn)
    · exact h.ready readyId (.inl (hrdy ▸ mem_cons_of_mem paneId hm))
    · have hs : readyId = paneId := by
        cases hmore : (world.queueById queueId).takeOutputTurn.1.hasMoreOutput with
        | false => simp [afterTurn, hmore] at hn
        | true => simpa [afterTurn, hmore, eq_comm] using hn
      exact h.ready readyId (.inl (hrdy ▸ hs ▸ mem_cons_self))
  · intro openId j hso
    by_cases hs : j = queueId
    · obtain rfl : openId = paneId := (h.heldPane openId j hso).1.symm.trans (hs ▸ hpa)
      rw [hs, hself, takeOutputTurn_fedEvents, ← h.engine openId queueId hh]
      exact update_self ..
    · rw [hothers j hs, ← h.engine openId j hso]
      exact update_of_ne (hheldOther openId j hs hso) ..
  · intro openId halive hnone
    have hne : openId ≠ paneId := by
      rintro rfl
      cases hnone.symm.trans hh
    rw [← h.idle openId halive hnone]
    exact update_of_ne hne ..
  · intro j hlt hopen' hidle
    rw [hpanes] at hidle
    have ho : j ≠ queueId := by
      rintro rfl
      exact hidle (hpa ▸ hh)
    rw [hothers j ho]
    exact h.unserved j hlt ((hcz j).symm.trans hopen') hidle

/-! ### The sink's steps -/

/-- A step of a call: it moves a wake along, and may put something into an open queue. -/
theorem OpenInv.moveCalls (h : world.OpenInv) {calls : List SinkCall}
    (hpa : ∀ queueId, (queueById queueId).paneId = (world.queueById queueId).paneId)
    (hcz : ∀ queueId, (queueById queueId).queueState.isClosed = (world.queueById queueId).queueState.isClosed)
    (hfed : ∀ queueId, (queueById queueId).fedEvents = (world.queueById queueId).fedEvents)
    (hphases : ∀ call ∈ calls, call.phase = .sendsWake ∨ ∃ event, call.phase = .holdsQueue event)
    (hstart : ∀ queueId, queueId ∈ calls.map (·.queueId) ∨ queueId ∈ inboxWakes → queueId < world.queueCount)
    (hh : ∀ queueId < world.queueCount, (world.queueById queueId).queueState.isClosed = false →
      queueId ∈ world.sinkCalls.map (·.queueId) ∨ queueId ∈ world.inboxWakes →
        queueId ∈ calls.map (·.queueId) ∨ queueId ∈ inboxWakes ∨
          world.paneOutputQueueByPaneId (world.queueById queueId).paneId = some queueId)
    (hwakes : ∀ queueId < world.queueCount, (world.queueById queueId).queueState.isClosed = false →
      calls.count ⟨queueId, .sendsWake⟩ + inboxWakes.count queueId + world.countTurns queueId =
        (queueById queueId).queueState.isWakeSent.toNat)
    (hstale : ∀ queueId, ¬(queueId < world.queueCount ∧ (world.queueById queueId).queueState.isClosed = false) →
      calls.count ⟨queueId, .sendsWake⟩ + inboxWakes.count queueId ≤ world.countSentWakes queueId) :
    OpenInv { world with queueById, sinkCalls := calls, inboxWakes } := by
  have hturns : ∀ queueId, countTurns { world with
      queueById, sinkCalls := calls, inboxWakes } queueId = world.countTurns queueId := by
    intro queueId
    simp only [countTurns, hpa]
  refine { h with
    started := ?_
    registeredPane := ?_
    heldPane := ?_
    phases := hphases
    registered := ?_
    closing := fun queueId hcl => (hcz queueId).trans (h.closing queueId hcl)
    wakes_le := ?_
    wakes := ?_
    stale := ?_
    engine := fun paneId queueId hso => (h.engine paneId queueId hso).trans (hfed queueId).symm
    unserved := ?_ }
  · rintro queueId (hca | hwake | hso | hcl)
    · exact hstart queueId (.inl hca)
    · exact hstart queueId (.inr hwake)
    · exact h.started queueId (.inr (.inr (.inl (hpa queueId ▸ hso))))
    · exact h.started queueId (.inr (.inr (.inr hcl)))
  · intro paneId queueId he
    obtain ⟨hs, hlt⟩ := h.registeredPane paneId queueId he
    exact ⟨(hpa queueId).trans hs, hlt⟩
  · intro paneId queueId hso
    obtain ⟨hs, hlive, hop⟩ := h.heldPane paneId queueId hso
    exact ⟨(hpa queueId).trans hs, hlive, (hcz queueId).trans hop⟩
  · intro queueId hlt hop
    have hbefore := (hcz queueId).symm.trans hop
    obtain ⟨he, hheldBefore⟩ := h.registered queueId hlt hbefore
    refine ⟨(congrArg world.registeredQueueByPaneId (hpa queueId)).trans he, ?_⟩
    have hsrv := congrArg world.paneOutputQueueByPaneId (hpa queueId)
    rcases hheldBefore with hca | hwake | hso | hcl
    · rcases hh queueId hlt hbefore (.inl hca) with hca | hwake | hso
      · exact .inl hca
      · exact .inr (.inl hwake)
      · exact .inr (.inr (.inl (hsrv.trans hso)))
    · rcases hh queueId hlt hbefore (.inr hwake) with hca | hwake | hso
      · exact .inl hca
      · exact .inr (.inl hwake)
      · exact .inr (.inr (.inl (hsrv.trans hso)))
    · exact .inr (.inr (.inl (hsrv.trans hso)))
    · exact .inr (.inr (.inr hcl))
  · intro queueId
    rw [hturns]
    by_cases hop : queueId < world.queueCount ∧ (world.queueById queueId).queueState.isClosed = false
    · exact (hwakes queueId hop.1 hop.2).trans_le (Bool.toNat_le _)
    · have hle := h.wakes_le queueId
      have hmoved := hstale queueId hop
      simp only [countSentWakes] at hle hmoved ⊢
      omega
  · intro queueId hlt hop
    rw [hturns]
    exact hwakes queueId hlt ((hcz queueId).symm.trans hop)
  · intro queueId hqClosed hsent
    have hclosedBefore := (hcz queueId).symm.trans hqClosed
    rw [hpa]
    refine h.stale queueId hclosedBefore (Nat.lt_of_lt_of_le hsent (hstale queueId fun hop => ?_))
    exact Bool.false_ne_true (hop.2.symm.trans hclosedBefore)
  · intro queueId hlt hop hidle
    rw [hpa] at hidle
    exact (hfed queueId).trans (h.unserved queueId hlt ((hcz queueId).symm.trans hop) hidle)

variable {call : SinkCall}

theorem sinkCalls_split {index : Nat} (hca : world.sinkCalls[index]? = some call) :
    ∃ earlier later, world.sinkCalls = earlier ++ call :: later ∧
      world.sinkCalls.eraseIdx index = earlier ++ later ∧
      ∀ changed, world.sinkCalls.set index changed = earlier ++ changed :: later := by
  obtain ⟨hlt, rfl⟩ := List.getElem?_eq_some_iff.1 hca
  refine ⟨world.sinkCalls.take index, world.sinkCalls.drop (index + 1), ?_, eraseIdx_eq_take_drop_succ .., ?_⟩
  · rw [getElem_cons_drop, take_append_drop]
  · intro changed
    rw [set_eq_take_append_cons_drop, if_pos hlt]

theorem count_sendsWake_holdsQueue (earlier later : List SinkCall) (queueId callId : Nat) (event : PaneEvent) :
    (earlier ++ ⟨callId, .holdsQueue event⟩ :: later).count ⟨queueId, .sendsWake⟩ =
      (earlier ++ later).count ⟨queueId, .sendsWake⟩ := by
  simp [count_append]

theorem count_sendsWake_sendsWake (earlier later : List SinkCall) (queueId callId : Nat) :
    (earlier ++ ⟨callId, .sendsWake⟩ :: later).count ⟨queueId, .sendsWake⟩ =
      (earlier ++ later).count ⟨queueId, .sendsWake⟩ + if callId = queueId then 1 else 0 := by
  simp only [count_append, count_cons, beq_iff_eq, SinkCall.mk.injEq, and_true]
  omega

/-- The queue's wake is about to be sent or in the inbox, or its pane is in the rotation or being served. -/
def HasWake (world : PaneOutputWorld) (queueId : Nat) : Prop :=
  ⟨queueId, .sendsWake⟩ ∈ world.sinkCalls ∨ queueId ∈ world.inboxWakes ∨
    world.paneOutputQueueByPaneId (world.queueById queueId).paneId = some queueId ∧
      ((world.queueById queueId).paneId ∈ world.readyOutputPaneIds ∨
        world.servedPaneId = some (world.queueById queueId).paneId)

theorem OpenInv.hasWake (h : world.OpenInv) (hstart : queueId < world.queueCount)
    (hop : (world.queueById queueId).queueState.isClosed = false)
    (hflag : (world.queueById queueId).queueState.isWakeSent = true) : world.HasWake queueId := by
  have hwakes := h.wakes queueId hstart hop
  rw [hflag, Bool.toNat_true] at hwakes
  by_cases hturns : world.countTurns queueId = 0
  · rw [hturns, countSentWakes] at hwakes
    by_cases hcalls : world.sinkCalls.count ⟨queueId, .sendsWake⟩ = 0
    · exact .inr (.inl (count_pos_iff.1 (by omega)))
    · exact .inl (count_pos_iff.1 (Nat.pos_of_ne_zero hcalls))
  · refine .inr (.inr ?_)
    rw [countTurns] at hturns
    split_ifs at hturns with hh
    · refine ⟨hh, ?_⟩
      by_cases hrdy : (world.queueById queueId).paneId ∈ world.readyOutputPaneIds
      · exact .inl hrdy
      · rw [count_eq_zero.2 hrdy, Nat.zero_add] at hturns
        exact .inr (mem_toList.1 (count_pos_iff.1 (Nat.pos_of_ne_zero hturns)))
    · exact absurd rfl hturns

theorem accept_isClosed (queue : PaneOutputQueue) (event : PaneEvent) :
    (queue.accept event).queueState.isClosed = queue.queueState.isClosed := by
  cases event <;> rfl

theorem accept_isWakeSent (queue : PaneOutputQueue) (event : PaneEvent) :
    (queue.accept event).queueState.isWakeSent = true := by
  cases event <;> rfl

section

variable {earlier later : List SinkCall} {queueId : Nat} {event : PaneEvent}

theorem OpenInv.phases_erase (h : world.OpenInv) (hcalls : world.sinkCalls = earlier ++ call :: later) :
    ∀ otherCall ∈ earlier ++ later, otherCall.phase = .sendsWake ∨ ∃ event, otherCall.phase = .holdsQueue event := by
  intro otherCall hm
  refine h.phases otherCall (hcalls ▸ ?_)
  exact ((sublist_cons_self call later).append_left earlier).subset hm

theorem OpenInv.started_erase (h : world.OpenInv) (hcalls : world.sinkCalls = earlier ++ call :: later)
    (hm : j ∈ (earlier ++ later).map (·.queueId)) : j < world.queueCount := by
  refine h.started j (.inl (hcalls ▸ ?_))
  exact (((sublist_cons_self call later).append_left earlier).map _).subset hm

theorem mem_map_erase (hcalls : world.sinkCalls = earlier ++ call :: later) (ho : j ≠ call.queueId)
    (hm : j ∈ world.sinkCalls.map (·.queueId)) :
    j ∈ (earlier ++ later).map (·.queueId) := by
  rw [hcalls] at hm
  simp only [map_append, map_cons, mem_append, mem_cons, ho, false_or] at hm ⊢
  exact hm

theorem OpenInv.refuse (h : world.OpenInv) (hcalls : world.sinkCalls = earlier ++ ⟨queueId, .holdsQueue event⟩ :: later)
    (hcz : (world.queueById queueId).queueState.isClosed = true) :
    OpenInv { world with sinkCalls := earlier ++ later } := by
  refine h.moveCalls (fun _ => rfl) (fun _ => rfl) (fun _ => rfl) ?_ ?_ ?_ ?_ ?_
  · exact h.phases_erase hcalls
  · rintro j (hca | hwake)
    · exact h.started_erase hcalls hca
    · exact h.started j (.inr (.inl hwake))
  · rintro j hlt hop (hca | hwake)
    · have ho : j ≠ queueId := by
        rintro rfl
        exact Bool.false_ne_true (hop.symm.trans hcz)
      exact .inl (mem_map_erase hcalls ho hca)
    · exact .inr (.inl hwake)
  · intro j hlt hop
    have hwakes := h.wakes j hlt hop
    rwa [countSentWakes, hcalls, count_sendsWake_holdsQueue] at hwakes
  · intro j _
    rw [countSentWakes, hcalls, count_sendsWake_holdsQueue]

theorem OpenInv.acceptQuietly (h : world.OpenInv)
    (hcalls : world.sinkCalls = earlier ++ ⟨queueId, .holdsQueue event⟩ :: later)
    (hop : (world.queueById queueId).queueState.isClosed = false)
    (hflag : (world.queueById queueId).queueState.isWakeSent = true) :
    OpenInv { world with
      queueById := update world.queueById queueId ((world.queueById queueId).accept event)
      sinkCalls := earlier ++ later } := by
  have hstart : queueId < world.queueCount := by
    refine h.started queueId (.inl ?_)
    rw [hcalls]
    simp
  refine h.moveCalls (read_update (·.paneId) _ rfl) (read_update (·.queueState.isClosed) _ (accept_isClosed _ event))
    (read_update (·.fedEvents) _ rfl) ?_ ?_ ?_ ?_ ?_
  · exact h.phases_erase hcalls
  · rintro j (hca | hwake)
    · exact h.started_erase hcalls hca
    · exact h.started j (.inr (.inl hwake))
  · rintro j hlt hopen' (hca | hwake)
    · by_cases hs : j = queueId
      · subst hs
        rcases h.hasWake hlt hopen' hflag with hsends | hwake | ⟨hso, -⟩
        · rw [hcalls] at hsends
          left
          simp only [mem_append, mem_cons, SinkCall.mk.injEq, reduceCtorEq, and_false, false_or] at hsends
          rw [← mem_append] at hsends
          exact List.mem_map_of_mem hsends
        · exact .inr (.inl hwake)
        · exact .inr (.inr hso)
      · exact .inl (mem_map_erase hcalls hs hca)
    · exact .inr (.inl hwake)
  · intro j hlt hopen'
    have hwakes := h.wakes j hlt hopen'
    rw [countSentWakes, hcalls, count_sendsWake_holdsQueue] at hwakes
    rw [hwakes]
    by_cases hs : j = queueId
    · rw [hs, update_self, accept_isWakeSent, hflag]
    · rw [update_of_ne hs]
  · intro j _
    rw [countSentWakes, hcalls, count_sendsWake_holdsQueue]

theorem OpenInv.acceptWaking (h : world.OpenInv)
    (hcalls : world.sinkCalls = earlier ++ ⟨queueId, .holdsQueue event⟩ :: later)
    (hop : (world.queueById queueId).queueState.isClosed = false)
    (hflag : (world.queueById queueId).queueState.isWakeSent = false) :
    OpenInv { world with
      queueById := update world.queueById queueId ((world.queueById queueId).accept event)
      sinkCalls := earlier ++ ⟨queueId, .sendsWake⟩ :: later } := by
  have hmap : (earlier ++ ⟨queueId, .sendsWake⟩ :: later).map (·.queueId) = world.sinkCalls.map (·.queueId) := by
    rw [hcalls]
    simp
  refine h.moveCalls (read_update (·.paneId) _ rfl) (read_update (·.queueState.isClosed) _ (accept_isClosed _ event))
    (read_update (·.fedEvents) _ rfl) ?_ ?_ ?_ ?_ ?_
  · intro call hca
    rcases mem_append.1 hca with hca | hca
    · exact h.phases call (hcalls ▸ mem_append_left _ hca)
    · rcases mem_cons.1 hca with rfl | hca
      · exact .inl rfl
      · exact h.phases call (hcalls ▸ mem_append_right _ (mem_cons_of_mem _ hca))
  · rw [hmap]
    rintro j (hca | hwake)
    · exact h.started j (.inl hca)
    · exact h.started j (.inr (.inl hwake))
  · rw [hmap]
    rintro j hlt hopen' (hca | hwake)
    · exact .inl hca
    · exact .inr (.inl hwake)
  · intro j hlt hopen'
    have hwakes := h.wakes j hlt hopen'
    rw [countSentWakes, hcalls, count_sendsWake_holdsQueue] at hwakes
    rw [count_sendsWake_sendsWake]
    by_cases hs : j = queueId
    · subst hs
      rw [update_self, accept_isWakeSent, if_pos rfl, Bool.toNat_true]
      rw [hflag, Bool.toNat_false] at hwakes
      omega
    · rw [update_of_ne hs, if_neg (Ne.symm hs)]
      exact hwakes
  · intro j hnot
    have ho : queueId ≠ j := by
      rintro rfl
      refine hnot ⟨h.started queueId (.inl (hmap ▸ ?_)), hop⟩
      simp
    rw [countSentWakes, hcalls, count_sendsWake_holdsQueue, count_sendsWake_sendsWake, if_neg ho, Nat.add_zero]

theorem OpenInv.sendWake (h : world.OpenInv) (hcalls : world.sinkCalls = earlier ++ ⟨queueId, .sendsWake⟩ :: later) :
    OpenInv { world with
      sinkCalls := earlier ++ later
      inboxWakes := world.inboxWakes ++ [queueId] } := by
  have hstart : queueId < world.queueCount := by
    refine h.started queueId (.inl ?_)
    rw [hcalls]
    simp
  have hsent : ∀ j, (earlier ++ later).count ⟨j, .sendsWake⟩ +
      (world.inboxWakes ++ [queueId]).count j = world.countSentWakes j := by
    intro j
    rw [countSentWakes, hcalls, count_sendsWake_sendsWake]
    simp only [count_append, count_singleton, beq_iff_eq]
    omega
  refine h.moveCalls (fun _ => rfl) (fun _ => rfl) (fun _ => rfl) ?_ ?_ ?_ ?_ ?_
  · exact h.phases_erase hcalls
  · rintro j (hca | hwake)
    · exact h.started_erase hcalls hca
    · rcases mem_append.1 hwake with hwake | hwake
      · exact h.started j (.inr (.inl hwake))
      · exact mem_singleton.1 hwake ▸ hstart
  · rintro j hlt hop (hca | hwake)
    · by_cases hs : j = queueId
      · exact .inr (.inl (hs ▸ mem_append_right _ mem_cons_self))
      · exact .inl (mem_map_erase hcalls hs hca)
    · exact .inr (.inl (mem_append_left _ hwake))
  · intro j hlt hop
    rw [hsent]
    exact h.wakes j hlt hop
  · intro j _
    rw [hsent]

end

theorem OpenInv.findQueue (h : world.OpenInv) (hstart : queueId < world.queueCount) (event : PaneEvent) :
    OpenInv { world with sinkCalls := world.sinkCalls ++ [⟨queueId, .holdsQueue event⟩] } := by
  have hc : ∀ j, (world.sinkCalls ++ [SinkCall.mk queueId (.holdsQueue event)]).count ⟨j, .sendsWake⟩ =
      world.sinkCalls.count ⟨j, .sendsWake⟩ := by
    intro j
    rw [count_sendsWake_holdsQueue, append_nil]
  refine h.moveCalls (fun _ => rfl) (fun _ => rfl) (fun _ => rfl) ?_ ?_ ?_ ?_ ?_
  · intro call hca
    rcases mem_append.1 hca with hca | hca
    · exact h.phases call hca
    · rw [mem_singleton.1 hca]
      exact .inr ⟨event, rfl⟩
  · rintro j (hca | hwake)
    · rw [map_append] at hca
      rcases mem_append.1 hca with hca | hca
      · exact h.started j (.inl hca)
      · exact mem_singleton.1 hca ▸ hstart
    · exact h.started j (.inr (.inl hwake))
  · rintro j hlt hop (hca | hwake)
    · rw [map_append]
      exact .inl (mem_append_left _ hca)
    · exact .inr (.inl hwake)
  · intro j hlt hop
    rw [hc]
    exact h.wakes j hlt hop
  · intro j _
    rw [hc, countSentWakes]

def startNewQueue (world : PaneOutputWorld) (paneId : PaneId) (event : PaneEvent) : PaneOutputWorld :=
  { world with
    queueById := update world.queueById world.queueCount (.start paneId)
    queueCount := world.queueCount + 1
    registeredQueueByPaneId := update
      (fun otherPaneId => (world.registeredQueueByPaneId otherPaneId).filter (world.IsHeld ·)) paneId
      (some world.queueCount)
    sinkCalls := world.sinkCalls ++ [⟨world.queueCount, .holdsQueue event⟩] }

theorem OpenInv.startNewQueue (h : world.OpenInv)
    (hnone : (world.registeredQueueByPaneId paneId).filter (world.IsHeld ·) = none) (event : PaneEvent) :
    (world.startNewQueue paneId event).OpenInv := by
  have hunheld : ¬world.IsHeld world.queueCount := fun hh => Nat.lt_irrefl _ (h.started _ hh)
  have hsrv : ∀ openId, world.paneOutputQueueByPaneId openId ≠ some world.queueCount := by
    intro openId hso
    exact hunheld (.inr (.inr (.inl ((h.heldPane openId _ hso).1.symm ▸ hso))))
  have hq : ∀ queueId, queueId ≠ world.queueCount →
      (world.startNewQueue paneId event).queueById queueId = world.queueById queueId :=
    fun queueId ho => update_of_ne ho ..
  have hself : (world.startNewQueue paneId event).queueById world.queueCount = .start paneId := update_self ..
  have hcallIds : ∀ queueId, queueId ∈ (world.startNewQueue paneId event).sinkCalls.map (·.queueId) ↔
      queueId ∈ world.sinkCalls.map (·.queueId) ∨ queueId = world.queueCount := by
    intro queueId
    simp only [PaneOutputWorld.startNewQueue, map_append, mem_append, map_cons, map_nil, mem_singleton]
  -- an open queue that was there before is held, so its entry stays
  have hregistry : ∀ queueId < world.queueCount, (world.queueById queueId).queueState.isClosed = false →
      (world.startNewQueue paneId event).registeredQueueByPaneId (world.queueById queueId).paneId = some queueId := by
    intro queueId hlt hop
    obtain ⟨he, hh⟩ := h.registered queueId hlt hop
    have hk : (world.registeredQueueByPaneId (world.queueById queueId).paneId).filter (world.IsHeld ·) =
        some queueId := by
      rw [he, filter_some, if_pos (decide_eq_true hh)]
    have ho : (world.queueById queueId).paneId ≠ paneId := by
      rintro rfl
      cases hnone.symm.trans hk
    simp only [PaneOutputWorld.startNewQueue, update_of_ne ho, hk]
  have hsent : ∀ queueId, (world.startNewQueue paneId event).countSentWakes queueId = world.countSentWakes queueId := by
    intro queueId
    rw [countSentWakes, PaneOutputWorld.startNewQueue, count_sendsWake_holdsQueue, append_nil]
    rfl
  have hturns : ∀ queueId, queueId ≠ world.queueCount →
      (world.startNewQueue paneId event).countTurns queueId = world.countTurns queueId := by
    intro queueId ho
    simp only [countTurns, hq queueId ho]
    rfl
  have hturnsSelf : (world.startNewQueue paneId event).countTurns world.queueCount = 0 := if_neg (hsrv _)
  have hcountSelf : world.countSentWakes world.queueCount = 0 := by
    by_contra hpos
    apply hunheld
    rw [countSentWakes] at hpos
    by_cases hwake : world.queueCount ∈ world.inboxWakes
    · exact .inr (.inl hwake)
    · rw [count_eq_zero.2 hwake, Nat.add_zero] at hpos
      exact .inl (List.mem_map_of_mem (count_pos_iff.1 (Nat.pos_of_ne_zero hpos)))
  refine { h with
    started := ?_
    registeredPane := ?_
    heldPane := ?_
    phases := ?_
    registered := ?_
    closing := ?_
    wakes_le := ?_
    wakes := ?_
    stale := ?_
    engine := ?_
    unserved := ?_ }
  · intro queueId hh
    by_cases hs : queueId = world.queueCount
    · exact hs ▸ Nat.lt_succ_self _
    · refine Nat.lt_succ_of_lt (h.started queueId ?_)
      rcases hh with hca | hwake | hso | hcl
      · exact .inl (((hcallIds queueId).1 hca).resolve_right hs)
      · exact .inr (.inl hwake)
      · exact .inr (.inr (.inl (hq queueId hs ▸ hso)))
      · exact .inr (.inr (.inr hcl))
  · intro openId queueId he
    by_cases hpa : openId = paneId
    · subst hpa
      simp only [PaneOutputWorld.startNewQueue, update_self, some_inj] at he
      subst he
      exact ⟨congrArg (·.paneId) hself, Nat.lt_succ_self _⟩
    · simp only [PaneOutputWorld.startNewQueue, update_of_ne hpa] at he
      obtain ⟨hentryBefore, -⟩ := filter_eq_some_iff.1 he
      obtain ⟨hs, hlt⟩ := h.registeredPane openId queueId hentryBefore
      exact ⟨(congrArg (·.paneId) (hq queueId (Nat.ne_of_lt hlt))).trans hs, Nat.lt_succ_of_lt hlt⟩
  · intro openId queueId hso
    obtain ⟨hs, hlive, hop⟩ := h.heldPane openId queueId hso
    have ho : queueId ≠ world.queueCount := fun heq => hsrv openId (heq ▸ hso)
    refine ⟨?_, hlive, ?_⟩
    · exact (congrArg (·.paneId) (hq queueId ho)).trans hs
    · exact (congrArg (·.queueState.isClosed) (hq queueId ho)).trans hop
  · intro call hca
    rcases mem_append.1 hca with hca | hca
    · exact h.phases call hca
    · rw [mem_singleton.1 hca]
      exact .inr ⟨event, rfl⟩
  · intro queueId hlt hop
    by_cases hs : queueId = world.queueCount
    · subst hs
      constructor
      · rw [hself]
        simp only [PaneOutputWorld.startNewQueue, PaneOutputQueue.start, update_self]
      · exact .inl ((hcallIds _).2 (.inr rfl))
    · have hltBefore : queueId < world.queueCount := Nat.lt_of_le_of_ne (Nat.le_of_lt_succ hlt) hs
      have hbefore : (world.queueById queueId).queueState.isClosed = false := hq queueId hs ▸ hop
      obtain ⟨-, hh⟩ := h.registered queueId hltBefore hbefore
      constructor
      · rw [hq queueId hs]
        exact hregistry queueId hltBefore hbefore
      · rcases hh with hca | hwake | hso | hcl
        · exact .inl ((hcallIds queueId).2 (.inl hca))
        · exact .inr (.inl hwake)
        · refine .inr (.inr (.inl ?_))
          rw [hq queueId hs]
          exact hso
        · exact .inr (.inr (.inr hcl))
  · intro queueId hcl
    have hlt := h.started queueId (.inr (.inr (.inr hcl)))
    exact (congrArg (·.queueState.isClosed) (hq queueId (Nat.ne_of_lt hlt))).trans (h.closing queueId hcl)
  · intro queueId
    rw [hsent]
    by_cases hs : queueId = world.queueCount
    · rw [hs, hturnsSelf, hcountSelf]
      exact Nat.zero_le 1
    · rw [hturns queueId hs]
      exact h.wakes_le queueId
  · intro queueId hlt hop
    rw [hsent]
    by_cases hs : queueId = world.queueCount
    · rw [hs, hturnsSelf, hcountSelf]
      exact congrArg (·.queueState.isWakeSent.toNat) hself.symm
    · rw [hturns queueId hs]
      have hwakes := h.wakes queueId (Nat.lt_of_le_of_ne (Nat.le_of_lt_succ hlt) hs) (hq queueId hs ▸ hop)
      exact hwakes.trans (congrArg (·.queueState.isWakeSent.toNat) (hq queueId hs).symm)
  · intro queueId hcz hsentBefore
    rw [hsent] at hsentBefore
    have hs : queueId ≠ world.queueCount := by
      rintro rfl
      exact absurd hcountSelf (Nat.pos_iff_ne_zero.1 hsentBefore)
    rw [hq queueId hs] at hcz ⊢
    exact h.stale queueId hcz hsentBefore
  · intro openId queueId hso
    have ho : queueId ≠ world.queueCount := fun heq => hsrv openId (heq ▸ hso)
    exact (h.engine openId queueId hso).trans (congrArg (·.fedEvents) (hq queueId ho).symm)
  · intro queueId hlt hop hidle
    by_cases hs : queueId = world.queueCount
    · rw [hs]
      exact congrArg (·.fedEvents) hself
    · rw [hq queueId hs] at hop hidle ⊢
      exact h.unserved queueId (Nat.lt_of_le_of_ne (Nat.le_of_lt_succ hlt) hs) hop hidle

/-! ### Every step -/

theorem inv_of_open (hinbox : after.isInboxOpen = true) (hok : ∀ queueId, (after.queueById queueId).Ok)
    (hop : after.OpenInv) : after.Inv :=
  ⟨hok, fun _ => hop, fun hcz => absurd (hinbox.symm.trans hcz) Bool.false_ne_true.symm⟩

section

variable (h : world.Inv)

include h

theorem Inv.startCall (paneId : PaneId) (event : PaneEvent) : (world.startCall paneId event).Inv := by
  rw [PaneOutputWorld.startCall]
  split_ifs
  · exact h
  · rw [findOrStartOutputQueue]
    cases hfo : (world.registeredQueueByPaneId paneId).filter (world.IsHeld ·) with
    | none =>
      have hok := ok_update h.ok world.queueCount (ok_start paneId)
      exact ⟨hok, fun hop => (h.inboxOpen hop).startNewQueue hfo event, h.inboxClosed⟩
    | some queueId =>
      refine ⟨h.ok, fun hop => ?_, h.inboxClosed⟩
      obtain ⟨he, -⟩ := filter_eq_some_iff.1 hfo
      exact (h.inboxOpen hop).findQueue ((h.inboxOpen hop).registeredPane paneId queueId he).2 event

theorem Inv.continueCall {index : Nat} (hstep : world.continueCall index = some after) : after.Inv := by
  rw [PaneOutputWorld.continueCall] at hstep
  cases hca : world.sinkCalls[index]? with
  | none =>
    rw [hca] at hstep
    cases hstep
  | some call =>
    obtain ⟨queueId, phase⟩ := call
    obtain ⟨earlier, later, hcalls, herase, hset⟩ := sinkCalls_split hca
    simp only [hca, herase, hset] at hstep
    -- with the inbox open no call closes its queue
    have hp : world.isInboxOpen = true → phase = .sendsWake ∨ ∃ event, phase = .holdsQueue event := fun hop =>
      (h.inboxOpen hop).phases ⟨queueId, phase⟩ (hcalls ▸ mem_append_right _ mem_cons_self)
    cases phase with
    | holdsQueue event =>
      simp only at hstep
      split_ifs at hstep with hwait hcz hflag
      · rw [← some_inj.1 hstep]
        exact ⟨h.ok, fun hop => (h.inboxOpen hop).refuse hcalls hcz, h.inboxClosed⟩
      all_goals
        have hqOpen := Bool.eq_false_of_not_eq_true hcz
        have hok := ok_update h.ok queueId ((h.ok queueId).accept hqOpen event)
        rw [← some_inj.1 hstep]
      · exact ⟨hok, fun hop => (h.inboxOpen hop).acceptQuietly hcalls hqOpen hflag, h.inboxClosed⟩
      · have hunsent := Bool.eq_false_of_not_eq_true hflag
        exact ⟨hok, fun hop => (h.inboxOpen hop).acceptWaking hcalls hqOpen hunsent, h.inboxClosed⟩
    | sendsWake =>
      simp only at hstep
      split_ifs at hstep with hinbox
      · rw [← some_inj.1 hstep]
        exact inv_of_open hinbox h.ok ((h.inboxOpen hinbox).sendWake hcalls)
      · rw [← some_inj.1 hstep]
        exact ⟨h.ok, fun hop => absurd hop hinbox, h.inboxClosed⟩
    | closesQueue =>
      rw [← some_inj.1 hstep]
      refine ⟨ok_update h.ok queueId (h.ok queueId).close, fun hop => ?_, h.inboxClosed⟩
      rcases hp hop with ho | ⟨event, ho⟩ <;> cases ho
    | leavesRegistry =>
      rw [← some_inj.1 hstep]
      obtain ⟨registry, hleave, -⟩ := leaveQueueRegistry_eq { world with sinkCalls := earlier ++ later } queueId
      rw [hleave]
      refine ⟨h.ok, fun hop => ?_, h.inboxClosed⟩
      rcases hp hop with ho | ⟨event, ho⟩ <;> cases ho

theorem Inv.handlePtyReadable (hbusy : world.IsDispatching)
    (hstep : world.handlePtyReadable = some after) : after.Inv := by
  have hop := h.inboxOpen hbusy.1
  rw [PaneOutputWorld.handlePtyReadable] at hstep
  cases hinbox : world.inboxWakes with
  | nil =>
    rw [hinbox] at hstep
    cases hstep
  | cons queueId inboxWakes =>
    simp only [hinbox] at hstep
    split_ifs at hstep with hlive
    · obtain rfl := some_inj.1 hstep
      exact inv_of_open hbusy.1 h.ok (hop.takeInWake hinbox hlive)
    · obtain rfl := some_inj.1 hstep
      have hok := ok_update h.ok queueId (h.ok queueId).close
      exact inv_of_open hbusy.1 hok (hop.closeUnknownQueue hbusy.2 hinbox hlive)

theorem Inv.serveOutputTurn (hbusy : world.IsDispatching) (hsrv : world.servedPaneId = none)
    (hstep : world.serveOutputTurn = some after) : after.Inv := by
  have hop := h.inboxOpen hbusy.1
  rw [PaneOutputWorld.serveOutputTurn] at hstep
  cases hrdy : world.readyOutputPaneIds with
  | nil =>
    rw [hrdy] at hstep
    cases hstep
  | cons paneId readyOutputPaneIds =>
    simp only [hrdy] at hstep
    cases hh : world.paneOutputQueueByPaneId paneId with
    | none =>
      simp only [hh, some_inj] at hstep
      subst hstep
      exact inv_of_open hbusy.1 h.ok (hop.skipTurn hrdy hh)
    | some queueId =>
      simp only [hh, some_inj] at hstep
      subst hstep
      have hok := ok_update h.ok queueId ((h.ok queueId).takeOutputTurn (hop.heldPane paneId queueId hh).2.2)
      exact inv_of_open hbusy.1 hok (hop.takeTurn hrdy hsrv hh)

theorem Inv.releasePane (hbusy : world.IsDispatching) (paneId : PaneId) : (world.releasePane paneId).Inv := by
  have hop := (h.inboxOpen hbusy.1).releasePane hbusy.2 paneId
  rw [PaneOutputWorld.releasePane] at hop ⊢
  cases hh : world.paneOutputQueueByPaneId paneId with
  | none =>
    simp only [hh] at hop ⊢
    exact inv_of_open hbusy.1 h.ok hop
  | some queueId =>
    simp only [hh] at hop ⊢
    exact inv_of_open hbusy.1 (ok_update h.ok queueId (h.ok queueId).close) hop

theorem Inv.leaveRegistry (hcl : world.closingQueueId = some queueId) :
    Inv { world.leaveQueueRegistry queueId with closingQueueId := none } := by
  obtain ⟨registry, hleave, -⟩ := world.leaveQueueRegistry_eq queueId
  refine ⟨?_, fun hop => ?_, fun hcz => ?_⟩
  · rw [hleave]
    exact h.ok
  · rw [hleave] at hop
    exact (h.inboxOpen hop).leaveRegistry hcl
  · rw [hleave] at hcz ⊢
    exact h.inboxClosed hcz

theorem Inv.step {action : PaneOutputAction} (hstep : world.step action = some after) : after.Inv := by
  cases action with
  | startCall paneId event =>
    obtain rfl := some_inj.1 hstep
    exact h.startCall paneId event
  | continueCall index => exact h.continueCall hstep
  | handleWake =>
    rw [PaneOutputWorld.step] at hstep
    split_ifs at hstep with hbusy
    exact h.handlePtyReadable hbusy hstep
  | serveTurn =>
    rw [PaneOutputWorld.step] at hstep
    split_ifs at hstep with hguard
    exact h.serveOutputTurn hguard.1 hguard.2 hstep
  | putBack =>
    rw [PaneOutputWorld.step] at hstep
    split_ifs at hstep with hbusy
    obtain ⟨paneId, hsrv, rfl⟩ := map_eq_some_iff.1 hstep
    exact inv_of_open hbusy.1 h.ok ((h.inboxOpen hbusy.1).putBack hsrv)
  | removePane paneId =>
    rw [PaneOutputWorld.step] at hstep
    split_ifs at hstep with hbusy
    obtain rfl := some_inj.1 hstep
    exact h.releasePane hbusy paneId
  | leaveRegistry =>
    obtain ⟨queueId, hcl, rfl⟩ := map_eq_some_iff.1 hstep
    exact h.leaveRegistry hcl
  | spawnPane paneId =>
    rw [PaneOutputWorld.step] at hstep
    split_ifs at hstep with hguard
    obtain rfl := some_inj.1 hstep
    exact inv_of_open hguard.1.1 h.ok ((h.inboxOpen hguard.1.1).parkPanePty hguard.2)
  | dropServer =>
    rw [PaneOutputWorld.step] at hstep
    split_ifs at hstep with hbusy
    obtain rfl := some_inj.1 hstep
    exact ⟨h.ok, fun hop => Bool.noConfusion hop, fun _ => ⟨rfl, rfl⟩⟩

end

variable {shouldWaitForQueueRoom : Bool}

theorem Reachable.inv (h : Reachable shouldWaitForQueueRoom world) : world.Inv := by
  induction h with
  | initial => exact inv_initial shouldWaitForQueueRoom
  | step action _ hstep ih => exact ih.step hstep

/-! ### Delivery -/

theorem OpenInv.engine_eq (h : world.OpenInv) (hstart : queueId < world.queueCount)
    (hop : (world.queueById queueId).queueState.isClosed = false)
    (hlive : (world.queueById queueId).paneId ∈ world.livePaneIds) :
    world.engineEventsByPaneId (world.queueById queueId).paneId = (world.queueById queueId).fedEvents := by
  by_cases hh : world.paneOutputQueueByPaneId (world.queueById queueId).paneId = some queueId
  · exact h.engine _ queueId hh
  · have hnone : world.paneOutputQueueByPaneId (world.queueById queueId).paneId = none := by
      by_contra hso
      obtain ⟨j, hso⟩ := ne_none_iff_exists'.1 hso
      exact hh (h.held_eq hstart hop hso ▸ hso)
    rw [h.idle _ (fun _ => hlive) hnone, h.unserved queueId hstart hop hh]

structure IsLiveQueue (world : PaneOutputWorld) (queueId : Nat) : Prop where
  started : queueId < world.queueCount
  isOpen : (world.queueById queueId).queueState.isClosed = false
  live : (world.queueById queueId).paneId ∈ world.livePaneIds

theorem Inv.openInv (h : world.Inv) (hq : world.IsLiveQueue queueId) : world.OpenInv := by
  cases hinbox : world.isInboxOpen with
  | true => exact h.inboxOpen hinbox
  | false =>
    have hlive := hq.live
    rw [(h.inboxClosed hinbox).1] at hlive
    exact absurd hlive (Finset.notMem_empty _)

theorem Inv.engine_eq (h : world.Inv) (hq : world.IsLiveQueue queueId) :
    world.engineEventsByPaneId (world.queueById queueId).paneId = (world.queueById queueId).fedEvents :=
  (h.openInv hq).engine_eq hq.started hq.isOpen hq.live

theorem Inv.hasWake (h : world.Inv) (hq : world.IsLiveQueue queueId)
    (hso : (world.queueById queueId).queueState.outputChunks ≠ [] ∨
      (world.queueById queueId).queueState.exitStatus ≠ none) : world.HasWake queueId :=
  (h.openInv hq).hasWake hq.started hq.isOpen ((h.ok queueId).waked hso)

/-- **Pane output is delivered.** In every world that steps reach: a queue's byte count is that of its chunks; what the
open queue of a live pane was given is what the pane's engine was fed and what the queue still holds, in order; what any
queue handed over is a beginning of what it was given, and an exit is handed over after every chunk pushed before it;
the open queue of a live pane that holds something has its wake about to be sent, in the inbox, in the rotation or being
served, and the inbox holds at most one wake of a queue; so once nothing is under way, the engine has it all. -/
theorem paneOutput_is_delivered {shouldWaitForQueueRoom : Bool} {world : PaneOutputWorld}
    (h : Reachable shouldWaitForQueueRoom world) :
    (∀ queueId, (world.queueById queueId).queueState.queuedByteCount =
      ((world.queueById queueId).queueState.outputChunks.map List.length).sum) ∧
    (∀ queueId, world.IsLiveQueue queueId →
      listOutputs (world.queueById queueId).pushedEvents =
        listOutputs (world.engineEventsByPaneId (world.queueById queueId).paneId) ++
          (world.queueById queueId).queueState.outputChunks ∧
      ExitsFollowChunks (world.queueById queueId).pushedEvents
        (world.engineEventsByPaneId (world.queueById queueId).paneId)) ∧
    (∀ queueId, listOutputs (world.queueById queueId).fedEvents <+: listOutputs (world.queueById queueId).pushedEvents ∧
      ExitsFollowChunks (world.queueById queueId).pushedEvents (world.queueById queueId).fedEvents) ∧
    (∀ queueId, world.IsLiveQueue queueId →
      (world.queueById queueId).queueState.outputChunks ≠ [] ∨ (world.queueById queueId).queueState.exitStatus ≠ none →
        world.HasWake queueId) ∧
    (∀ queueId, world.inboxWakes.count queueId ≤ 1) ∧
    (world.sinkCalls = [] → world.inboxWakes = [] → world.readyOutputPaneIds = [] → world.servedPaneId = none →
      ∀ queueId, world.IsLiveQueue queueId →
        listOutputs (world.engineEventsByPaneId (world.queueById queueId).paneId) =
          listOutputs (world.queueById queueId).pushedEvents) := by
  have hinv := h.inv
  have hchunks : ∀ queueId, world.IsLiveQueue queueId →
      listOutputs (world.queueById queueId).pushedEvents =
        listOutputs (world.engineEventsByPaneId (world.queueById queueId).paneId) ++
          (world.queueById queueId).queueState.outputChunks := by
    intro queueId hqueue
    rw [hinv.engine_eq hqueue]
    exact (hinv.ok queueId).chunks hqueue.isOpen
  refine ⟨fun queueId => (hinv.ok queueId).bytes, ?_,
    fun queueId => ⟨(hinv.ok queueId).fed, (hinv.ok queueId).exits⟩, fun queueId => hinv.hasWake, ?_, ?_⟩
  · intro queueId hqueue
    refine ⟨hchunks queueId hqueue, ?_⟩
    rw [hinv.engine_eq hqueue]
    exact (hinv.ok queueId).exits
  · intro queueId
    cases hinbox : world.isInboxOpen with
    | true =>
      have hle := (hinv.inboxOpen hinbox).wakes_le queueId
      rw [countSentWakes] at hle
      omega
    | false =>
      rw [(hinv.inboxClosed hinbox).2]
      exact Nat.zero_le 1
  · intro hcalls hinbox hready hserved queueId hqueue
    have hnone : (world.queueById queueId).queueState.outputChunks = [] := by
      by_contra hsome
      have hwake := hinv.hasWake hqueue (.inl hsome)
      simp [HasWake, hcalls, hinbox, hready, hserved] at hwake
    rw [hchunks queueId hqueue, hnone, append_nil]

theorem Reachable.run (h : Reachable shouldWaitForQueueRoom world) {actions : List PaneOutputAction}
    (hrun : world.run actions = some after) :
    Reachable shouldWaitForQueueRoom after :=
  Base.foldlM_invariant (Reachable shouldWaitForQueueRoom) (fun h hstep => h.step _ hstep) h hrun

/-- One chunk and an exit of a live pane, pushed before its first wake is handled. -/
theorem paneOutput_is_delivered_oneChunk :
    ∃ world, run (initial true) [.spawnPane ⟨1⟩, .startCall ⟨1⟩ (.output [65]), .continueCall 0,
        .startCall ⟨1⟩ (.exit (.exitCode 0)), .continueCall 1, .continueCall 0, .handleWake, .serveTurn] = some world ∧
      world.engineEventsByPaneId ⟨1⟩ = [.output [65], .exit (.exitCode 0)] ∧
      listOutputs (world.engineEventsByPaneId ⟨1⟩) = listOutputs (world.queueById 0).pushedEvents := by
  have hrun : (run (initial true) [.spawnPane ⟨1⟩, .startCall ⟨1⟩ (.output [65]), .continueCall 0,
      .startCall ⟨1⟩ (.exit (.exitCode 0)), .continueCall 1, .continueCall 0, .handleWake, .serveTurn]).map
      (fun world => (world.engineEventsByPaneId ⟨1⟩, world.sinkCalls, world.inboxWakes, world.readyOutputPaneIds,
        world.servedPaneId, world.queueCount, (world.queueById 0).queueState.isClosed, (world.queueById 0).paneId,
        decide (⟨1⟩ ∈ world.livePaneIds))) =
    some ([.output [65], .exit (.exitCode 0)], [], [], [], none, 1, false, ⟨1⟩, true) := by rfl
  obtain ⟨world, hworld, hfields⟩ := map_eq_some_iff.1 hrun
  simp only [Prod.mk.injEq, decide_eq_true_eq] at hfields
  obtain ⟨hengine, hcalls, hinbox, hready, hserved, hcount, hopen, hpane, hlive⟩ := hfields
  have hqueue : world.IsLiveQueue 0 := ⟨hcount ▸ Nat.one_pos, hopen, hpane ▸ hlive⟩
  have hdelivered := (paneOutput_is_delivered (Reachable.initial.run hworld)).2.2.2.2.2 hcalls hinbox hready
      hserved 0 hqueue
  exact ⟨world, hworld, hengine, hpane ▸ hdelivered⟩

end PaneOutputWorld

end Koshi.Runtime
