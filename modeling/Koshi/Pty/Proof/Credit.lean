import Koshi.Pty.Proof.CreditPanes
import Koshi.Runtime.Proof.PtyInbox

/-!
# Output credit is conserved

Where a pane's window is: what the supervisor may still send, and the bytes that are outstanding, from the frame that
carries them to the grant that answers them. A step moves bytes from one of these to the next; what a step may lose, it
loses of a pane that is being closed, or that is marked as one that lost a grant or held output of an earlier link.
-/

namespace Koshi.Pty

open Base Ipc Daemon Koshi.Runtime List Option Function CreditWorld LinkState

def countEventOutput (paneId : PaneUuid) : Option SupervisorEvent → Nat
  | some (.output id' bytes) => if id' = paneId then bytes.length else 0
  | _ => 0

def countFrameOutput (paneId : PaneUuid) : SupervisorFrame → Nat
  | .pane frame => countEventOutput paneId frame.readEvent
  | _ => 0

def countRequestGrant (paneId : PaneUuid) : SupervisorRequestKind → Nat
  | .grantPaneOutput id' granted => if id' = paneId then granted else 0
  | _ => 0

namespace CreditWorld

/-- The pane's output bytes on their way over the link. -/
def countOutputInFlight (world : CreditWorld) (paneId : PaneUuid) : Nat :=
  ((world.framesByLink world.linkCount).map (countFrameOutput paneId)).sum

/-- The pane's bytes in its queue and in the turn that parses them. -/
def countQueuedOutput (world : CreditWorld) (paneId : PaneUuid) : Nat :=
  countBytes (world.queueByPaneId paneId).outputChunks + match world.outputTurn with
    | some (.parses id' taken) => if id' = paneId then taken else 0
    | _ => 0

/-- The pane's parsed bytes that are not granted back. -/
def countUngranted (world : CreditWorld) (paneId : PaneUuid) : Nat :=
  (world.ungrantedByteCountByPaneId paneId).getD 0

/-- The bytes of the pane's grants on their way to the supervisor. -/
def countGrantsInFlight (world : CreditWorld) (paneId : PaneUuid) : Nat :=
  ((world.requestsByLink world.linkCount).map (countRequestGrant paneId)).sum + match world.outputTurn with
    | some (.grants id' granted) => if id' = paneId then granted else 0
    | _ => 0

/-- The part of the pane's window that is not credit. -/
def countOutstanding (world : CreditWorld) (paneId : PaneUuid) : Nat :=
  world.countOutputInFlight paneId + world.countQueuedOutput paneId + world.countUngranted paneId +
    world.countGrantsInFlight paneId

theorem countOutstanding_eq (world : CreditWorld) (paneId : PaneUuid) : world.countOutstanding paneId =
    ((world.framesByLink world.linkCount).map (countFrameOutput paneId)).sum +
        (countBytes (world.queueByPaneId paneId).outputChunks + match world.outputTurn with
          | some (.parses j taken) => if j = paneId then taken else 0
          | _ => 0) +
      (world.ungrantedByteCountByPaneId paneId).getD 0 +
      (((world.requestsByLink world.linkCount).map (countRequestGrant paneId)).sum + match world.outputTurn with
        | some (.grants j granted) => if j = paneId then granted else 0
        | _ => 0) := rfl

end CreditWorld

/-- The session server is on its link, has the pane's queue open with output of this link alone, and lost no grant. -/
def IsCounted (world : CreditWorld) (paneId : PaneUuid) : Prop :=
  world.isLinkClosed = false ∧ world.hasEarlierOutput paneId = false ∧ paneId ∉ world.lostGrantPaneIds ∧
    paneId ∉ world.closedQueuePaneIds

structure CreditOk (world : CreditWorld) : Prop where
  creditBound : ∀ paneId, world.linkState.getOutputCredit paneId ≤ paneOutputWindowByteCount
  ungrantedBound : ∀ paneId ungranted, world.ungrantedByteCountByPaneId paneId = some ungranted →
    ungranted < minimumOutputGrantByteCount
  closedQueue : ∀ paneId, (world.queueByPaneId paneId).isClosed = true → paneId ∈ world.closedQueuePaneIds
  turnOpened : ∀ paneId taken, world.outputTurn = some (.parses paneId taken) → paneId ∈ world.openedPaneIds
  opened : world.isLinkClosed = false → ∀ paneId ∈ world.openedPaneIds,
    world.ungrantedByteCountByPaneId paneId ≠ none ∨ paneId ∈ world.killSentPaneIds
  unopened : world.connectPhase ≠ .connected → world.openedPaneIds = ∅
  unserved : world.linkState.linkGeneration < world.linkCount → ∀ paneId, IsCounted world paneId →
    (world.queueByPaneId paneId).outputChunks = []
  balance : world.linkState.linkGeneration = world.linkCount → ∀ paneId, IsCounted world paneId → Stands world paneId →
    world.linkState.getOutputCredit paneId + world.countOutstanding paneId = paneOutputWindowByteCount
  quiet : ∀ paneId, IsCounted world paneId → ExitedBefore world paneId → world.countOutstanding paneId = 0

/-! ### Moving bytes -/

variable {lk : Nat}

variable {queueByPaneId : PaneUuid → PaneOutputQueueState} {frames : List SupervisorFrame}

section

variable (world : CreditWorld) (paneId : PaneUuid)

theorem countBytes_append (chunks laterChunks : List (List UInt8)) :
    countBytes (chunks ++ laterChunks) = countBytes chunks + countBytes laterChunks := by
  simp [countBytes]

/-- A frame that goes out is outstanding when it goes out on the session server's link. -/
theorem countOutstanding_appendFrame (lk : Nat) (fr : SupervisorFrame) :
    (world.appendFrame lk fr).countOutstanding paneId =
      world.countOutstanding paneId + if lk = world.linkCount then countFrameOutput paneId fr else 0 := by
  have hframes : (world.appendFrame lk fr).countOutputInFlight paneId =
      world.countOutputInFlight paneId + if lk = world.linkCount then countFrameOutput paneId fr else 0 := by
    show ((update world.framesByLink lk _ world.linkCount).map _).sum = _
    rw [update_apply]
    by_cases heq : lk = world.linkCount
    · rw [if_pos heq.symm, if_pos heq, map_append, sum_append, heq]
      rfl
    · rw [if_neg (Ne.symm heq), if_neg heq]
      rfl
  have hr : (world.appendFrame lk fr).countOutstanding paneId =
      (world.appendFrame lk fr).countOutputInFlight paneId + world.countQueuedOutput paneId +
        world.countUngranted paneId + world.countGrantsInFlight paneId := rfl
  rw [hr, hframes, countOutstanding]
  omega

theorem countOutstanding_takeFrame {fr : SupervisorFrame} (hframes : world.framesByLink lk = fr :: frames) :
    world.countOutstanding paneId =
      (if lk = world.linkCount then countFrameOutput paneId fr else 0) +
        ({ world with framesByLink := update world.framesByLink lk frames } : CreditWorld).countOutstanding paneId := by
  have hc : world.countOutputInFlight paneId =
      (if lk = world.linkCount then countFrameOutput paneId fr else 0) +
        ((update world.framesByLink lk frames world.linkCount).map (countFrameOutput paneId)).sum := by
    rw [update_apply, countOutputInFlight]
    by_cases heq : lk = world.linkCount
    · rw [if_pos heq, if_pos heq.symm, ← heq, hframes, map_cons, sum_cons]
    · rw [if_neg heq, if_neg (Ne.symm heq), Nat.zero_add]
  have hr : ({ world with framesByLink := update world.framesByLink lk frames } :
      CreditWorld).countOutstanding paneId =
        ((update world.framesByLink lk frames world.linkCount).map (countFrameOutput paneId)).sum +
          world.countQueuedOutput paneId + world.countUngranted paneId + world.countGrantsInFlight paneId := rfl
  rw [hr, countOutstanding, hc]
  omega

theorem countOutstanding_takeRequest {request : SupervisorRequestKind} {requests : List SupervisorRequestKind}
    (hrequests : world.requestsByLink lk = request :: requests) :
    world.countOutstanding paneId =
      (if lk = world.linkCount then countRequestGrant paneId request else 0) +
        ({ world with requestsByLink := update world.requestsByLink lk requests } :
          CreditWorld).countOutstanding paneId := by
  have hc : ((world.requestsByLink world.linkCount).map (countRequestGrant paneId)).sum =
      (if lk = world.linkCount then countRequestGrant paneId request else 0) +
        ((update world.requestsByLink lk requests world.linkCount).map (countRequestGrant paneId)).sum := by
    rw [update_apply]
    by_cases heq : lk = world.linkCount
    · rw [if_pos heq, if_pos heq.symm, ← heq, hrequests, map_cons, sum_cons]
    · rw [if_neg heq, if_neg (Ne.symm heq), Nat.zero_add]
  simp only [countOutstanding_eq, hc]
  omega

theorem countOutstanding_sendRequest (request : SupervisorRequestKind) (wr : Bool) :
    (world.sendRequest request wr).countOutstanding paneId = world.countOutstanding paneId +
      if world.isLinkClosed = false ∧ wr = true then countRequestGrant paneId request else 0 := by
  unfold sendRequest
  split
  · have hc : ((update world.requestsByLink world.linkCount
        (world.requestsByLink world.linkCount ++ [request]) world.linkCount).map (countRequestGrant paneId)).sum =
        ((world.requestsByLink world.linkCount).map (countRequestGrant paneId)).sum + countRequestGrant paneId
          request := by
      rw [update_self, map_append, sum_append]
      rfl
    simp only [countOutstanding_eq, hc]
    omega
  · rfl

def countPaneEventOutput : PaneEvent → Nat
  | .output chunk => chunk.length
  | .exit _ => 0

theorem countBytes_accept (qState : PaneOutputQueueState) (event : PaneEvent) :
    countBytes (qState.accept event).outputChunks = countBytes qState.outputChunks + countPaneEventOutput event := by
  cases event with
  | output chunk => exact countBytes_append qState.outputChunks [chunk]
  | exit exitStatus => rfl

theorem pushPaneEvent_eq (pushed : PaneUuid) (ev : PaneEvent) (fresh : Bool) :
    ∃ queueByPaneId, world.pushPaneEvent pushed ev fresh = { world with queueByPaneId } ∧
      (∀ j, j ≠ pushed → queueByPaneId j = world.queueByPaneId j) ∧
      ((queueByPaneId pushed).isClosed = true → (world.queueByPaneId pushed).isClosed = true) ∧
      ((world.queueByPaneId pushed).isClosed = false → countBytes (queueByPaneId pushed).outputChunks =
        countBytes (world.queueByPaneId pushed).outputChunks + countPaneEventOutput ev) := by
  have hcz : ∀ qState : PaneOutputQueueState, (qState.accept ev).isClosed = qState.isClosed := by
    intro qState
    cases ev <;> rfl
  unfold pushPaneEvent
  dsimp only
  split
  · next hem =>
    refine ⟨world.queueByPaneId, rfl, fun _ _ => rfl, id, fun _ => ?_⟩
    rw [hem]
    rfl
  · split
    · next hop =>
      refine ⟨_, rfl, fun j ho => update_of_ne ho _ _, ?_, fun _ => ?_⟩
      · rw [update_self, hcz]
        exact id
      · rw [update_self, countBytes_accept]
    · next hop =>
      split
      · refine ⟨_, rfl, fun j ho => update_of_ne ho _ _, ?_, fun ho => absurd ho hop⟩
        rw [update_self, hcz]
        exact nofun
      · exact ⟨world.queueByPaneId, rfl, fun _ _ => rfl, id, fun ho => absurd ho hop⟩

theorem receivePaneFrame_eq (world : CreditWorld) (fr : LinkFrame) (fresh : Bool) :
    ∃ queueByPaneId exitedPaneIds, world.receivePaneFrame fr fresh = { world with queueByPaneId, exitedPaneIds } ∧
      ∀ paneId, (queueByPaneId paneId).isClosed = true → (world.queueByPaneId paneId).isClosed = true := by
  unfold receivePaneFrame
  split
  · next pushed bs _ =>
    obtain ⟨queueByPaneId, heq, hothers, hcz, -⟩ := pushPaneEvent_eq world pushed (.output bs) fresh
    refine ⟨queueByPaneId, world.exitedPaneIds, heq, fun paneId hn => ?_⟩
    by_cases hpa : paneId = pushed
    · subst hpa
      exact hcz hn
    · rwa [hothers paneId hpa] at hn
  · next pushed exitStatus _ =>
    obtain ⟨queueByPaneId, heq, hothers, hcz, -⟩ := pushPaneEvent_eq
      { world with exitedPaneIds := insert pushed world.exitedPaneIds } pushed (.exit (toExitStatus exitStatus)) fresh
    refine ⟨queueByPaneId, insert pushed world.exitedPaneIds, heq, fun paneId hn => ?_⟩
    by_cases hpa : paneId = pushed
    · subst hpa
      exact hcz hn
    · rwa [hothers paneId hpa] at hn
  · exact ⟨world.queueByPaneId, world.exitedPaneIds, rfl, fun _ => id⟩

variable {world paneId}

/-- What is outstanding when a pane of which nothing is ungranted enters or leaves the book. -/
theorem countOutstanding_setBook {ungrantedByteCountByPaneId : PaneUuid → Option Nat} {paneId : PaneUuid}
    (hs : (ungrantedByteCountByPaneId paneId).getD 0 = (world.ungrantedByteCountByPaneId paneId).getD 0) :
    ({ world with ungrantedByteCountByPaneId } : CreditWorld).countOutstanding paneId =
      world.countOutstanding paneId := by
  simp only [countOutstanding_eq, hs]

theorem countOutstanding_setQueue {addedByteCount : Nat} (hby : countBytes (queueByPaneId paneId).outputChunks =
      countBytes (world.queueByPaneId paneId).outputChunks + addedByteCount) :
    ({ world with queueByPaneId } : CreditWorld).countOutstanding paneId =
      world.countOutstanding paneId + addedByteCount := by
  simp only [countOutstanding_eq, hby]
  omega

theorem countOutstanding_receivePaneFrame (world : CreditWorld) (fr : LinkFrame) (fresh : Bool)
    (hop : (world.queueByPaneId paneId).isClosed = false) :
    (world.receivePaneFrame fr fresh).countOutstanding paneId =
      world.countOutstanding paneId + countEventOutput paneId fr.readEvent := by
  have hpush : ∀ (world' : CreditWorld) pushed ev, world'.queueByPaneId = world.queueByPaneId →
      (world'.pushPaneEvent pushed ev fresh).countOutstanding paneId =
        world'.countOutstanding paneId + if pushed = paneId then countPaneEventOutput ev else 0 := by
    intro world' pushed ev hqueues
    obtain ⟨queueByPaneId, heq, hothers, -, hby⟩ := pushPaneEvent_eq world' pushed ev fresh
    rw [heq]
    refine countOutstanding_setQueue ?_
    by_cases hpa : pushed = paneId
    · subst hpa
      rw [if_pos rfl]
      exact hby (by rw [hqueues]; exact hop)
    · rw [if_neg hpa, hothers paneId (Ne.symm hpa)]
      rfl
  unfold receivePaneFrame
  split
  · next pushed bs hev =>
    rw [hpush world pushed (.output bs) rfl, hev]
    rfl
  · next pushed exitStatus hev =>
    refine (hpush { world with exitedPaneIds := insert pushed world.exitedPaneIds } pushed _ rfl).trans ?_
    rw [hev, countPaneEventOutput, ite_self]
    rfl
  · next hev =>
    rw [hev]
    rfl

end

/-! ### The steps -/

theorem countOutstanding_unserved {world : CreditWorld} {paneId : PaneUuid} (hli : LinksOk world)
    (hbehind : world.linkState.linkGeneration < world.linkCount) (hop : world.isLinkClosed = false)
    (hq : (world.queueByPaneId paneId).outputChunks = []) : world.countOutstanding paneId = 0 := by
  have hp : world.connectPhase = .awaitsHello := by
    by_contra ho
    have hpast : ¬ world.connectPhase.IsPastHello := by
      intro hpast
      have := (hli.pastHello (.inl hpast)).1
      omega
    cases hconnect : world.connectPhase with
    | unlinked =>
      rw [hli.closed hconnect] at hop
      cases hop
    | awaitsHello => exact ho hconnect
    | _ =>
      rw [hconnect] at hpast
      exact hpast trivial
  obtain ⟨hdr, hturn, -⟩ := hli.undriven (by rw [hp]; exact nofun)
  have hgrants : ((world.requestsByLink world.linkCount).map (countRequestGrant paneId)).sum = 0 := by
    refine sum_eq_zero fun count hc => ?_
    obtain ⟨request, hreq, rfl⟩ := List.mem_map.1 hc
    obtain ⟨_, _, _, rfl⟩ := hli.greets hp request hreq
    rfl
  simp only [countOutstanding_eq, hli.unsent _ hbehind, hq, hturn, hdr paneId, hgrants]
  rfl

namespace CreditOk

open CreditWorld

theorem initial (token : ConnectionToken) : CreditOk (.initial token) where
  creditBound := fun _ => Nat.le_refl _
  ungrantedBound := nofun
  closedQueue := nofun
  turnOpened := nofun
  opened := nofun
  unopened := fun _ => rfl
  unserved := fun h => absurd h (Nat.lt_irrefl 0)
  balance := fun _ _ h => nomatch h.1
  quiet := fun _ h => nomatch h.1

variable {world : CreditWorld} (h : CreditOk world)

variable {paneId : PaneUuid} {request : SupervisorRequestKind} {wr : Bool} {after : CreditWorld}
  {hd : SupervisorHandshake} {requests : List SupervisorRequestKind} {granted : Nat}

include h

theorem isOpen (hcd : IsCounted world paneId) : (world.queueByPaneId paneId).isClosed = false := by
  by_contra hcz
  exact hcd.2.2.2 (h.closedQueue paneId (by simpa using hcz))

theorem keepCredit (st : LinkState) (hgen : st.linkGeneration = world.linkState.linkGeneration)
    (hcl : st.closingPaneIds = world.linkState.closingPaneIds)
    (hcredit : st.outputCreditByPaneId = world.linkState.outputCreditByPaneId) :
    CreditOk { world with linkState := st } := by
  have hg : ∀ paneId, st.getOutputCredit paneId = world.linkState.getOutputCredit paneId := by
    intro paneId
    rw [getOutputCredit, hcredit]
    rfl
  refine { h with
    creditBound := fun paneId => (hg paneId).trans_le (h.creditBound paneId)
    unserved := fun hbehind => h.unserved (by rw [← hgen]; exact hbehind)
    balance := fun hcur paneId hcd hsd => ?_ }
  rw [Stands, hcl] at hsd
  exact (congrArg (· + _) (hg paneId)).trans (h.balance (hgen.symm.trans hcur) paneId hcd hsd)

/-- Frames and requests move without changing what is outstanding of a counted pane. -/
theorem keepTransit {framesByLink : Nat → List SupervisorFrame} {requestsByLink : Nat → List SupervisorRequestKind}
    (hc : ∀ paneId, IsCounted world paneId → ({ world with
      framesByLink, requestsByLink } : CreditWorld).countOutstanding paneId = world.countOutstanding paneId) :
    CreditOk { world with framesByLink, requestsByLink } :=
  { h with
    balance := fun hcur paneId hcd hsd => by
      rw [hc paneId hcd]
      exact h.balance hcur paneId hcd hsd
    quiet := fun paneId hcd hb => by
      rw [hc paneId hcd]
      exact h.quiet paneId hcd hb }

theorem appendSilent (lk : Nat) (fr : SupervisorFrame)
    (hsilent : ∀ paneId, countFrameOutput paneId fr = 0) : CreditOk (world.appendFrame lk fr) := by
  refine h.keepTransit fun paneId _ => (countOutstanding_appendFrame world paneId lk fr).trans ?_
  rw [hsilent, ite_self]
  rfl

theorem writeAnswer {fr : SupervisorFrame} (wr : Bool) (serveLoop : ServeLoop)
    (hsilent : ∀ paneId, countFrameOutput paneId fr = 0) :
    CreditOk (world.writeAnswer fr wr serveLoop) := by
  rcases world.writeAnswer_cases fr wr serveLoop with
    ⟨lk, -, heq⟩ | ⟨st, hna, hcredit, -, heq⟩
  · rw [heq]
    exact { h.appendSilent lk _ hsilent with }
  · rw [heq]
    exact { h.keepCredit _ hna.linkGeneration hna.closingPaneIds hcredit with }

/-- A pane starts closing: it has its whole window, which it can use only when it prints nothing. -/
theorem markPaneClosing (paneId : PaneUuid) :
    CreditOk { world with linkState := world.linkState.markPaneClosing paneId } := by
  have hself : (world.linkState.markPaneClosing paneId).getOutputCredit paneId = paneOutputWindowByteCount := by
    show (update world.linkState.outputCreditByPaneId paneId none paneId).getD _ = _
    rw [update_self]
    rfl
  have ho : ∀ {j}, j ≠ paneId →
      (world.linkState.markPaneClosing paneId).getOutputCredit j = world.linkState.getOutputCredit j := by
    intro j hne
    show (update world.linkState.outputCreditByPaneId paneId none j).getD _ = _
    rw [update_of_ne hne]
    rfl
  refine { h with
    creditBound := fun j => ?_
    balance := fun hcur j hcd hsd => ?_ }
  · by_cases heq : j = paneId
    · rw [heq]
      exact hself.le
    · exact (ho heq).trans_le (h.creditBound j)
  · by_cases heq : j = paneId
    · subst heq
      have hb : ExitedBefore world j :=
        hsd.resolve_left fun hop => hop.2 (Finset.mem_insert_self _ _)
      exact (congrArg (_ + ·) (h.quiet j hcd hb)).trans hself
    · refine (congrArg (· + _) (ho heq)).trans (h.balance hcur j hcd ?_)
      exact hsd.imp (fun hop => ⟨hop.1, fun hm => hop.2 (Finset.mem_insert_of_mem hm)⟩) id

theorem sendPlain (hpl : ∀ paneId, countRequestGrant paneId request = 0) : CreditOk (world.sendRequest request wr) := by
  have hc : ∀ paneId, IsCounted world paneId →
      (world.sendRequest request wr).countOutstanding paneId = world.countOutstanding paneId := by
    intro paneId _
    rw [countOutstanding_sendRequest, hpl, ite_self]
    rfl
  have heq : ∃ requestsByLink, world.sendRequest request wr = { world with requestsByLink } := by
    unfold sendRequest
    split
    · exact ⟨_, rfl⟩
    · exact ⟨_, rfl⟩
  obtain ⟨requestsByLink, heq⟩ := heq
  rw [heq] at hc ⊢
  exact h.keepTransit hc

theorem markKilled (paneId : PaneUuid) :
    CreditOk { world with killSentPaneIds := insert paneId world.killSentPaneIds } :=
  { h with
    opened := fun hop j hm => (h.opened hop j hm).imp id Finset.mem_insert_of_mem
    balance := fun hcur j hcd hsd => h.balance hcur j hcd
      (hsd.imp (fun hop => ⟨fun hm => hop.1 (Finset.mem_insert_of_mem hm), hop.2⟩) id) }

theorem sendOutput (hli : LinksOk world) (hpanes : PanesOk world) {unsent : List UInt8}
    (hp : world.readerPhaseByPaneId paneId = .sendsOutput unsent)
    (wr : Bool) : CreditOk (world.sendOutput paneId unsent wr) := by
  unfold CreditWorld.sendOutput
  split
  · exact { h with }
  · split
    · exact { h with }
    · next hwant =>
      have hna := world.linkState.narrows_writePart paneId unsent wr
      split
      · next sent lk fr st hwr =>
        obtain ⟨hcarries, hev⟩ := writeOutputPart_wrote (fun hcl => hwant (.inr hcl)) (congrArg Prod.fst hwr)
        have hnum := hli.writer lk hcarries.frameWriter
        obtain ⟨hlen, hspent, hothers⟩ := writeOutputPart_spends
          (fun version hver => by rw [hli.version version hver]; decide)
          (h.creditBound paneId) hwr
        rw [hwr] at hna
        have hout : ∀ j, countFrameOutput j (.pane fr) = if paneId = j then sent else 0 := by
          intro j
          rw [countFrameOutput, hev, countEventOutput, length_take, Nat.min_eq_left hlen]
        have hc : ∀ j, ((({ world with linkState := st } : CreditWorld).appendFrame lk
            (.pane fr)).setReaderPhase paneId (.sendsOutput (unsent.drop sent))).countOutstanding
              j = world.countOutstanding j + if lk = world.linkCount then (if paneId = j then sent else 0) else 0 := by
          intro j
          rw [← hout]
          exact countOutstanding_appendFrame { world with linkState := st } j lk (.pane fr)
        refine { h with
          creditBound := fun j => ?_
          unserved := fun hbehind => h.unserved (by rw [← hna.linkGeneration]; exact hbehind)
          balance := fun hcur j hcd hsd => ?_
          quiet := fun j hcd hb => ?_ }
        · by_cases heq : j = paneId
          · subst heq
            exact (Nat.le_of_add_right_le hspent.le).trans (h.creditBound j)
          · exact (hothers j heq).trans_le (h.creditBound j)
        · have hcur : world.linkState.linkGeneration = world.linkCount :=
            hna.linkGeneration.symm.trans hcur
          have hsd : Stands world j := by
            rw [Stands] at hsd ⊢
            exact hsd.imp (fun hop => ⟨hop.1, fun hm => hop.2 (hna.closingPaneIds.ge hm)⟩) id
          have hb := h.balance hcur j hcd hsd
          rw [hc, if_pos (hnum.trans hcur)]
          show st.getOutputCredit j + _ = _
          by_cases heq : j = paneId
          · subst heq
            rw [if_pos rfl]
            omega
          · rw [if_neg (Ne.symm heq), hothers j heq]
            exact hb
        · -- a pane whose exit went out sends no output
          obtain ⟨exitLink, hexit, -⟩ := id hb
          have hne : paneId ≠ j := by
            rintro rfl
            have hex := (hpanes.exited paneId exitLink hexit).2
            rw [hp] at hex
            exact hex
          rw [hc, if_neg hne, ite_self]
          exact h.quiet j hcd hb
      · next st hwr =>
        rw [hwr] at hna
        exact h.keepCredit _ hna.linkGeneration hna.closingPaneIds (outputCreditByPaneId_of_unwritten hwr)

theorem continueReader (hli : LinksOk world) (hpanes : PanesOk world)
    (hstep : world.continueReader paneId wr = some after) :
    CreditOk after := by
  unfold CreditWorld.continueReader at hstep
  split at hstep
  · next unsent hp =>
    cases hstep
    exact h.sendOutput hli hpanes hp wr
  · next exitStatus hp =>
    have hna := world.linkState.narrows_sendEvent paneId (.exited paneId exitStatus) wr
    have hcredit := world.linkState.outputCreditByPaneId_sendEvent paneId (.exited paneId exitStatus) wr
    split at hstep
    · next st hsend =>
      rw [hsend] at hna hcredit
      cases hstep
      exact { h.keepCredit _ hna.linkGeneration hna.closingPaneIds hcredit with }
    · next lk fr st hsend =>
      rw [hsend] at hna hcredit
      cases hstep
      obtain ⟨hcarries, rfl⟩ := sendEvent_wrote (congrArg Prod.fst hsend)
      have hnum := hli.writer lk hcarries.frameWriter
      have hk := h.keepCredit st hna.linkGeneration hna.closingPaneIds hcredit
      -- an exit that goes out on an earlier link is one before this link carried anything
      have hb : ∀ {j}, ExitedBefore { world with
          exitLinkByPaneId := update world.exitLinkByPaneId paneId (some lk) } j →
          ExitedBefore world j ∨ world.linkState.linkGeneration < world.linkCount := by
        rintro j ⟨number, hexit, hlt⟩
        by_cases heq : j = paneId
        · subst heq
          cases (update_self ..).symm.trans hexit
          exact .inr (hnum ▸ hlt)
        · exact .inl ⟨number, (update_of_ne heq _ _).symm.trans hexit, hlt⟩
      have hmd : CreditOk { world with
          linkState := st
          exitLinkByPaneId := update world.exitLinkByPaneId paneId (some lk) } := by
        refine { hk with
          balance := fun hcur j hcd hsd => hk.balance hcur j hcd ?_
          quiet := fun j hcd hex => ?_ }
        · refine hsd.imp id fun hex => ?_
          refine (hb hex).resolve_right fun hbehind => ?_
          have hcur : st.linkGeneration = world.linkCount := hcur
          rw [hna.linkGeneration] at hcur
          omega
        · rcases hb hex with hex | hbehind
          · exact h.quiet j hcd hex
          · have hnothing := countOutstanding_unserved hli hbehind hcd.1 (h.unserved hbehind j hcd)
            exact hnothing
      exact { hmd.appendSilent lk (.pane (.event (.exited paneId exitStatus)))
        (fun _ => rfl) with }
    · next st hsend =>
      rw [hsend] at hna hcredit
      cases hstep
      exact h.keepCredit _ hna.linkGeneration hna.closingPaneIds hcredit
  · cases hstep
    exact { h with }
  · cases hstep

theorem acceptLink (hli : LinksOk world) (hstep : world.acceptLink = some after) : CreditOk after := by
  unfold CreditWorld.acceptLink at hstep
  split at hstep
  · split at hstep
    · next hbehind =>
      cases hstep
      refine { h with
        creditBound := fun _ => Nat.le_refl _
        unserved := fun hlr => h.unserved (Nat.lt_of_succ_lt hlr)
        balance := fun _ paneId hcd _ => ?_ }
      have hnothing := countOutstanding_unserved hli hbehind hcd.1 (h.unserved hbehind paneId hcd)
      exact congrArg (paneOutputWindowByteCount + ·) hnothing
    · cases hstep
  · cases hstep

theorem serveAccepted {isSpawned : Bool} {ended : List PaneUuid}
    (hpl : ∀ paneId granted, request ≠ .grantPaneOutput paneId granted)
    (hstep : world.serveAccepted hd request isSpawned ended wr = some after) :
    CreditOk after := by
  unfold CreditWorld.serveAccepted at hstep
  split at hstep
  · split at hstep
    · next version hver =>
      cases hstep
      have hopened : CreditOk { world with linkState := world.linkState.markLinkOpen version } := { h with }
      exact hopened.writeAnswer _ _ fun _ => rfl
    · cases hstep
  · next paneId =>
    split at hstep
    · cases hstep
      have hsw : CreditOk { world with
          backendPaneIds := insert paneId world.backendPaneIds
          spawnedPaneIds := insert paneId world.spawnedPaneIds } := { h with }
      exact hsw.writeAnswer _ _ fun _ => rfl
    · cases hstep
      exact h.writeAnswer _ _ fun _ => rfl
  · cases hstep
    exact { h with }
  · split at hstep
    · cases hstep
      exact { h with }
    · cases hstep
  · cases hstep
    have hpaused : CreditOk { world with linkState := world.linkState.pauseEventOutput } := { h with }
    exact hpaused.writeAnswer _ _ fun _ => rfl
  · cases hstep
    have hresumed : CreditOk { world with linkState := world.linkState.resumeEventOutput } := { h with }
    exact hresumed.writeAnswer _ _ fun _ => rfl
  · cases hstep
    exact h.writeAnswer _ _ fun _ => rfl
  · next paneId granted => exact absurd rfl (hpl paneId granted)
  · cases hstep
    exact h.writeAnswer _ _ fun _ => rfl
  · cases hstep
    exact h.writeAnswer _ _ fun _ => rfl
  · cases hstep
    exact h.writeAnswer _ _ fun _ => rfl
  · cases hstep

theorem takePlain (hrequests : world.requestsByLink lk = request :: requests)
    (hpl : ∀ paneId, countRequestGrant paneId request = 0) :
    CreditOk { world with requestsByLink := update world.requestsByLink lk requests } := by
  refine h.keepTransit fun paneId _ => ?_
  rw [countOutstanding_takeRequest world paneId hrequests, hpl, ite_self, Nat.zero_add]

theorem serveGrant (hrequests : world.requestsByLink world.linkState.linkGeneration =
      .grantPaneOutput paneId granted :: requests) :
    CreditOk { world with
      requestsByLink := update world.requestsByLink world.linkState.linkGeneration requests
      linkState := world.linkState.grantPaneOutput paneId granted } := by
  have hna := world.linkState.narrows_grantOutput paneId granted
  have hc : ∀ j, world.countOutstanding j =
      (if world.linkState.linkGeneration = world.linkCount then (if paneId = j then granted else 0) else 0) +
        ({ world with
          requestsByLink := update world.requestsByLink world.linkState.linkGeneration requests
          linkState := world.linkState.grantPaneOutput paneId granted } : CreditWorld).countOutstanding j :=
    fun j => countOutstanding_takeRequest world j hrequests
  refine { h with
    creditBound := fun j => getOutputCredit_grantOutput_le j (h.creditBound j)
    unserved := fun hbehind => h.unserved (by rw [← hna.linkGeneration]; exact hbehind)
    balance := fun hcur j hcd hsd => ?_
    quiet := fun j hcd hb => ?_ }
  · have hcur : world.linkState.linkGeneration = world.linkCount := hna.linkGeneration.symm.trans hcur
    have hsd : Stands world j :=
      hsd.imp (fun hop => ⟨hop.1, fun hm => hop.2 (hna.closingPaneIds.ge hm)⟩) id
    have hsum := h.balance hcur j hcd hsd
    have htk := hc j
    rw [if_pos hcur] at htk
    show (world.linkState.grantPaneOutput paneId granted).getOutputCredit j + _ = _
    by_cases heq : paneId = j
    · subst heq
      rw [if_pos rfl] at htk
      by_cases hcl : paneId ∈ world.linkState.closingPaneIds
      · have hquiet := h.quiet paneId hcd (hsd.resolve_left fun hop => hop.2 hcl)
        rw [grantPaneOutput, if_pos hcl]
        rw [grantPaneOutput, if_pos hcl] at htk
        omega
      · rw [getOutputCredit_grantOutput hcl (by omega)]
        omega
    · rw [if_neg heq, Nat.zero_add] at htk
      rw [← htk, getOutputCredit_grantOutput_of_ne (Ne.symm heq)]
      exact hsum
  · have hquiet := h.quiet j hcd hb
    have htk := hc j
    omega

omit h in
/-- The gate refuses a grant before the Hello alone, and then the session server has no link or awaits its Hello. -/
theorem isLinkClosed_of_refused (hli : LinksOk world) {refusal : IpcErrorPayload}
    (hgate : world.serveLoop.gate = some hd)
    (hreq : .grantPaneOutput paneId granted ∈ world.requestsByLink world.linkState.linkGeneration)
    (hv : hd.validateRequestKind (.grantPaneOutput paneId granted) = .error refusal)
    (hcur : world.linkState.linkGeneration = world.linkCount) : world.isLinkClosed = true := by
  have hb : ¬ world.connectPhase.IsPastHello := by
    intro hpast
    have hknown := isSome_iff_ne_none.2 (hli.window_known hgate hpast)
    simp only [SupervisorHandshake.validateRequestKind, VersionGate.validateNonHelloRequestKind] at hv
    rw [if_pos hknown] at hv
    cases hv
  cases hconnect : world.connectPhase with
  | unlinked => exact hli.closed hconnect
  | awaitsHello =>
    rw [hcur] at hreq
    obtain ⟨_, _, _, hki⟩ := hli.greets hconnect _ hreq
    cases hki
  | _ =>
    rw [hconnect] at hb
    exact absurd trivial hb

theorem refuseGrant (hli : LinksOk world) {refusal : IpcErrorPayload}
    (hgate : world.serveLoop.gate = some hd) (hrequests : world.requestsByLink world.linkState.linkGeneration =
      .grantPaneOutput paneId granted :: requests)
    (hv : hd.validateRequestKind (.grantPaneOutput paneId granted) = .error refusal) :
    CreditOk { world with
      requestsByLink := update world.requestsByLink world.linkState.linkGeneration requests } := by
  have hreq : .grantPaneOutput paneId granted ∈ world.requestsByLink world.linkState.linkGeneration := by
    rw [hrequests]
    exact mem_cons_self
  refine h.keepTransit fun j hcd => ?_
  have ho : world.linkState.linkGeneration ≠ world.linkCount := by
    intro hcur
    exact nomatch (isLinkClosed_of_refused hli hgate hreq hv hcur).symm.trans hcd.1
  rw [countOutstanding_takeRequest world j hrequests, if_neg ho, Nat.zero_add]

theorem serveRequest (hli : LinksOk world) {isSpawned : Bool} {ended : List PaneUuid}
    (hstep : world.serveRequest isSpawned ended wr = some after) :
    CreditOk after := by
  unfold CreditWorld.serveRequest at hstep
  split at hstep
  · next hd request requests hloop hrequests =>
    dsimp only at hstep
    by_cases hgrant : ∃ paneId granted, request = .grantPaneOutput paneId granted
    · obtain ⟨paneId, granted, rfl⟩ := hgrant
      split at hstep
      · next nextHandshake hv =>
        cases hstep
        exact { h.serveGrant hrequests with }
      · next refusal hv =>
        cases hstep
        exact h.refuseGrant hli (by rw [hloop]; rfl) hrequests hv
    · have hpl : ∀ paneId, countRequestGrant paneId request = 0 := by
        intro paneId
        cases request with
        | grantPaneOutput j granted => exact absurd ⟨j, granted, rfl⟩ hgrant
        | _ => rfl
      have hpopped := h.takePlain hrequests hpl
      split at hstep
      · exact hpopped.serveAccepted (fun paneId granted heq => hgrant ⟨paneId, granted, heq⟩) hstep
      · split at hstep
        · cases hstep
          exact hpopped
        · cases hstep
          exact hpopped.writeAnswer _ _ fun _ => rfl
  · cases hstep

theorem closeEndedPane (hstep : world.closeEndedPane = some after) : CreditOk after := by
  unfold CreditWorld.closeEndedPane at hstep
  split at hstep
  · cases hstep
    exact { h.markPaneClosing _ with }
  · cases hstep

theorem answerPanes {ps : List PaneUuid} (hstep : world.answerPanes ps wr = some after) : CreditOk after := by
  unfold CreditWorld.answerPanes at hstep
  split at hstep
  · split at hstep
    · cases hstep
      exact h.writeAnswer _ _ fun _ => rfl
    · cases hstep
  · cases hstep

theorem dropLink (hstep : world.dropLink = some after) : CreditOk after := by
  unfold CreditWorld.dropLink at hstep
  split at hstep
  · cases hstep
    exact { h with }
  · cases hstep
    exact { h with }
  · cases hstep
    exact { h with }
  · cases hstep

theorem continueKill {killIndex : Nat} (hstep : world.continueKill killIndex = some after) : CreditOk after := by
  unfold CreditWorld.continueKill at hstep
  split at hstep
  · cases hstep
    exact { h.markPaneClosing _ with }
  · cases hstep
    exact { h with }
  · cases hstep

/-! ### The session server's steps -/

theorem startConnect (hli : LinksOk world) (hstep : world.startConnect = some after) : CreditOk after := by
  have hnextLinks := hli.startConnect hstep
  have hgen := hli.generation
  unfold CreditWorld.startConnect at hstep
  split at hstep
  · next hp =>
    cases hstep
    have hunlinked : world.connectPhase ≠ .connected := by rw [hp]; exact nofun
    have hun := hli.undriven hunlinked
    have hq : ∀ paneId, decide ((world.queueByPaneId paneId).outputChunks ≠ []) = false →
        (world.queueByPaneId paneId).outputChunks = [] :=
      fun paneId her => not_not.1 (of_decide_eq_false her)
    refine { h with
      opened := ?_
      unopened := fun _ => h.unopened hunlinked
      unserved := fun _ paneId hcd => hq paneId hcd.2.1
      balance := ?_
      quiet := fun paneId hcd _ => ?_ }
    · intro _ paneId hm
      replace hm : paneId ∈ world.openedPaneIds := hm
      rw [h.unopened hunlinked] at hm
      exact absurd hm (Finset.notMem_empty paneId)
    · intro hcur
      have hcur : world.linkState.linkGeneration = world.linkCount + 1 := hcur
      omega
    · have hbehind : world.linkState.linkGeneration < world.linkCount + 1 := by omega
      exact countOutstanding_unserved hnextLinks hbehind rfl (hq paneId hcd.2.1)
  · cases hstep

theorem failConnect (hstep : world.failConnect = some after) : CreditOk after := by
  unfold CreditWorld.failConnect at hstep
  split at hstep
  · cases hstep
  · next hp =>
    cases hstep
    exact { h with
      opened := nofun
      unopened := fun _ => h.unopened fun ho => hp (.inr ho)
      unserved := fun _ _ hcd => nomatch hcd.1
      balance := fun _ _ hcd => nomatch hcd.1
      quiet := fun _ hcd => nomatch hcd.1 }

theorem turnConnect {connectPhase : ConnectPhase} (hp : world.connectPhase ≠ .connected) :
    CreditOk { world with connectPhase } :=
  { h with unopened := fun _ => h.unopened hp }

/-- The queues change, and with them what is outstanding of the panes that are not counted any more. -/
theorem setQueues {framesByLink : Nat → List SupervisorFrame} {hasEarlierOutput : PaneUuid → Bool}
    {exitedPaneIds : Finset PaneUuid}
    (hcz : ∀ paneId, (queueByPaneId paneId).isClosed = true → (world.queueByPaneId paneId).isClosed = true)
    (her : ∀ paneId, hasEarlierOutput paneId = false → world.hasEarlierOutput paneId = false)
    (hunserved : world.linkState.linkGeneration < world.linkCount → ∀ paneId, hasEarlierOutput paneId = false →
      IsCounted world paneId → queueByPaneId paneId = world.queueByPaneId paneId)
    (hc : ∀ paneId, hasEarlierOutput paneId = false → IsCounted world paneId →
      ({ world with
        framesByLink
        queueByPaneId } : CreditWorld).countOutstanding paneId = world.countOutstanding paneId) :
    CreditOk { world with
      framesByLink
      queueByPaneId
      hasEarlierOutput
      exitedPaneIds } := by
  have hcd : ∀ {paneId}, IsCounted { world with hasEarlierOutput } paneId →
      IsCounted world paneId := fun hn => ⟨hn.1, her _ hn.2.1, hn.2.2⟩
  refine { h with
    closedQueue := fun paneId hn => h.closedQueue paneId (hcz paneId hn)
    unserved := fun hbehind paneId hn => ?_
    balance := fun hcur paneId hn hsd => ?_
    quiet := fun paneId hn hb => ?_ }
  · show (queueByPaneId paneId).outputChunks = []
    rw [hunserved hbehind paneId hn.2.1 (hcd hn)]
    exact h.unserved hbehind paneId (hcd hn)
  · exact (congrArg (_ + ·) (hc paneId hn.2.1 (hcd hn))).trans (h.balance hcur paneId (hcd hn) hsd)
  · exact (hc paneId hn.2.1 (hcd hn)).trans (h.quiet paneId (hcd hn) hb)

theorem takeSilent {fr : SupervisorFrame} (hframes : world.framesByLink lk = fr :: frames)
    (hsilent : ∀ paneId, countFrameOutput paneId fr = 0) :
    CreditOk { world with framesByLink := update world.framesByLink lk frames } := by
  refine h.keepTransit fun paneId _ => ?_
  rw [countOutstanding_takeFrame world paneId hframes, hsilent, ite_self, Nat.zero_add]

theorem readFrame (hli : LinksOk world) {fresh : Bool}
    (hstep : world.readFrame fresh = some after) : CreditOk after := by
  unfold CreditWorld.readFrame at hstep
  split at hstep
  · next fr frames hcz hframes =>
    have hsrv : ¬ world.linkState.linkGeneration < world.linkCount := by
      intro hbehind
      exact nomatch (hli.unsent _ hbehind).symm.trans hframes
    dsimp only at hstep
    split at hstep
    · next paneFrame =>
      cases hstep
      obtain ⟨queueByPaneId, exitedPaneIds, heq, hqueues⟩ := receivePaneFrame_eq { world with
        framesByLink := update world.framesByLink world.linkCount frames } paneFrame fresh
      rw [heq]
      refine h.setQueues hqueues (fun _ => id) (fun hbehind => absurd hbehind hsrv) ?_
      intro paneId _ hcd
      have hrd := countOutstanding_receivePaneFrame { world with
        framesByLink := update world.framesByLink world.linkCount frames } paneFrame fresh (h.isOpen hcd)
      have htk := countOutstanding_takeFrame world paneId hframes
      rw [heq] at hrd
      rw [if_pos rfl, countFrameOutput] at htk
      refine Eq.trans ?_ (htk.trans (Nat.add_comm _ _)).symm
      exact hrd
    · next version =>
      have htk := h.takeSilent hframes fun _ => rfl
      split at hstep
      · next hp =>
        cases hstep
        refine (htk.sendPlain (fun _ => rfl)).turnConnect ?_
        have hs : ∀ (world' : CreditWorld) request wr,
            (world'.sendRequest request wr).connectPhase = world'.connectPhase := by
          intro world' request wr
          unfold sendRequest
          split <;> rfl
        rw [hs]
        exact fun ho => nomatch hp.symm.trans ho
      · cases hstep
        exact htk
    · next ps =>
      have htk := h.takeSilent hframes fun _ => rfl
      split at hstep
      · next hp =>
        cases hstep
        exact htk.turnConnect fun ho => nomatch hp.symm.trans ho
      · cases hstep
        exact htk
    · cases hstep
      exact { h.takeSilent hframes fun _ => rfl with }
    · cases hstep
      exact h.takeSilent hframes fun _ => rfl
  · cases hstep

theorem readEarlierFrame {lk : Nat} {fresh : Bool}
    (hstep : world.readEarlierFrame lk fresh = some after) : CreditOk after := by
  unfold CreditWorld.readEarlierFrame at hstep
  split at hstep
  · next fr frames hframes =>
    split at hstep
    · next her =>
      split at hstep
      · next paneId bs _ =>
        cases hstep
        have hne : world.linkCount ≠ lk := by omega
        obtain ⟨queueByPaneId, heq, hothers, hcz, -⟩ := pushPaneEvent_eq { world with
          framesByLink := update world.framesByLink lk frames
          hasEarlierOutput := update world.hasEarlierOutput paneId true } paneId (.output bs) fresh
        rw [heq]
        have ho : ∀ {j}, update world.hasEarlierOutput paneId true j = false → j ≠ paneId := by
          rintro j hmd rfl
          rw [update_self] at hmd
          cases hmd
        refine h.setQueues (fun j hn => ?_) (fun j hmd => ?_) (fun _ j hmd _ => hothers j (ho hmd)) fun j hmd _ => ?_
        · by_cases hpa : j = paneId
          · subst hpa
            exact hcz hn
          · rwa [hothers j hpa] at hn
        · exact (update_of_ne (ho hmd) _ _).symm.trans hmd
        · simp only [countOutstanding_eq, update_of_ne hne, hothers j (ho hmd)]
      · cases hstep
    · cases hstep
  · cases hstep

theorem killUnrequested (hstep : world.killUnrequested paneId wr = some after) : CreditOk after := by
  unfold CreditWorld.killUnrequested at hstep
  split at hstep
  · split at hstep
    · cases hstep
      exact (h.markKilled paneId).sendPlain fun _ => rfl
    · cases hstep
  · cases hstep

theorem takeExits (hstep : world.takeExits = some after) : CreditOk after := by
  unfold CreditWorld.takeExits at hstep
  split at hstep
  · next hp =>
    cases hstep
    exact h.turnConnect fun ho => nomatch hp.symm.trans ho
  · cases hstep

theorem killExited (hstep : world.killExited paneId wr = some after) : CreditOk after := by
  unfold CreditWorld.killExited at hstep
  split at hstep
  · split at hstep
    · cases hstep
      exact (h.markKilled paneId).sendPlain fun _ => rfl
    · cases hstep
  · cases hstep

theorem finishConnect (hli : LinksOk world) (hstep : world.finishConnect = some after) : CreditOk after := by
  unfold CreditWorld.finishConnect at hstep
  split at hstep
  · next retained exitedListed hp hcz =>
    cases hstep
    have hun := hli.undriven fun ho => nomatch hp.symm.trans ho
    have hc : ∀ paneId, ({ world with
        ungrantedByteCountByPaneId := fun paneId => if paneId ∈ retained then some 0 else none } :
          CreditWorld).countOutstanding paneId = world.countOutstanding paneId := by
      intro paneId
      refine countOutstanding_setBook ?_
      rw [hun.1 paneId]
      split_ifs <;> rfl
    refine { h with
      ungrantedBound := ?_
      turnOpened := ?_
      opened := ?_
      unopened := fun ho => absurd rfl ho
      balance := fun hcur paneId hcd hsd =>
        (congrArg (_ + ·) (hc paneId)).trans (h.balance hcur paneId hcd hsd)
      quiet := fun paneId hcd hb => (hc paneId).trans (h.quiet paneId hcd hb) }
    · intro paneId ungranted hc
      replace hc : (if paneId ∈ retained then some 0 else none) = some ungranted := hc
      split_ifs at hc
      cases hc
      decide
    · exact fun paneId taken hturn => nomatch hun.2.1.symm.trans hturn
    · intro _ paneId hm
      left
      show (if paneId ∈ retained then some 0 else none) ≠ none
      rw [if_pos hm]
      exact some_ne_none 0
  · cases hstep

theorem spawnPane (hstep : world.spawnPane paneId wr = some after) : CreditOk after := by
  unfold CreditWorld.spawnPane at hstep
  split at hstep
  · cases hstep
    have hsg : CreditOk { world with
        usedPaneIds := insert paneId world.usedPaneIds
        spawningPaneIds := insert paneId world.spawningPaneIds } := { h with }
    exact hsg.sendPlain fun _ => rfl
  · cases hstep

theorem finishSpawn (hli : LinksOk world) (hpanes : PanesOk world)
    (hstep : world.finishSpawn paneId = some after) : CreditOk after := by
  unfold CreditWorld.finishSpawn at hstep
  split at hstep
  · next hguard =>
    have hp := hli.connected_of_spawning hguard.1
    dsimp only at hstep
    split at hstep
    · cases hstep
      exact { h with }
    · next hop =>
      cases hstep
      have hc : ∀ j, ({ world with
          ungrantedByteCountByPaneId := update world.ungrantedByteCountByPaneId paneId (some 0) } :
            CreditWorld).countOutstanding j = world.countOutstanding j := by
        intro j
        refine countOutstanding_setBook ?_
        by_cases heq : j = paneId
        · rw [heq, update_self, hpanes.spawning paneId hguard.1]
          rfl
        · rw [update_of_ne heq]
      refine { h with
        ungrantedBound := ?_
        turnOpened := fun j taken hturn =>
          Finset.mem_insert_of_mem (h.turnOpened j taken hturn)
        opened := ?_
        unopened := fun ho => absurd hp ho
        balance := fun hcur j hcd hsd =>
          (congrArg (_ + ·) (hc j)).trans (h.balance hcur j hcd hsd)
        quiet := fun j hcd hb => (hc j).trans (h.quiet j hcd hb) }
      · intro j ungranted hbook
        replace hbook : update world.ungrantedByteCountByPaneId paneId (some 0) j = _ := hbook
        rw [update_apply] at hbook
        split_ifs at hbook
        · cases hbook
          decide
        · exact h.ungrantedBound j ungranted hbook
      · intro hlk j hm
        show update world.ungrantedByteCountByPaneId paneId (some 0) j ≠ none ∨ _
        by_cases heq : j = paneId
        · rw [heq, update_self]
          exact .inl (some_ne_none 0)
        · rw [update_of_ne heq]
          exact h.opened hlk j ((Finset.mem_insert.1 hm).resolve_left heq)
  · cases hstep

theorem killPane (hstep : world.killPane paneId wr = some after) : CreditOk after := by
  unfold CreditWorld.killPane at hstep
  split at hstep
  · cases hstep
  · next ungranted hbook =>
    cases hstep
    have hc : ∀ {j}, j ≠ paneId → ({ world with
        ungrantedByteCountByPaneId := update world.ungrantedByteCountByPaneId paneId none } :
          CreditWorld).countOutstanding j = world.countOutstanding j := by
      intro j hne
      refine countOutstanding_setBook ?_
      rw [update_of_ne hne]
    -- the killed pane counts only when it printed nothing on this link
    have hquiet : IsCounted world paneId → ExitedBefore world paneId → world.countOutstanding paneId = 0 ∧
        ({ world with
          ungrantedByteCountByPaneId := update world.ungrantedByteCountByPaneId paneId none } :
            CreditWorld).countOutstanding paneId = 0 := by
      intro hcd hb
      have hz := h.quiet paneId hcd hb
      refine ⟨hz, ?_⟩
      simp only [countOutstanding_eq, update_self] at hz ⊢
      rw [getD_none]
      omega
    have hkilled : CreditOk { world with
        ungrantedByteCountByPaneId := update world.ungrantedByteCountByPaneId paneId none
        killSentPaneIds := insert paneId world.killSentPaneIds } := by
      refine { h.markKilled paneId with
        ungrantedBound := ?_
        opened := ?_
        balance := fun hcur j hcd hsd => ?_
        quiet := fun j hcd hb => ?_ }
      · intro j otherCount ho
        replace ho : update world.ungrantedByteCountByPaneId paneId none j = _ := ho
        rw [update_apply] at ho
        split_ifs at ho
        exact h.ungrantedBound j otherCount ho
      · intro hop j hm
        by_cases heq : j = paneId
        · rw [heq]
          exact .inr (Finset.mem_insert_self _ _)
        · refine (h.opened hop j hm).imp (fun hdr hnone => hdr ?_) Finset.mem_insert_of_mem
          exact (update_of_ne heq _ _).symm.trans hnone
      · by_cases heq : j = paneId
        · subst heq
          have hb : ExitedBefore world j :=
            hsd.resolve_left fun hop => hop.1 (Finset.mem_insert_self _ _)
          obtain ⟨hz, hnextZero⟩ := hquiet hcd hb
          have hsum := h.balance hcur j hcd (.inr hb)
          exact (congrArg (_ + ·) (hnextZero.trans hz.symm)).trans hsum
        · refine (congrArg (_ + ·) (hc heq)).trans (h.balance hcur j hcd ?_)
          exact hsd.imp (fun hop => ⟨fun hm => hop.1 (Finset.mem_insert_of_mem hm), hop.2⟩) id
      · by_cases heq : j = paneId
        · subst heq
          exact (hquiet hcd hb).2
        · exact (hc heq).trans (h.quiet j hcd hb)
    exact hkilled.sendPlain fun _ => rfl

theorem takeTurn (hstep : world.takeTurn paneId = some after) : CreditOk after := by
  unfold CreditWorld.takeTurn at hstep
  split at hstep
  · next hguard =>
    cases hstep
    obtain ⟨hturn, -, hopened⟩ := hguard
    obtain ⟨taken, left, hchunks, htake⟩ := takeChunks_spec (world.queueByPaneId paneId).outputChunks []
    have hturnChunks : (world.queueByPaneId paneId).takeOutputTurn.1.outputChunks = taken :=
      congrArg Prod.fst htake
    have hleftChunks : (world.queueByPaneId paneId).takeOutputTurn.2.outputChunks = left :=
      congrArg (·.2.2) htake
    have hby : countBytes (world.queueByPaneId paneId).outputChunks = countBytes taken + countBytes left := by
      rw [← countBytes_append, ← hchunks]
      rfl
    have hq : ∀ {j}, j ≠ paneId → update world.queueByPaneId paneId
        (world.queueByPaneId paneId).takeOutputTurn.2 j = world.queueByPaneId j :=
      fun hne => update_of_ne hne _ _
    have hc : ∀ j, ({ world with
        queueByPaneId := update world.queueByPaneId paneId (world.queueByPaneId paneId).takeOutputTurn.2
        outputTurn := some (.parses paneId
          (countBytes (world.queueByPaneId paneId).takeOutputTurn.1.outputChunks)) } : CreditWorld).countOutstanding
            j = world.countOutstanding j := by
      intro j
      simp only [countOutstanding_eq, hturn, hturnChunks]
      by_cases heq : j = paneId
      · subst heq
        rw [update_self, hleftChunks, if_pos rfl, hby]
        omega
      · rw [hq heq, if_neg (Ne.symm heq)]
    refine { h with
      closedQueue := fun j hcz => ?_
      turnOpened := fun j takenByteCount ho => ?_
      unserved := fun hbehind j hcd => ?_
      balance := fun hcur j hcd hsd =>
        (congrArg (_ + ·) (hc j)).trans (h.balance hcur j hcd hsd)
      quiet := fun j hcd hb => (hc j).trans (h.quiet j hcd hb) }
    · refine h.closedQueue j ?_
      by_cases heq : j = paneId
      · subst heq
        replace hcz : (update world.queueByPaneId j _ j).isClosed = true := hcz
        rw [update_self] at hcz
        exact hcz
      · exact (congrArg (·.isClosed) (hq heq)).symm.trans hcz
    · cases ho
      exact hopened
    · have hem := h.unserved hbehind j hcd
      show (update world.queueByPaneId paneId (world.queueByPaneId paneId).takeOutputTurn.2 j).outputChunks = []
      by_cases heq : j = paneId
      · subst heq
        rw [nil_append, hem] at hchunks
        rw [update_self, hleftChunks]
        exact (append_eq_nil_iff.1 hchunks.symm).2
      · rw [hq heq]
        exact hem
  · cases hstep

/-- Parsed bytes enter the book of a driven pane, which keeps them or turns to granting them. -/
theorem reportDriven {parsed ungranted kept : Nat} {outputTurn : Option OutputTurn}
    (hturn : world.outputTurn = some (.parses paneId parsed))
    (hbook : world.ungrantedByteCountByPaneId paneId = some ungranted) (hk : kept < minimumOutputGrantByteCount)
    (hn : (outputTurn = none ∧ kept = ungranted + parsed) ∨
      (outputTurn = some (.grants paneId (ungranted + parsed)) ∧ kept = 0)) :
    CreditOk { world with
      ungrantedByteCountByPaneId := update world.ungrantedByteCountByPaneId paneId (some kept)
      outputTurn } := by
  have hc : ∀ j, ({ world with
      ungrantedByteCountByPaneId := update world.ungrantedByteCountByPaneId paneId (some kept)
      outputTurn } : CreditWorld).countOutstanding j = world.countOutstanding j := by
    intro j
    simp only [countOutstanding_eq, hturn]
    by_cases heq : j = paneId
    · subst heq
      rw [update_self, hbook, if_pos rfl, getD_some, getD_some]
      rcases hn with ⟨rfl, hsum⟩ | ⟨rfl, hsum⟩
      · dsimp only
        omega
      · dsimp only
        rw [if_pos rfl]
        omega
    · rw [update_of_ne heq, if_neg (Ne.symm heq)]
      rcases hn with ⟨rfl, -⟩ | ⟨rfl, -⟩
      · rfl
      · dsimp only
        rw [if_neg (Ne.symm heq)]
  refine { h with
    ungrantedBound := ?_
    turnOpened := ?_
    opened := ?_
    balance := fun hcur j hcd hsd =>
      (congrArg (_ + ·) (hc j)).trans (h.balance hcur j hcd hsd)
    quiet := fun j hcd hb => (hc j).trans (h.quiet j hcd hb) }
  · intro j otherCount ho
    replace ho : update world.ungrantedByteCountByPaneId paneId (some kept) j = _ := ho
    rw [update_apply] at ho
    split_ifs at ho
    · cases ho
      exact hk
    · exact h.ungrantedBound j otherCount ho
  · intro j taken ho
    replace ho : outputTurn = _ := ho
    rcases hn with ⟨rfl, -⟩ | ⟨rfl, -⟩
    · cases ho
    · cases ho
  · intro hop j hm
    by_cases heq : j = paneId
    · subst heq
      left
      show update world.ungrantedByteCountByPaneId j (some kept) j ≠ none
      rw [update_self]
      exact some_ne_none _
    · refine (h.opened hop j hm).imp (fun hdr hnone => hdr ?_) id
      exact (update_of_ne heq _ _).symm.trans hnone

theorem reportTurn (hstep : world.reportTurn = some after) : CreditOk after := by
  unfold CreditWorld.reportTurn at hstep
  split at hstep
  · next paneId parsed hturn =>
    split at hstep
    · next hbook =>
      cases hstep
      -- a pane that left the backend was killed, so it counts only when it printed nothing
      have hc : ∀ {j}, IsCounted world j → Stands world j →
          ({ world with outputTurn := none } : CreditWorld).countOutstanding j = world.countOutstanding j := by
        intro j hcd hsd
        have hnone : (if paneId = j then parsed else 0) = 0 := by
          by_cases heq : paneId = j
          · subst heq
            have hkill := (h.opened hcd.1 paneId (h.turnOpened paneId parsed hturn)).resolve_left fun hdr => hdr hbook
            have hz := h.quiet paneId hcd (hsd.resolve_left fun hop => hop.1 hkill)
            simp only [countOutstanding, countQueuedOutput, hturn, if_pos] at hz
            rw [if_pos rfl]
            omega
          · rw [if_neg heq]
        simp only [countOutstanding_eq, hturn, hnone]
      exact { h with
        turnOpened := nofun
        balance := fun hcur j hcd hsd =>
          (congrArg (_ + ·) (hc hcd hsd)).trans (h.balance hcur j hcd hsd)
        quiet := fun j hcd hb =>
          (hc hcd (.inr hb)).trans (h.quiet j hcd hb) }
    · next ungranted hbook =>
      split at hstep
      · next hsmall =>
        cases hstep
        exact h.reportDriven hturn hbook hsmall (.inl ⟨rfl, rfl⟩)
      · cases hstep
        exact h.reportDriven hturn hbook (by decide) (.inr ⟨rfl, rfl⟩)
  · cases hstep

theorem writeGrant (hli : LinksOk world) (hstep : world.writeGrant wr = some after) : CreditOk after := by
  unfold CreditWorld.writeGrant at hstep
  split at hstep
  · next paneId granted hturn =>
    dsimp only at hstep
    have hdp : ∀ j, world.countOutstanding j =
        ({ world with outputTurn := none } : CreditWorld).countOutstanding j + if paneId = j then granted else 0 := by
      intro j
      simp only [countOutstanding_eq, hturn]
      omega
    split at hstep
    · next hwt =>
      cases hstep
      have hcur : world.linkState.linkGeneration = world.linkCount := by
        refine (hli.pastHello (.inl ?_)).1
        rw [hli.connected_of_turn hturn]
        trivial
      have hc : ∀ {j}, IsCounted world j → Stands world j →
          (({ world with outputTurn := none } : CreditWorld).sendRequest
            (.grantPaneOutput paneId (tryU32OrMax granted)) true).countOutstanding j = world.countOutstanding j := by
        intro j hcd hsd
        have hsum := h.balance hcur j hcd hsd
        have hb := hdp j
        rw [countOutstanding_sendRequest, if_pos ⟨hwt.1, rfl⟩, hb, countRequestGrant]
        by_cases heq : paneId = j
        · have hsmall : paneOutputWindowByteCount ≤ u32Max := by decide
          rw [if_pos heq] at hb
          rw [if_pos heq, if_pos heq, tryU32OrMax, if_pos (by omega)]
        · rw [if_neg heq, if_neg heq]
      have heq : ∃ requestsByLink, ({ world with outputTurn := none } : CreditWorld).sendRequest
          (.grantPaneOutput paneId (tryU32OrMax granted)) true = { world with outputTurn := none, requestsByLink } := by
        unfold sendRequest
        rw [if_pos ⟨hwt.1, rfl⟩]
        exact ⟨_, rfl⟩
      obtain ⟨requestsByLink, heq⟩ := heq
      rw [heq] at hc ⊢
      exact { h with
        turnOpened := nofun
        balance := fun hcur j hcd hsd => by
          rw [hc hcd hsd]
          exact h.balance hcur j hcd hsd
        quiet := fun j hcd hb => by
          rw [hc hcd (.inr hb)]
          exact h.quiet j hcd hb }
    · cases hstep
      have hcd : ∀ {j}, IsCounted { world with
          lostGrantPaneIds := insert paneId world.lostGrantPaneIds } j → IsCounted world j ∧
            ({ world with outputTurn := none } : CreditWorld).countOutstanding j = world.countOutstanding j := by
        intro j hn
        have hne : paneId ≠ j := by
          rintro rfl
          exact hn.2.2.1 (Finset.mem_insert_self _ _)
        refine ⟨⟨hn.1, hn.2.1, fun hm => hn.2.2.1 (Finset.mem_insert_of_mem hm), hn.2.2.2⟩, ?_⟩
        rw [hdp j, if_neg hne, Nat.add_zero]
      exact { h with
        turnOpened := nofun
        unserved := fun hbehind j hn => h.unserved hbehind j (hcd hn).1
        balance := fun hcur j hn hsd =>
          (congrArg (_ + ·) (hcd hn).2).trans (h.balance hcur j (hcd hn).1 hsd)
        quiet := fun j hn hb =>
          (hcd hn).2.trans (h.quiet j (hcd hn).1 hb) }
  · cases hstep

theorem closeQueue (paneId : PaneUuid) : CreditOk (world.closeQueue paneId) := by
  have hq : ∀ {j}, j ≠ paneId → update world.queueByPaneId paneId
      (world.queueByPaneId paneId).close j = world.queueByPaneId j := fun hne => update_of_ne hne _ _
  have hcd : ∀ {j}, IsCounted (world.closeQueue paneId) j → IsCounted world j ∧
      j ≠ paneId ∧ (world.closeQueue paneId).countOutstanding j = world.countOutstanding j := by
    intro j hn
    have hne : j ≠ paneId := by
      rintro rfl
      exact hn.2.2.2 (Finset.mem_insert_self _ _)
    refine ⟨⟨hn.1, hn.2.1, hn.2.2.1, fun hm => hn.2.2.2 (Finset.mem_insert_of_mem hm)⟩, hne, ?_⟩
    simp only [countOutstanding_eq, CreditWorld.closeQueue, hq hne]
  refine { h with
    closedQueue := fun j hcz => ?_
    unserved := fun hbehind j hn => ?_
    balance := fun hcur j hn hsd => ?_
    quiet := fun j hn hb => ?_ }
  · by_cases heq : j = paneId
    · rw [heq]
      exact Finset.mem_insert_self _ _
    · refine Finset.mem_insert_of_mem (h.closedQueue j ?_)
      exact (congrArg (·.isClosed) (hq heq)).symm.trans hcz
  · obtain ⟨hb, hne, -⟩ := hcd hn
    exact (congrArg (·.outputChunks) (hq hne)).trans (h.unserved hbehind j hb)
  · obtain ⟨hb, -, hc⟩ := hcd hn
    rw [hc]
    exact h.balance hcur j hb hsd
  · obtain ⟨hcountedBefore, -, hc⟩ := hcd hn
    rw [hc]
    exact h.quiet j hcountedBefore hb

theorem loseLink (hstep : world.loseLink = some after) : CreditOk after := by
  unfold CreditWorld.loseLink at hstep
  split at hstep
  · cases hstep
  · cases hstep
    exact { h with
      ungrantedBound := nofun
      opened := nofun
      unserved := fun _ _ hcd => nomatch hcd.1
      balance := fun _ _ hcd => nomatch hcd.1
      quiet := fun _ hcd => nomatch hcd.1 }

theorem replaceImage {carriedPaneIds : Finset PaneUuid}
    (hstep : world.replaceImage carriedPaneIds = some after) : CreditOk after := by
  unfold CreditWorld.replaceImage at hstep
  split at hstep
  · cases hstep
    exact { h with
      ungrantedBound := nofun
      closedQueue := nofun
      turnOpened := nofun
      opened := nofun
      unopened := fun _ => rfl
      unserved := fun _ _ hcd => nomatch hcd.1
      balance := fun _ _ hcd => nomatch hcd.1
      quiet := fun _ hcd => nomatch hcd.1 }
  · cases hstep

/-- **One step** keeps what holds of the credit. -/
theorem step (hli : LinksOk world) (hpanes : PanesOk world) {action : CreditAction}
    (hstep : world.step action = some after) : CreditOk after := by
  cases action with
  | printOutput paneId bytes =>
    simp only [CreditWorld.step, CreditWorld.startSend] at hstep
    split at hstep
    · cases hstep
      exact { h with }
    · cases hstep
  | printExit paneId exitStatus =>
    simp only [CreditWorld.step, CreditWorld.startSend] at hstep
    split at hstep
    · cases hstep
      exact { h with }
    · cases hstep
  | continueReader paneId wr => exact h.continueReader hli hpanes hstep
  | acceptLink => exact h.acceptLink hli hstep
  | serveRequest isSpawned endedPaneIds wr => exact h.serveRequest hli hstep
  | closeEndedPane => exact h.closeEndedPane hstep
  | answerPanes ps wr => exact h.answerPanes hstep
  | dropLink => exact h.dropLink hstep
  | continueKill killIndex => exact h.continueKill hstep
  | startConnect => exact h.startConnect hli hstep
  | failConnect => exact h.failConnect hstep
  | readFrame fresh => exact h.readFrame hli hstep
  | readEarlierFrame lk fresh => exact h.readEarlierFrame hstep
  | killUnrequested paneId wr => exact h.killUnrequested hstep
  | takeExits => exact h.takeExits hstep
  | killExited paneId wr => exact h.killExited hstep
  | finishConnect => exact h.finishConnect hli hstep
  | spawnPane paneId wr => exact h.spawnPane hstep
  | finishSpawn paneId => exact h.finishSpawn hli hpanes hstep
  | killPane paneId wr => exact h.killPane hstep
  | sendOther request wr =>
    simp only [CreditWorld.step] at hstep
    split at hstep
    · next hguard =>
      cases hstep
      refine h.sendPlain fun paneId => ?_
      cases request with
      | grantPaneOutput j granted => exact absurd hguard.2 Bool.false_ne_true
      | _ => rfl
    · cases hstep
  | takeTurn paneId => exact h.takeTurn hstep
  | reportTurn => exact h.reportTurn hstep
  | writeGrant wr => exact h.writeGrant hli hstep
  | closeQueue paneId =>
    cases hstep
    exact h.closeQueue paneId
  | loseLink => exact h.loseLink hstep
  | replaceImage carriedPaneIds => exact h.replaceImage hstep

end CreditOk

end Koshi.Pty
