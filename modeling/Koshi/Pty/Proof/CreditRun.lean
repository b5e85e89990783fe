import Koshi.Pty.Proof.Credit

/-!
# Output credit over runs

The invariants of the links, the panes and the credit together, over every run, and what they say of a pane the session
server drives. Two things set a pane's window apart from the sum of its places: a grant that could not be written, and
output of a link whose connect failed, which the pane's queue still holds when the next link opens with a full window.
-/

namespace Koshi.Pty

open Base Ipc Daemon Koshi.Runtime List Option Function CreditWorld

variable {world : CreditWorld}

/-- What holds in every reachable state. -/
structure CreditInv (world : CreditWorld) : Prop where
  links : LinksOk world
  panes : PanesOk world
  credit : CreditOk world

theorem CreditInv.step {after : CreditWorld} {action : CreditAction} (h : CreditInv world)
    (hstep : world.step action = some after) : CreditInv after :=
  ⟨h.links.step hstep, h.panes.step h.links hstep, h.credit.step h.links h.panes hstep⟩

theorem CreditInv.run {after : CreditWorld} {actions : List CreditAction} (h : CreditInv world)
    (hrun : world.run actions = some after) : CreditInv after :=
  foldlM_invariant CreditInv (fun h hstep => h.step hstep) h hrun

theorem CreditInv.initial (token : ConnectionToken) : CreditInv (.initial token) :=
  ⟨.initial token, .initial token, .initial token⟩

theorem CreditWorld.run_append (world : CreditWorld) (actions laterActions : List CreditAction) :
    world.run (actions ++ laterActions) = (world.run actions).bind fun after => after.run laterActions :=
  foldlM_append

/-! ### A grant that is lost -/

/-- A driven pane waits for output on a link that is open both ways. -/
structure IsAtRest (world : CreditWorld) (paneId : PaneUuid) : Prop where
  isReading : world.readerPhaseByPaneId paneId = .reading ∧ paneId ∈ world.spawnedPaneIds
  isWanted : world.linkState.isClosing = false ∧ paneId ∉ world.linkState.closingPaneIds
  isOpen : world.linkState.linkProtocolVersion = some supervisorProtocolVersion ∧ world.linkState.isPaused = false ∧
    world.linkState.frameWriter = some world.linkCount
  credit : world.linkState.getOutputCredit paneId = paneOutputWindowByteCount
  frames : world.framesByLink world.linkCount = []
  queue : world.queueByPaneId paneId = .default
  isConnected : world.outputTurn = none ∧ world.connectPhase = .connected ∧ paneId ∈ world.openedPaneIds
  ungranted : world.ungrantedByteCountByPaneId paneId = some 0
  isCounted : world.isLinkClosed = false ∧ world.hasEarlierOutput paneId = false ∧ paneId ∉ world.lostGrantPaneIds ∧
    paneId ∉ world.closedQueuePaneIds

instance (world : CreditWorld) (paneId : PaneUuid) : Decidable (IsAtRest world paneId) :=
  decidable_of_iff
    ((world.readerPhaseByPaneId paneId = .reading ∧ paneId ∈ world.spawnedPaneIds) ∧
      (world.linkState.isClosing = false ∧ paneId ∉ world.linkState.closingPaneIds) ∧
      (world.linkState.linkProtocolVersion = some supervisorProtocolVersion ∧ world.linkState.isPaused = false ∧
        world.linkState.frameWriter = some world.linkCount) ∧
      world.linkState.getOutputCredit paneId = paneOutputWindowByteCount ∧ world.framesByLink world.linkCount = [] ∧
      world.queueByPaneId paneId = .default ∧
      (world.outputTurn = none ∧ world.connectPhase = .connected ∧ paneId ∈ world.openedPaneIds) ∧
      world.ungrantedByteCountByPaneId paneId = some 0 ∧
      (world.isLinkClosed = false ∧ world.hasEarlierOutput paneId = false ∧ paneId ∉ world.lostGrantPaneIds ∧
        paneId ∉ world.closedQueuePaneIds))
    ⟨fun ⟨hreading, hwanted, hopen, hcredit, hframes, hqueue, hconnection, hungranted, hcounted⟩ =>
      ⟨hreading, hwanted, hopen, hcredit, hframes, hqueue, hconnection, hungranted, hcounted⟩,
      fun ⟨hreading, hwanted, hopen, hcredit, hframes, hqueue, hconnection, hungranted, hcounted⟩ =>
      ⟨hreading, hwanted, hopen, hcredit, hframes, hqueue, hconnection, hungranted, hcounted⟩⟩

theorem LinkState.writeOutputPart_whole {st : LinkState} (paneId : PaneUuid) {bs : List UInt8} {lk : Nat}
    (hver : st.linkProtocolVersion = some supervisorProtocolVersion) (hpaused : st.isPaused = false)
    (hwtr : st.frameWriter = some lk) (hne : bs ≠ []) (hft : bs.length ≤ st.getOutputCredit paneId) :
    ∃ laterState, st.writeOutputPart paneId bs true =
      (some (bs.length, lk, .binary (buildPaneOutputFrameHead paneId ++ bs)), laterState) := by
  have hpart : min bs.length (st.getOutputCredit paneId) = bs.length := Nat.min_eq_left hft
  have hlen : bs.length ≠ 0 := fun hz => hne (eq_nil_of_length_eq_zero hz)
  unfold LinkState.writeOutputPart
  rw [hver]
  dsimp only
  rw [hpaused, hwtr, if_neg Bool.false_ne_true]
  dsimp only
  rw [if_neg (by decide), hpart, if_neg hlen, if_pos rfl, take_length]
  exact ⟨_, rfl⟩

theorem CreditWorld.readFrame_pane {fr : LinkFrame} {frames : List SupervisorFrame} {fresh : Bool}
    (hop : world.isLinkClosed = false) (hframes : world.framesByLink world.linkCount = .pane fr :: frames) :
    world.readFrame fresh = some (({ world with
      framesByLink := update world.framesByLink world.linkCount frames } : CreditWorld).receivePaneFrame fr fresh) := by
  unfold readFrame
  split
  · next ho =>
    cases ho.symm.trans hframes
    rfl
  · next ho => exact absurd hframes (ho _ _ hop)

/-- A pane at rest prints output for at least a grant: it crosses the link, is parsed, and its grant is about to be
written. -/
theorem IsAtRest.reachesGrant {paneId : PaneUuid} (h : IsAtRest world paneId) (bytes : List UInt8)
    (hmin : minimumOutputGrantByteCount ≤ bytes.length) (hmax : bytes.length ≤ paneOutputWindowByteCount) :
    ∃ actions after, world.run actions = some after ∧
      after.outputTurn = some (.grants paneId bytes.length) ∧ IsCounted after paneId ∧
      after.ungrantedByteCountByPaneId paneId = some 0 := by
  have hne : bytes ≠ [] := by
    rintro rfl
    exact absurd hmin (by decide)
  obtain ⟨st, hwr⟩ := LinkState.writeOutputPart_whole paneId h.isOpen.1 h.isOpen.2.1 h.isOpen.2.2
    hne (hmax.trans h.credit.ge)
  -- the output goes out
  have hprint : world.step (.printOutput paneId bytes) =
      some (world.setReaderPhase paneId (.sendsOutput bytes)) := if_pos h.isReading
  let sentWorld := (({ world.setReaderPhase paneId (.sendsOutput bytes) with
    linkState := st } : CreditWorld).appendFrame world.linkCount
      (.pane (.binary (buildPaneOutputFrameHead paneId ++ bytes)))).setReaderPhase paneId
        (.sendsOutput (bytes.drop bytes.length))
  have hsend : (world.setReaderPhase paneId (.sendsOutput bytes)).step (.continueReader paneId true) =
      some sentWorld := by
    have hp : (world.setReaderPhase paneId (.sendsOutput bytes)).readerPhaseByPaneId paneId =
        .sendsOutput bytes := update_self ..
    have hwant : ¬ ((world.setReaderPhase paneId (.sendsOutput bytes)).linkState.isClosing = true ∨
        paneId ∈ (world.setReaderPhase paneId (.sendsOutput bytes)).linkState.closingPaneIds) := by
      rintro (hcl | hcl)
      · exact Bool.false_ne_true (h.isWanted.1.symm.trans hcl)
      · exact h.isWanted.2 hcl
    rw [step, continueReader, hp]
    dsimp only
    rw [sendOutput, if_neg hne, if_neg hwant,
      show (world.setReaderPhase paneId (.sendsOutput bytes)).linkState = world.linkState from rfl, hwr]
  -- it is queued, and parsed
  let queuedWorld : CreditWorld := { sentWorld with
    framesByLink := update sentWorld.framesByLink world.linkCount []
    queueByPaneId := update world.queueByPaneId paneId (PaneOutputQueueState.default.accept (.output bytes)) }
  have hrd : sentWorld.step (.readFrame false) = some queuedWorld := by
    have hframes : sentWorld.framesByLink sentWorld.linkCount =
        [.pane (.binary (buildPaneOutputFrameHead paneId ++ bytes))] := by
      show update world.framesByLink world.linkCount (world.framesByLink world.linkCount ++ [_]) world.linkCount = _
      rw [update_self, h.frames]
      rfl
    have hq : sentWorld.queueByPaneId paneId = .default := h.queue
    have hop : sentWorld.isLinkClosed = false := h.isCounted.1
    rw [step, readFrame_pane hop hframes, receivePaneFrame, LinkFrame.readEvent_binary]
    dsimp only
    rw [pushPaneEvent]
    dsimp only
    rw [if_neg (by simpa using hne), hq, if_pos (by rfl)]
    rfl
  let parsingWorld : CreditWorld := { queuedWorld with
    queueByPaneId := update queuedWorld.queueByPaneId paneId (queuedWorld.queueByPaneId paneId).takeOutputTurn.2
    outputTurn := some (.parses paneId bytes.length) }
  have htake : queuedWorld.step (.takeTurn paneId) = some parsingWorld := by
    have hq : queuedWorld.queueByPaneId paneId = PaneOutputQueueState.default.accept (.output bytes) :=
      update_self ..
    have hguard : queuedWorld.outputTurn = none ∧ queuedWorld.connectPhase = .connected ∧
      paneId ∈ queuedWorld.openedPaneIds := h.isConnected
    have hby : countBytes (queuedWorld.queueByPaneId paneId).takeOutputTurn.1.outputChunks = bytes.length := by
      rw [hq]
      exact Nat.add_zero _
    rw [step, takeTurn, if_pos hguard]
    dsimp only
    rw [hby]
  let granting : CreditWorld := { parsingWorld with
    ungrantedByteCountByPaneId := update world.ungrantedByteCountByPaneId paneId (some 0)
    outputTurn := some (.grants paneId bytes.length) }
  have hreport : parsingWorld.step .reportTurn = some granting := by
    have hbook : parsingWorld.ungrantedByteCountByPaneId paneId = some 0 := h.ungranted
    have hturn : parsingWorld.outputTurn = some (.parses paneId bytes.length) := rfl
    rw [step, reportTurn, hturn]
    dsimp only
    rw [hbook]
    dsimp only
    rw [Nat.zero_add, if_neg (by omega)]
    rfl
  refine ⟨[.printOutput paneId bytes, .continueReader paneId true, .readFrame false, .takeTurn paneId,
    .reportTurn], granting, ?_, rfl, h.isCounted, update_self ..⟩
  simp only [run, foldlM_cons, foldlM_nil, hprint, hsend, hrd, htake, hreport, bind_eq_bind, bind_some]
  rfl

theorem IsAtRest.losesGrant {paneId : PaneUuid} (h : IsAtRest world paneId) (hi : CreditInv world) :
    ∃ actions after, world.run actions = some after ∧ after.ungrantedByteCountByPaneId paneId ≠ none ∧
      paneId ∉ after.closedQueuePaneIds ∧ after.hasEarlierOutput paneId = false ∧
      after.linkState.getOutputCredit paneId + after.countOutstanding paneId < paneOutputWindowByteCount := by
  obtain ⟨actions, granting, hrun, hturn, hcd, hungranted⟩ :=
    h.reachesGrant (List.replicate minimumOutputGrantByteCount 0) (length_replicate ..).ge
      ((length_replicate ..).trans_le (by decide))
  rw [length_replicate] at hturn
  obtain ⟨hli, hpanes, hcredit⟩ := hi.run hrun
  have hdr : granting.ungrantedByteCountByPaneId paneId ≠ none := by
    rw [hungranted]
    exact some_ne_none 0
  have hcur : granting.linkState.linkGeneration = granting.linkCount := by
    refine (hli.pastHello (.inl ?_)).1
    rw [hli.connected_of_driven hdr]
    trivial
  have hsum := hcredit.balance hcur paneId hcd (hpanes.driven paneId (.inl hdr))
  let lostWorld : CreditWorld := { granting with
    outputTurn := none
    lostGrantPaneIds := insert paneId granting.lostGrantPaneIds }
  have hlose : granting.step (.writeGrant false) = some lostWorld := by
    rw [step, writeGrant, hturn]
    dsimp only
    rw [if_neg fun hwt => Bool.false_ne_true hwt.2]
  have hlost : granting.countOutstanding paneId = lostWorld.countOutstanding paneId + minimumOutputGrantByteCount := by
    simp only [countOutstanding_eq, hturn, if_pos, lostWorld]
    omega
  refine ⟨actions ++ [.writeGrant false], lostWorld, ?_, hdr, hcd.2.2.2, hcd.2.1, ?_⟩
  · rw [run_append, hrun, bind_some]
    show [CreditAction.writeGrant false].foldlM step granting = some lostWorld
    rw [foldlM_cons, hlose]
    rfl
  · have hpos : 0 < minimumOutputGrantByteCount := by decide
    show granting.linkState.getOutputCredit paneId + lostWorld.countOutstanding paneId < _
    omega

/-! ### The window -/

/-- **Conservation of output credit.** In every reachable state, of every pane the session server drives, whose queue is
open and took no output of an earlier link, and of which no grant was lost: the credit and the bytes that are
outstanding are the window, a grant in flight is added whole, nothing is cut to 32 bits, and a send that waits for
credit has output or a grant to wait for. -/
theorem outputCredit_conserved {connectionToken : ConnectionToken} {actions : List CreditAction} {world : CreditWorld}
    (hrun : (initial connectionToken).run actions = some world) {paneId : PaneUuid}
    (hdriven : world.ungrantedByteCountByPaneId paneId ≠ none) (hqueue : paneId ∉ world.closedQueuePaneIds)
    (hearlier : world.hasEarlierOutput paneId = false) (hlost : paneId ∉ world.lostGrantPaneIds) :
    world.linkState.getOutputCredit paneId + world.countOutputInFlight paneId + world.countQueuedOutput paneId +
        world.countUngranted paneId + world.countGrantsInFlight paneId = paneOutputWindowByteCount ∧
      (∀ granted,
        .grantPaneOutput paneId granted ∈ world.requestsByLink world.linkState.linkGeneration →
        (world.linkState.grantPaneOutput paneId granted).getOutputCredit paneId =
          world.linkState.getOutputCredit paneId + granted) ∧
      (∀ granted, world.outputTurn = some (.grants paneId granted) → tryU32OrMax granted = granted) ∧
      (∀ partByteCount, partByteCount ≤ world.linkState.getOutputCredit paneId →
        partByteCount % (u32Max + 1) = partByteCount) ∧
      (∀ unsent, world.readerPhaseByPaneId paneId = .sendsOutput unsent → unsent ≠ [] →
        world.linkState.getOutputCredit paneId = 0 →
        0 < world.countOutputInFlight paneId ∨ 0 < world.countQueuedOutput paneId ∨
          0 < world.countGrantsInFlight paneId) := by
  obtain ⟨hlinks, hpanes, hcredit⟩ := (CreditInv.initial connectionToken).run hrun
  have hconnection := hlinks.connected_of_driven hdriven
  have hopen : world.isLinkClosed = false := by
    by_contra hclosed
    exact hdriven (hlinks.lost (by simpa using hclosed) paneId)
  have hcur : world.linkState.linkGeneration = world.linkCount := by
    refine (hlinks.pastHello (.inl ?_)).1
    rw [hconnection]
    trivial
  have hcounted : IsCounted world paneId := ⟨hopen, hearlier, hlost, hqueue⟩
  have hstands := hpanes.driven paneId (.inl hdriven)
  have hsum := hcredit.balance hcur paneId hcounted hstands
  have hbound := hcredit.creditBound paneId
  have hsmall : paneOutputWindowByteCount ≤ u32Max := by decide
  rw [countOutstanding] at hsum
  refine ⟨by omega, fun granted hreq => ?_, fun granted hturn => ?_,
    fun partByteCount hpart => Nat.mod_eq_of_lt (by omega), fun _ _ _ hempty => ?_⟩
  · have hle : granted ≤ world.countGrantsInFlight paneId := by
      refine Nat.le_trans ?_ (Nat.le_add_right _ _)
      rw [hcur] at hreq
      refine le_sum_of_mem (List.mem_map.2 ⟨_, hreq, ?_⟩)
      exact if_pos rfl
    by_cases hclosing : paneId ∈ world.linkState.closingPaneIds
    · -- a pane that is being closed and still driven printed nothing on this link
      have hquiet := hcredit.quiet paneId hcounted (hstands.resolve_left fun hopen => hopen.2 hclosing)
      rw [countOutstanding] at hquiet
      rw [LinkState.grantPaneOutput, if_pos hclosing]
      omega
    · exact LinkState.getOutputCredit_grantOutput hclosing (by omega)
  · have hle : granted ≤ world.countGrantsInFlight paneId := by
      rw [countGrantsInFlight, hturn]
      dsimp only
      rw [if_pos rfl]
      omega
    exact if_pos (by omega)
  · obtain ⟨ungrantedByteCount, hbook⟩ := ne_none_iff_exists'.1 hdriven
    have hungranted : world.countUngranted paneId < minimumOutputGrantByteCount := by
      rw [countUngranted, hbook]
      exact hcredit.ungrantedBound paneId ungrantedByteCount hbook
    have hhalf : minimumOutputGrantByteCount ≤ paneOutputWindowByteCount := by decide
    omega

def examplePaneId : PaneUuid := ⟨List.replicate 16 1, rfl⟩

/-- The link's whole opening, from the connect to the panes it lists. -/
def openLink (paneIds : List PaneUuid) : List CreditAction :=
  [.startConnect, .acceptLink, .serveRequest true [] true, .readFrame false, .serveRequest true [] true,
    .answerPanes paneIds true, .readFrame false, .takeExits, .finishConnect]

/-- A spawn, from the call to its return. -/
def openPane (paneId : PaneUuid) : List CreditAction :=
  [.spawnPane paneId true, .serveRequest true [] true, .readFrame false, .finishSpawn paneId]

/-- A new process image whose first connect fails after the pane's output arrived, and whose second succeeds. -/
def reopenLink (paneId : PaneUuid) : List CreditAction :=
  [.replaceImage {paneId}, .dropLink, .startConnect, .acceptLink, .serveRequest true [] true, .printOutput paneId [0],
    .continueReader paneId true, .readFrame false, .readFrame false, .failConnect, .dropLink] ++ openLink [paneId]

theorem CreditWorld.exists_of_run (world : CreditWorld) (actions : List CreditAction) (P : CreditWorld → Prop)
    [DecidablePred P] (htest : (world.run actions).any (fun after => decide (P after)) = true) :
    ∃ after, world.run actions = some after ∧ P after := by
  obtain ⟨after, hrun, hfo⟩ := (Option.any_eq_true _ _).1 htest
  exact ⟨after, hrun, of_decide_eq_true hfo⟩

/-- Three bytes on their way. -/
theorem outputCredit_conserved_inFlight : ∃ world,
    (initial ⟨"token"⟩).run (openLink [] ++ openPane examplePaneId ++
      [.printOutput examplePaneId [1, 2, 3], .continueReader examplePaneId true]) = some world ∧
    world.countOutputInFlight examplePaneId = 3 ∧
    world.linkState.getOutputCredit examplePaneId + world.countOutputInFlight examplePaneId +
      world.countQueuedOutput examplePaneId + world.countUngranted examplePaneId +
        world.countGrantsInFlight examplePaneId = paneOutputWindowByteCount := by
  obtain ⟨world, hrun, hsent, hdriven, hqueue, hearlier, hlost⟩ := exists_of_run (.initial ⟨"token"⟩)
    (openLink [] ++ openPane examplePaneId ++
      [.printOutput examplePaneId [1, 2, 3], .continueReader examplePaneId true])
    (fun world => world.countOutputInFlight examplePaneId = 3 ∧ world.ungrantedByteCountByPaneId examplePaneId ≠ none ∧
      examplePaneId ∉ world.closedQueuePaneIds ∧ world.hasEarlierOutput examplePaneId = false ∧
      examplePaneId ∉ world.lostGrantPaneIds) (by decide +kernel)
  exact ⟨world, hrun, hsent, (outputCredit_conserved hrun hdriven hqueue hearlier hlost).1⟩

/-- A driven pane whose queue is open has less than its window once a grant is lost, and more than its window when a
failed connect left output in its queue. -/
theorem outputCredit_apart :
    (∃ actions world, (initial ⟨"token"⟩).run (openLink [] ++ openPane examplePaneId ++ actions) = some world ∧
      world.ungrantedByteCountByPaneId examplePaneId ≠ none ∧ examplePaneId ∉ world.closedQueuePaneIds ∧
      world.hasEarlierOutput examplePaneId = false ∧
      world.linkState.getOutputCredit examplePaneId + world.countOutstanding examplePaneId <
        paneOutputWindowByteCount) ∧
    ∃ world, (initial ⟨"token"⟩).run (openLink [] ++ openPane examplePaneId ++ reopenLink examplePaneId) = some world ∧
      world.ungrantedByteCountByPaneId examplePaneId ≠ none ∧ examplePaneId ∉ world.closedQueuePaneIds ∧
      examplePaneId ∉ world.lostGrantPaneIds ∧
      world.linkState.getOutputCredit examplePaneId + world.countOutstanding examplePaneId =
        paneOutputWindowByteCount + 1 := by
  refine ⟨?_, exists_of_run _ _ _ (by decide +kernel)⟩
  obtain ⟨world, hrun, hrest⟩ := exists_of_run (.initial ⟨"token"⟩)
    (openLink [] ++ openPane examplePaneId) (IsAtRest · examplePaneId) (by decide +kernel)
  obtain ⟨actions, lostWorld, hlose, hlost⟩ := hrest.losesGrant ((CreditInv.initial _).run hrun)
  refine ⟨actions, lostWorld, ?_, hlost⟩
  rw [run_append, hrun]
  exact hlose

end Koshi.Pty
