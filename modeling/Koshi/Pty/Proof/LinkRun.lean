import Koshi.Pty.Proof.LinkReports

/-!
# The supervisor link over a run

Calls, answers, the close and the reports of one connect, over any interleaving.
-/

namespace Koshi.Pty

open Base Ipc List LinkWorld

/-- **The link's calls and reports.** In every interleaving: a call that returns Ok returns an answer that names its own
request; nobody is handed another request's answer; once the link is closed nobody waits, and no request is registered;
and each pane named at connect or spawned is reported at most once, and once unless it was killed or its output was
refused. -/
theorem supervisorLink_calls {connectionToken : ConnectionToken} {requestedPaneIds : List PaneUuid}
    {actions : List LinkAction} {world : LinkWorld}
    (hrun : (initial connectionToken requestedPaneIds).run actions = some world) :
    (∀ (callNumber : Nat) requestKind requestId result,
      world.calls[callNumber]? = some ⟨requestKind, .returned requestId (.ok result)⟩ →
      ∃ ownId, requestId = some ownId ∧ .registered ownId requestKind ∈ world.history ∧
        .written ownId ∈ world.history ∧ IsExpectedResult requestKind result = true ∧
        (∃ answer, .received answer ∈ world.history ∧ answer.requestId = some ownId ∧
          answer.answerResult = .known result) ∧
        ∀ (otherNumber : Nat) otherKind phase, world.calls[otherNumber]? = some ⟨otherKind, phase⟩ →
          phase.requestId? = some ownId → otherNumber = callNumber) ∧
    (∀ requestId answer, .handed requestId (.response answer) ∈ world.history → answer.requestId = some requestId) ∧
    (∀ before requestId answeredId after,
      world.history = before ++ .handed requestId (.strayResponse answeredId) :: after →
      ∀ id' requestKind, answeredId = some id' → .registered id' requestKind ∉ before) ∧
    (world.linkBook.linkCloseCause ≠ none → world.linkBook.waitingRequestIds = []) ∧
    (∀ before linkCloseCause after, world.history = before ++ .closed linkCloseCause :: after →
      ∀ requestId requestKind, .registered requestId requestKind ∉ after) ∧
    (∀ before requestId after, world.history = before ++ .written requestId :: after →
      ∃ requestKind, .registered requestId requestKind ∈ before) ∧
    (requestedPaneIds.Nodup → world.connectPhase = .connected → world.readerPhase = .ended →
      ∀ paneId, (paneId ∈ requestedPaneIds ∨ ∃ callNumber : Nat, ∃ requestId result,
          world.calls[callNumber]? = some ⟨.spawn paneId, .returned requestId (.ok result)⟩) →
        (paneId ∈ requestedPaneIds → ¬ SendsUnlistedEvent world.history paneId) →
        paneId ∉ world.earlierReportedPaneIds →
        (world.earlierReportedPaneIds ++ listReportedPaneIds world.history).count paneId ≤ 1 ∧
          (.killed paneId ∉ world.history → .refusedOutput paneId ∉ world.history →
            (world.earlierReportedPaneIds ++ listReportedPaneIds world.history).count paneId = 1)) := by
  have hcalls : CallsOk world := (CallsOk.openLink false connectionToken requestedPaneIds []).run hrun
  have hjustified := hcalls.justified
  refine ⟨?_, ?_, ?_, hcalls.closedBook, ?_, ?_, ?_⟩
  · intro callNumber requestKind requestId result hcall
    obtain ⟨ownId, rfl, hwritten, hexp, answer, hhanded, hresult⟩ := hcalls.callSound _ _ _ hcall
    obtain ⟨before, after, hsplit⟩ := append_of_mem hhanded
    obtain ⟨hid, hrecv⟩ := hjustified before _ after hsplit
    refine ⟨ownId, rfl, hcalls.callRegistered _ _ _ _ hcall rfl, hwritten, hexp,
      ⟨answer, ?_, hid, hresult⟩, fun otherNumber otherKind phase hother hotherId => ?_⟩
    · rw [hsplit]
      exact mem_append_left _ hrecv
    · exact hcalls.callUnique _ _ _ _ _ _ ownId hother hcall hotherId rfl
  · intro requestId answer hhanded
    obtain ⟨before, after, hsplit⟩ := append_of_mem hhanded
    exact (hjustified before _ after hsplit).1
  · intro before requestId answeredId after hsplit id' requestKind hid
    exact hjustified before _ after hsplit id' requestKind hid
  · intro before linkCloseCause after hsplit requestId requestKind hreg
    obtain ⟨between, rest, rfl⟩ := append_of_mem hreg
    have hallowed : LinkEntryAllowed (before ++ .closed linkCloseCause :: between)
        (.registered requestId requestKind) :=
      hjustified _ _ rest (by rw [hsplit, append_assoc, cons_append])
    exact hallowed.1 linkCloseCause (mem_append_right _ mem_cons_self)
  · intro before requestId after hsplit
    exact hjustified before _ after hsplit
  · intro hnodup hconnection hended paneId hpane hquiet hearlier
    have hopened := ReportsOk.openLink false connectionToken hnodup []
    have hreports : ReportsOk world := by
      rcases ReportsOk.run (CallsOk.openLink _ _ _ _) (.inr hopened) hrun with hfailed | hreports
      · exact nomatch hconnection.symm.trans hfailed
      · exact hreports
    have hasked : world.requestedPaneIds = requestedPaneIds := run_requestedPaneIds hrun
    rw [← hasked] at hpane hquiet
    rw [count_append, count_eq_zero_of_not_mem hearlier, Nat.zero_add]
    have hle := hreports.count_le_one hconnection hended hquiet
    refine ⟨hle, fun hkilled hrefused => ?_⟩
    exact Nat.le_antisymm hle (hreports.one_le_count hconnection hended hpane hkilled hrefused)

/-! ### Runs -/

theorem LinkWorld.exists_of_run (world : LinkWorld) (actions : List LinkAction) (P : LinkWorld → Prop) [DecidablePred P]
    (htest : (world.run actions).any (fun reached => decide (P reached)) = true) :
    ∃ reached, world.run actions = some reached ∧ P reached := by
  obtain ⟨reached, hrun, hfo⟩ := (Option.any_eq_true _ _).1 htest
  exact ⟨reached, hrun, of_decide_eq_true hfo⟩

def linkedPaneId : PaneUuid := ⟨List.replicate 16 3, rfl⟩

/-- A connect whose supervisor lists these panes, each one named. -/
def connectLink (listed : List PaneUuid) : List LinkAction :=
  [.continueCall 0 false false, .continueCall 0 true false, .receiveResponse ⟨some 1, .known (.hello 3)⟩,
    .continueCall 0 false false, .continueConnect, .continueCall 1 false false, .continueCall 1 true false,
    .receiveResponse ⟨some 2, .known (.panes listed)⟩, .continueCall 1 false false, .continueConnect,
    .continueConnect, .continueConnect]

/-- A link that closes on the one pane it drives. -/
theorem supervisorLink_calls_closed : ∃ world,
    (initial ⟨"token"⟩ [linkedPaneId]).run (connectLink [linkedPaneId] ++
      [.continueConnect, .closeLink .readFailed [linkedPaneId], .continueReader, .continueReader]) = some world ∧
    world.linkBook.waitingRequestIds = [] ∧ listReportedPaneIds world.history = [linkedPaneId] ∧
    (world.earlierReportedPaneIds ++ listReportedPaneIds world.history).count linkedPaneId = 1 := by
  obtain ⟨world, hrun, hclosed, hreported, hconnection, hended, hevent, hearlier, hkilled, hrefused⟩ :=
    exists_of_run (.initial ⟨"token"⟩ [linkedPaneId]) (connectLink [linkedPaneId] ++
      [.continueConnect, .closeLink .readFailed [linkedPaneId], .continueReader, .continueReader])
    (fun world => world.linkBook.linkCloseCause ≠ none ∧ listReportedPaneIds world.history = [linkedPaneId] ∧
      world.connectPhase = .connected ∧ world.readerPhase = .ended ∧ .event linkedPaneId ∉ world.history ∧
      linkedPaneId ∉ world.earlierReportedPaneIds ∧ .killed linkedPaneId ∉ world.history ∧
      .refusedOutput linkedPaneId ∉ world.history) (by decide +kernel)
  obtain ⟨-, -, -, hbook, -, -, hreports⟩ := supervisorLink_calls hrun
  have hquiet : ¬ SendsUnlistedEvent world.history linkedPaneId := by
    rintro ⟨before, requestId, answer, listedPaneIds, after, hsplit, -, -, -, hsent⟩
    rw [hsplit] at hevent
    exact hevent (mem_append_right _ (mem_cons_of_mem _ hsent))
  have hone := hreports (nodup_singleton _) hconnection hended linkedPaneId (.inl (mem_singleton.2 rfl))
    (fun _ => hquiet) hearlier
  exact ⟨world, hrun, hbook hclosed, hreported, hone.2 hkilled hrefused⟩

/-- A request registered before the close is written after it; and a pane whose exit a first link reported, before its
Hello failed on a frame that did not parse, is reported again by the second link, though the supervisor sends no event
of a pane it does not list. -/
theorem supervisorLink_calls_apart :
    (∃ world before after, (initial ⟨"token"⟩ []).run
        [.continueCall 0 false false, .closeLink .readFailed [], .continueCall 0 true false] = some world ∧
      world.history = before ++ .closed .readFailed :: after ∧ .written 1 ∈ after) ∧
    ∃ world, (initial ⟨"token"⟩ [linkedPaneId]).run
        ([.continueCall 0 false false, .continueCall 0 true false, .receiveExit linkedPaneId (.exitCode 0),
          .continueReader, .closeLink .unreadableFrame [], .continueCall 0 false false, .continueConnect] ++
          connectLink [] ++ [.continueConnect, .continueConnect, .closeLink .readFailed [], .continueReader]) =
        some world ∧
      world.connectPhase = .connected ∧ world.readerPhase = .ended ∧ .event linkedPaneId ∉ world.history ∧
      (world.earlierReportedPaneIds ++ listReportedPaneIds world.history).count linkedPaneId = 2 := by
  refine ⟨?_, exists_of_run _ _ _ (by decide +kernel)⟩
  obtain ⟨world, hrun, hhistory⟩ := exists_of_run (.initial ⟨"token"⟩ [])
    [.continueCall 0 false false, .closeLink .readFailed [], .continueCall 0 true false]
    (fun world => world.history =
      [.registered 1 (.hello minSupervisorProtocolVersion supervisorProtocolVersion ⟨"token"⟩),
      .closed .readFailed, .written 1]) (by decide +kernel)
  exact ⟨world, [_], [.written 1], hrun, hhistory, mem_singleton.2 rfl⟩

end Koshi.Pty
