import Koshi.Pty.Proof.LinkCalls

/-!
# Panes reported as ended

A pane's end reaches the sink from three places: the connect, for a pane the supervisor does not list; the reader, for
an exit it reads; and the close, for what the book still drives. The reports made and still to be made are counted
against the panes each place took, and the three take different panes as long as the supervisor sends no event of a pane
it does not list.
-/

namespace Koshi.Pty

open Base Ipc List LinkWorld

variable {history : List LinkHistoryEntry}

/-! ### What is still to be reported -/

/-- The pane whose exit is recorded and is reported next. -/
def LinkReaderPhase.pendingPaneId? : LinkReaderPhase → Option PaneUuid
  | .reportsExit paneId _ => some paneId
  | _ => none

/-- The panes the close still reports. -/
def LinkReaderPhase.unreportedPaneIds : LinkReaderPhase → List PaneUuid
  | .reportsLost lostPaneIds => lostPaneIds
  | _ => []

def LinkReaderPhase.IsClosed : LinkReaderPhase → Prop
  | .reportsLost _ | .ended => True
  | .reads | .reportsExit .. => False

theorem LinkReaderPhase.IsClosed.pendingPaneId?_eq {phase : LinkReaderPhase} (h : phase.IsClosed) :
    phase.pendingPaneId? = none := by
  cases phase with
  | reportsExit paneId status => exact h.elim
  | _ => rfl

/-- The panes the connect still reports. -/
def LinkConnectPhase.unreportedPaneIds : LinkConnectPhase → List PaneUuid
  | .killsExited _ _ missingPaneIds _ | .reportsMissing _ missingPaneIds => missingPaneIds
  | _ => []

/-- The panes the connect is about to drive. -/
def LinkConnectPhase.retainedPaneIds : LinkConnectPhase → Finset PaneUuid
  | .killsExited retainedPaneIds .. | .reportsMissing retainedPaneIds _ => retainedPaneIds
  | _ => ∅

/-- The listed panes are settled against the exits received so far. -/
def LinkConnectPhase.IsSettled : LinkConnectPhase → Prop
  | .killsExited .. | .reportsMissing .. | .connected => True
  | _ => False

/-- The connect goes on, without settling or reporting a pane. -/
structure LinkConnectPhase.GoesOnTo (phase nextPhase : LinkConnectPhase) : Prop where
  before : phase ≠ .connected
  unreported : nextPhase.unreportedPaneIds = phase.unreportedPaneIds
  retained : nextPhase.retainedPaneIds = phase.retainedPaneIds
  settled : nextPhase.IsSettled ↔ phase.IsSettled

/-- The supervisor answered a pane list with these panes. -/
def IsListed (history : List LinkHistoryEntry) (ids : List PaneUuid) : Prop :=
  ∃ requestId answer, .handed requestId (.response answer) ∈ history ∧
    answer.answerResult = .known (.panes ids) ∧ .registered requestId .listPanes ∈ history

/-- The supervisor sent an event of a pane after an answer that does not list it. -/
def SendsUnlistedEvent (history : List LinkHistoryEntry) (paneId : PaneUuid) : Prop :=
  ∃ before requestId answer ids after,
    history = before ++ .handed requestId (.response answer) :: after ∧
    answer.answerResult = .known (.panes ids) ∧ .registered requestId .listPanes ∈ history ∧
    paneId ∉ ids ∧ .event paneId ∈ after

variable {ids : List PaneUuid}

theorem IsListed.append (h : IsListed history ids) (entries : List LinkHistoryEntry) :
    IsListed (history ++ entries) ids := by
  obtain ⟨requestId, answer, hhnd, hres, hreg⟩ := h
  exact ⟨requestId, answer, mem_append_left _ hhnd, hres, mem_append_left _ hreg⟩

theorem SendsUnlistedEvent.append {paneId : PaneUuid} (h : SendsUnlistedEvent history paneId)
    (entries : List LinkHistoryEntry) :
    SendsUnlistedEvent (history ++ entries) paneId := by
  obtain ⟨before, requestId, answer, ids, after, hhistory, hres, hreg, hunlisted, hev⟩ := h
  refine ⟨before, requestId, answer, ids, after ++ entries, ?_, hres,
    mem_append_left _ hreg, hunlisted, mem_append_left _ hev⟩
  rw [hhistory, append_assoc, cons_append]

variable {entries : List LinkHistoryEntry}

theorem IsListed.sendsUnlistedEvent {paneId : PaneUuid} (h : IsListed history ids) (hunlisted : paneId ∉ ids)
    (hev : .event paneId ∈ entries) : SendsUnlistedEvent (history ++ entries) paneId := by
  obtain ⟨requestId, answer, hhnd, hres, hreg⟩ := h
  obtain ⟨before, after, hsp⟩ := append_of_mem hhnd
  refine ⟨before, requestId, answer, ids, after ++ entries, ?_, hres,
    mem_append_left _ hreg, hunlisted, mem_append_right _ hev⟩
  rw [hsp, append_assoc, cons_append]

/-! ### The count -/

/-- How many ends of a pane are to be reported, and by whom. -/
def countEnds (world : LinkWorld) (paneId : PaneUuid) : Nat :=
  (if paneId ∈ world.exitedPaneIds then 1 else 0) + world.missingPaneIds.count paneId + world.lostPaneIds.count paneId

/-- How many ends of a pane were reported, or still are to be. -/
def countReports (world : LinkWorld) (paneId : PaneUuid) : Nat :=
  (listReportedPaneIds world.history).count paneId + world.connectPhase.unreportedPaneIds.count paneId +
    world.readerPhase.unreportedPaneIds.count paneId

/-- Where a driven pane went. -/
def IsAccountedFor (world : LinkWorld) (paneId : PaneUuid) : Prop :=
  paneId ∈ world.linkBook.livePaneIds ∨ paneId ∈ world.lostPaneIds ∨ paneId ∈ world.exitedPaneIds ∨
    paneId ∈ world.outputRejectedPaneIds ∨ world.readerPhase.pendingPaneId? = some paneId ∨
    .killed paneId ∈ world.history

/-- A spawn of the pane returned Ok, or the connect settled the pane and did not find it missing. -/
def IsTaken (world : LinkWorld) (paneId : PaneUuid) : Prop :=
  (∃ callId : Nat, ∃ requestId result, world.calls[callId]? = some ⟨.spawn paneId, .returned requestId (.ok result)⟩) ∨
  (world.connectPhase.IsSettled ∧ paneId ∈ world.requestedPaneIds ∧ paneId ∉ world.missingPaneIds ∧
    paneId ∉ world.connectPhase.retainedPaneIds)

structure LinkPanesOk (world : LinkWorld) : Prop where
  requestedNodup : world.requestedPaneIds.Nodup
  requestedUsed : ∀ paneId ∈ world.requestedPaneIds, paneId ∈ world.usedPaneIds
  missingNodup : world.missingPaneIds.Nodup
  missingRequested : ∀ paneId ∈ world.missingPaneIds, paneId ∈ world.requestedPaneIds
  missingApart : ∀ paneId ∈ world.missingPaneIds, paneId ∉ world.linkBook.livePaneIds ∧
    paneId ∉ world.connectPhase.retainedPaneIds ∧ paneId ∉ world.lostPaneIds
  missingListed : ∀ paneId ∈ world.missingPaneIds, ∃ ids, IsListed world.history ids ∧ paneId ∉ ids
  missingQuiet : ∀ paneId ∈ world.missingPaneIds, SendsUnlistedEvent world.history paneId ∨
    (paneId ∉ world.exitedPaneIds ∧ world.readerPhase.pendingPaneId? ≠ some paneId)
  unsettled : ¬ world.connectPhase.IsSettled → world.missingPaneIds = []
  listed : ∀ ids unrequestedPaneIds callId,
    world.connectPhase = .killsUnrequested ids unrequestedPaneIds callId →
    IsListed world.history ids
  lostNodup : world.lostPaneIds.Nodup
  lostApart : ∀ paneId ∈ world.lostPaneIds, paneId ∉ world.exitedPaneIds
  openLost : ¬ world.readerPhase.IsClosed → world.lostPaneIds = []
  closedBook : world.readerPhase.IsClosed ↔ world.linkBook.linkCloseCause ≠ none
  closedLive : world.readerPhase.IsClosed → world.linkBook.livePaneIds = ∅
  unconnected : world.connectPhase ≠ .connected → world.linkBook.livePaneIds = ∅ ∧ world.lostPaneIds = []
  recorded : ∀ statuses, world.linkBook.exitStatusByPaneIdDuringConnect = some statuses →
    ∀ paneId, (statuses paneId ≠ none → paneId ∈ world.exitedPaneIds ∨
        paneId ∈ world.outputRejectedPaneIds ∨ world.readerPhase.pendingPaneId? = some paneId) ∧
      (paneId ∈ world.exitedPaneIds ∨ world.readerPhase.pendingPaneId? = some paneId → statuses paneId ≠ none)
  spawnCall : ∀ (callId : Nat) paneId phase, world.calls[callId]? = some ⟨.spawn paneId, phase⟩ →
    world.connectPhase = .connected ∧ paneId ∉ world.requestedPaneIds
  accounted : ∀ paneId, IsTaken world paneId → IsAccountedFor world paneId
  refused : ∀ paneId ∈ world.outputRejectedPaneIds, .refusedOutput paneId ∈ world.history

structure ReportsOk (world : LinkWorld) : Prop extends LinkPanesOk world where
  counted : ∀ paneId, countReports world paneId = countEnds world paneId

theorem listReportedPaneIds_append (history entries : List LinkHistoryEntry) :
    listReportedPaneIds (history ++ entries) = listReportedPaneIds history ++ listReportedPaneIds entries :=
  filterMap_append

theorem listReportedPaneIds_report (history : List LinkHistoryEntry) (paneId j : PaneUuid)
    (status : PaneExitStatus) : (listReportedPaneIds (history ++ [.reported paneId status])).count j =
      (listReportedPaneIds history).count j + if paneId == j then 1 else 0 := by
  rw [listReportedPaneIds_append, count_append]
  exact congrArg _ count_singleton

/-- The entry tells the sink of no end. -/
def LinkHistoryEntry.IsQuiet : LinkHistoryEntry → Prop
  | .reported .. => False
  | _ => True

theorem listReportedPaneIds_of_quiet (hquiet : ∀ entry ∈ entries, entry.IsQuiet) :
    listReportedPaneIds entries = [] := by
  refine filterMap_eq_nil_iff.2 fun entry he => ?_
  cases entry with
  | reported paneId status => exact (hquiet _ he).elim
  | _ => rfl

/-! ### What leaves the panes alone -/

namespace LinkPanesOk

variable {world : LinkWorld} (h : LinkPanesOk world)

include h

theorem grow (entries : List LinkHistoryEntry) : LinkPanesOk { world with history := world.history ++ entries } := by
  refine { h with
    missingListed := ?_
    missingQuiet := ?_
    listed := ?_
    accounted := ?_
    refused := fun paneId hpa => mem_append_left _ (h.refused paneId hpa) }
  · intro paneId hpa
    obtain ⟨ids, hls, hunlisted⟩ := h.missingListed paneId hpa
    exact ⟨ids, hls.append entries, hunlisted⟩
  · intro paneId hpa
    rcases h.missingQuiet paneId hpa with hev | hquiet
    · exact .inl (hev.append entries)
    · exact .inr hquiet
  · intro ids killed callId hp
    exact (h.listed ids killed callId hp).append entries
  · intro paneId htk
    rcases h.accounted paneId htk with hlive | hlost | hex | hrej | hpending | hkilled
    · exact .inl hlive
    · exact .inr (.inl hlost)
    · exact .inr (.inr (.inl hex))
    · exact .inr (.inr (.inr (.inl hrej)))
    · exact .inr (.inr (.inr (.inr (.inl hpending))))
    · exact .inr (.inr (.inr (.inr (.inr (mem_append_left _ hkilled)))))

theorem setConnectPhase {connectPhase : LinkConnectPhase} (hb : world.connectPhase ≠ .connected)
    (hrt : connectPhase.retainedPaneIds = world.connectPhase.retainedPaneIds)
    (hsettled : connectPhase.IsSettled ↔ world.connectPhase.IsSettled)
    (hls : ∀ ids killed callId,
      connectPhase = .killsUnrequested ids killed callId →
      IsListed world.history ids) :
    LinkPanesOk { world with connectPhase } := by
  refine { h with
    missingApart := ?_
    unsettled := fun hunsettled => h.unsettled fun her => hunsettled (hsettled.2 her)
    listed := hls
    unconnected := fun _ => h.unconnected hb
    spawnCall := fun callId paneId phase hca => absurd (h.spawnCall callId paneId phase hca).1 hb
    accounted := ?_ }
  · intro paneId hpa
    rw [hrt]
    exact h.missingApart paneId hpa
  · intro paneId htk
    refine h.accounted paneId ?_
    rcases htk with hsw | ⟨hnow, hasked, hmissing, hk⟩
    · exact .inl hsw
    · rw [hrt] at hk
      exact .inr ⟨hsettled.1 hnow, hasked, hmissing, hk⟩

/-- The close goes on: the reader stays closed. -/
theorem continueClose (readerPhase : LinkReaderPhase) (hcz : world.readerPhase.IsClosed)
    (hn : readerPhase.IsClosed) : LinkPanesOk { world with readerPhase } := by
  refine { h with
    missingQuiet := ?_
    openLost := fun hnot => absurd hn hnot
    closedBook := ⟨fun _ => h.closedBook.1 hcz, fun _ => hn⟩
    closedLive := fun _ => h.closedLive hcz
    recorded := ?_
    accounted := ?_ }
  · intro j ho
    rw [hn.pendingPaneId?_eq]
    rcases h.missingQuiet j ho with hev | ⟨hex, -⟩
    · exact .inl hev
    · exact .inr ⟨hex, nofun⟩
  · intro statuses hduring j
    have hnote := h.recorded statuses hduring j
    rw [hcz.pendingPaneId?_eq] at hnote
    rw [hn.pendingPaneId?_eq]
    exact hnote
  · intro j htk
    have haccounted := h.accounted j htk
    unfold IsAccountedFor at haccounted ⊢
    rw [hcz.pendingPaneId?_eq] at haccounted
    rw [hn.pendingPaneId?_eq]
    exact haccounted

end LinkPanesOk

namespace ReportsOk

open LinkWorld

theorem openLink (isPrevious : Bool) (token : ConnectionToken) {requestedPaneIds : List PaneUuid}
    (hnd : requestedPaneIds.Nodup) (earlierReportedPaneIds : List PaneUuid) :
    ReportsOk (.openLink isPrevious token requestedPaneIds earlierReportedPaneIds) where
  requestedNodup := hnd
  requestedUsed := fun _ hpa => List.mem_toFinset.2 hpa
  counted := fun _ => rfl
  missingNodup := nodup_nil
  missingRequested := nofun
  missingApart := nofun
  missingListed := nofun
  missingQuiet := nofun
  unsettled := fun _ => rfl
  listed := nofun
  lostNodup := nodup_nil
  lostApart := nofun
  openLost := fun _ => rfl
  closedBook := ⟨fun hcz => hcz.elim, fun hcz => absurd rfl hcz⟩
  closedLive := fun hcz => hcz.elim
  unconnected := fun _ => ⟨rfl, rfl⟩
  recorded := by
    intro statuses hduring paneId
    cases hduring
    refine ⟨fun hstatus => absurd rfl hstatus, fun hended => ?_⟩
    rcases hended with hended | hended
    · exact absurd hended (Finset.notMem_empty _)
    · exact nomatch hended
  spawnCall := by
    intro callId paneId phase hca
    rw [LinkWorld.openLink, List.getElem?_singleton] at hca
    split_ifs at hca
    cases hca
  accounted := by
    rintro paneId (⟨callId, requestId, result, hca⟩ | ⟨hsettled, -⟩)
    · rw [LinkWorld.openLink, List.getElem?_singleton] at hca
      split_ifs at hca
      cases hca
    · exact hsettled.elim
  refused := fun _ hpa => absurd hpa (Finset.notMem_empty _)

variable {world : LinkWorld} (h : ReportsOk world)

variable {callId : Nat} {request : SupervisorRequestKind} {reached : LinkWorld} {paneId : PaneUuid}

include h

/-! ### What leaves the reports alone -/

theorem grow {entries : List LinkHistoryEntry} (hquiet : ∀ entry ∈ entries, entry.IsQuiet) :
    ReportsOk { world with history := world.history ++ entries } := by
  refine { h.toLinkPanesOk.grow entries with counted := fun paneId => ?_ }
  have hc := h.counted paneId
  unfold countReports at hc ⊢
  rw [listReportedPaneIds_append, listReportedPaneIds_of_quiet hquiet, append_nil]
  exact hc

theorem growOne {entry : LinkHistoryEntry} (hquiet : entry.IsQuiet) :
    ReportsOk { world with history := world.history ++ [entry] } := by
  refine h.grow fun otherEntry he => ?_
  rw [mem_singleton.1 he]
  exact hquiet

theorem setBook {linkBook : LinkBook} (hlive : linkBook.livePaneIds = world.linkBook.livePaneIds)
    (hexits : linkBook.exitStatusByPaneIdDuringConnect = world.linkBook.exitStatusByPaneIdDuringConnect)
    (hcause : linkBook.linkCloseCause = world.linkBook.linkCloseCause) :
    ReportsOk { world with linkBook } := by
  obtain ⟨nextRequestId, waitingRequestIds, live, exitStatuses, cause⟩ := linkBook
  dsimp only at hlive hexits hcause
  subst hlive hexits hcause
  exact { h with }

theorem setPhase {phase nextPhase : CallPhase} (hca : world.calls[callId]? = some ⟨request, phase⟩)
    (hrets : ∀ paneId requestId result, request = .spawn paneId →
      nextPhase = .returned requestId (.ok result) → IsAccountedFor world paneId) :
    ReportsOk (world.setPhase callId request nextPhase) := by
  have hlookup : ∀ {number : Nat} {kind' phase'},
      (world.calls.set callId ⟨request, nextPhase⟩)[number]? = some ⟨kind', phase'⟩ →
      (kind' = request ∧ phase' = nextPhase) ∨ world.calls[number]? = some ⟨kind', phase'⟩ := by
    intro number kind' phase' ho
    rw [List.getElem?_set] at ho
    split_ifs at ho
    · cases ho
      exact .inl ⟨rfl, rfl⟩
    · exact .inr ho
  refine { h with
    spawnCall := ?_
    accounted := ?_ }
  · intro number paneId phase' ho
    rcases hlookup ho with ⟨rfl, rfl⟩ | ho
    · exact h.spawnCall callId paneId phase hca
    · exact h.spawnCall number paneId phase' ho
  · rintro paneId (⟨number, requestId, result, ho⟩ | hsettled)
    · rcases hlookup ho with ⟨rfl, hp⟩ | ho
      · exact hrets paneId requestId result rfl hp.symm
      · exact h.accounted paneId (.inl ⟨number, requestId, result, ho⟩)
    · exact h.accounted paneId (.inr hsettled)

theorem addCall {phase : CallPhase}
    (hspawn : ∀ paneId, request = .spawn paneId → world.connectPhase = .connected ∧ paneId ∉ world.requestedPaneIds)
    (hp : ∀ requestId callResult, phase ≠ .returned requestId callResult) :
    ReportsOk { world with calls := world.calls ++ [⟨request, phase⟩] } := by
  have hlookup : ∀ {number : Nat} {kind' phase'},
      (world.calls ++ [⟨request, phase⟩])[number]? = some ⟨kind', phase'⟩ →
      (kind' = request ∧ phase' = phase) ∨ world.calls[number]? = some ⟨kind', phase'⟩ := by
    intro number kind' phase' ho
    rw [List.getElem?_append] at ho
    split_ifs at ho
    · exact .inr ho
    · rw [List.getElem?_singleton] at ho
      split_ifs at ho
      cases ho
      exact .inl ⟨rfl, rfl⟩
  refine { h with
    spawnCall := ?_
    accounted := ?_ }
  · intro number paneId phase' ho
    rcases hlookup ho with ⟨hki, -⟩ | ho
    · exact hspawn paneId hki.symm
    · exact h.spawnCall number paneId phase' ho
  · rintro paneId (⟨number, requestId, result, ho⟩ | hsettled)
    · rcases hlookup ho with ⟨-, hreturned⟩ | ho
      · exact absurd hreturned.symm (hp requestId _)
      · exact h.accounted paneId (.inl ⟨number, requestId, result, ho⟩)
    · exact h.accounted paneId (.inr hsettled)

theorem setConnectPhase {connectPhase : LinkConnectPhase} (hgoes : world.connectPhase.GoesOnTo connectPhase)
    (hls : ∀ ids killed callId,
      connectPhase = .killsUnrequested ids killed callId →
      IsListed world.history ids) :
    ReportsOk { world with connectPhase } := by
  have hpanes := h.toLinkPanesOk.setConnectPhase hgoes.before hgoes.retained hgoes.settled hls
  refine { hpanes with counted := fun paneId => ?_ }
  have hc := h.counted paneId
  unfold countReports at hc ⊢
  rw [← hgoes.unreported] at hc
  exact hc

/-! ### The callers -/

theorem startCall (hstep : world.startCall request = some reached) : ReportsOk reached := by
  unfold LinkWorld.startCall at hstep
  split at hstep
  · next hlink =>
    split at hstep
    · next hfresh =>
      cases hstep
      have hspawn : ∀ paneId, request = .spawn paneId →
          world.connectPhase = .connected ∧ paneId ∉ world.requestedPaneIds := by
        rintro paneId rfl
        have hunused := hfresh.2 paneId mem_cons_self
        exact ⟨hlink, fun hasked => hunused (h.requestedUsed paneId hasked)⟩
      have hadded : ∀ {phase : CallPhase}, (∀ requestId result, phase ≠ .returned requestId result) →
          ReportsOk { world with
            calls := world.calls ++ [⟨request, phase⟩]
            usedPaneIds := world.usedPaneIds ∪ (listOpenedPaneIds request).toFinset } := by
        intro phase hp
        exact { h.addCall hspawn hp with
          requestedUsed := fun paneId hpa => Finset.mem_union_left _ (h.requestedUsed paneId hpa) }
      refine hadded fun requestId result hreturned => ?_
      split_ifs at hreturned
    · cases hstep
  · cases hstep

theorem takeOut (paneId : PaneUuid) :
    ReportsOk { world with
      linkBook := { world.linkBook with livePaneIds := world.linkBook.livePaneIds.erase paneId }
      history := world.history ++ [.killed paneId] } := by
  have hgrown : ReportsOk { world with history := world.history ++ [.killed paneId] } :=
    h.growOne trivial
  have haccounted : ∀ j, IsAccountedFor { world with history := world.history ++ [.killed paneId] } j →
      IsAccountedFor { world with
        linkBook := { world.linkBook with livePaneIds := world.linkBook.livePaneIds.erase paneId }
        history := world.history ++ [.killed paneId] } j := by
    rintro j (hlive | hr)
    · by_cases heq : j = paneId
      · rw [heq]
        exact .inr (.inr (.inr (.inr (.inr (mem_append_right _ (mem_singleton.2 rfl))))))
      · exact .inl (Finset.mem_erase.2 ⟨heq, hlive⟩)
    · exact .inr hr
  refine { hgrown with
    missingApart := ?_
    closedLive := ?_
    unconnected := ?_
    accounted := fun j htk => haccounted j (hgrown.accounted j htk) }
  · intro j ho
    obtain ⟨hlive, hr⟩ := h.missingApart j ho
    exact ⟨fun hm => hlive (Finset.mem_of_mem_erase hm), hr⟩
  · intro hcz
    show world.linkBook.livePaneIds.erase paneId = ∅
    rw [h.closedLive hcz, Finset.erase_empty]
  · intro hlk
    obtain ⟨hlive, hlost⟩ := h.unconnected hlk
    refine ⟨?_, hlost⟩
    show world.linkBook.livePaneIds.erase paneId = ∅
    rw [hlive, Finset.erase_empty]

theorem insertPane (hlink : world.connectPhase = .connected) (hasked : paneId ∉ world.requestedPaneIds)
    (hop : world.linkBook.linkCloseCause = none) :
    ReportsOk { world with
      linkBook := { world.linkBook with livePaneIds := insert paneId world.linkBook.livePaneIds } } := by
  have haccounted : ∀ j, IsAccountedFor world j → IsAccountedFor { world with
      linkBook := { world.linkBook with livePaneIds := insert paneId world.linkBook.livePaneIds } } j := by
    rintro j (hlive | hr)
    · exact .inl (Finset.mem_insert_of_mem hlive)
    · exact .inr hr
  refine { h with
    missingApart := ?_
    closedLive := fun hcz => absurd hop (h.closedBook.1 hcz)
    unconnected := fun hlk => absurd hlink hlk
    accounted := fun j htk => haccounted j (h.accounted j htk) }
  intro j ho
  obtain ⟨hlive, hr⟩ := h.missingApart j ho
  refine ⟨fun hm => ?_, hr⟩
  rcases Finset.mem_insert.1 hm with rfl | hm
  · exact hasked (h.missingRequested j ho)
  · exact hlive hm

theorem lookUpPane (hca : world.calls[callId]? = some ⟨request, .looksUpPane⟩) :
    ReportsOk (world.lookUpPane callId request) := by
  have hregistered : ReportsOk (world.setPhase callId request .registers) :=
    h.setPhase hca nofun
  unfold LinkWorld.lookUpPane
  split
  · exact hregistered
  · next paneId _ =>
    split
    · split
      · exact hregistered.takeOut paneId
      · exact hregistered
    · split
      · exact h.setPhase hca nofun
      · exact h.setPhase hca nofun

theorem register {requestId : Nat} {linkBook : LinkBook} (hca : world.calls[callId]? = some ⟨request, .registers⟩)
    (hreg : world.linkBook.registerRequest request = some (requestId, linkBook)) :
    ReportsOk { world.setPhase callId request (.writes requestId) with
      linkBook
      history := world.history ++ [.registered requestId request] } := by
  have hp : ReportsOk (world.setPhase callId request (.writes requestId)) :=
    h.setPhase hca nofun
  have hgrown : ReportsOk { world.setPhase callId request (.writes requestId) with
      history := world.history ++ [.registered requestId request] } :=
    hp.growOne trivial
  unfold LinkBook.registerRequest at hreg
  split at hreg
  · dsimp only at hreg
    cases hreg
    exact hgrown.setBook rfl rfl rfl
  · cases hreg

theorem continueCall {wr isLate : Bool}
    (hstep : world.continueCall callId wr isLate = some reached) : ReportsOk reached := by
  unfold LinkWorld.continueCall at hstep
  split at hstep
  · cases hstep
  · next request hca =>
    cases hstep
    exact h.lookUpPane hca
  · next request hca =>
    split at hstep
    · cases hstep
      unfold giveUp
      split
      · exact h.setPhase hca nofun
      · exact h.setPhase hca nofun
    · next requestId linkBook hreg =>
      cases hstep
      exact h.register hca hreg
  · next request requestId hca =>
    split at hstep
    · cases hstep
      have hwt : ReportsOk { world with history := world.history ++ [.written requestId] } :=
        h.growOne trivial
      refine hwt.setPhase hca fun _ _ _ _ hp => ?_
      split_ifs at hp
    · split at hstep
      · cases hstep
        exact h.setPhase hca nofun
      · cases hstep
        exact h.setPhase hca nofun
  · next request requestId ptyError hca =>
    cases hstep
    have hreturned : ReportsOk (world.setPhase callId request (.returned (some requestId) (.error ptyError))) :=
      h.setPhase hca nofun
    exact hreturned.setBook rfl rfl rfl
  · next request requestId hca =>
    split at hstep
    · next linkAnswer linkAnswers hanswers =>
      have htk : ReportsOk { world with
          answersByRequestId := Function.update world.answersByRequestId requestId linkAnswers } := { h with }
      dsimp only at hstep
      split at hstep
      · next result hrd =>
        cases hstep
        exact htk.setPhase hca nofun
      · next request _ callResult ho =>
        cases hstep
        refine htk.setPhase hca fun paneId j result hki hp => ?_
        exact (ho paneId result hki (CallPhase.returned.inj hp).2).elim
    · split at hstep
      · cases hstep
        exact h.setPhase hca nofun
      · split at hstep
        · cases hstep
          exact h.setPhase hca nofun
        · cases hstep
  · next request requestId result hca =>
    split at hstep
    · next paneId =>
      obtain ⟨hlink, hasked⟩ := h.spawnCall callId paneId _ hca
      split at hstep
      · next hop =>
        cases hstep
        have hins := h.insertPane hlink hasked hop
        have hgrown : ReportsOk { world with
            linkBook := { world.linkBook with livePaneIds := insert paneId world.linkBook.livePaneIds }
            history := world.history ++ [.spawned paneId] } :=
          hins.growOne trivial
        refine hgrown.setPhase hca fun j _ _ hki _ => ?_
        cases hki
        exact .inl (Finset.mem_insert_self _ _)
      · cases hstep
        exact h.setPhase hca nofun
    · cases hstep
  · cases hstep
  · cases hstep

/-! ### The connect -/

theorem settlePanes {ids : List PaneUuid} (hp : world.connectPhase = .killsUnrequested ids [] none)
    (hstep : world.settlePanes ids = some reached) : ReportsOk reached := by
  have hunsettled : ¬ world.connectPhase.IsSettled := by
    rw [hp]
    exact id
  have hnone := h.unsettled hunsettled
  have hlk : world.connectPhase ≠ .connected := by
    rw [hp]
    exact nofun
  obtain ⟨hlive, hlost⟩ := h.unconnected hlk
  unfold LinkWorld.settlePanes at hstep
  split at hstep
  · cases hstep
  · next statuses hduring =>
    cases hstep
    have hnote := h.recorded statuses hduring
    have hmissing : ∀ {paneId}, paneId ∈ world.requestedPaneIds.filter (fun paneId =>
        decide (paneId ∉ ids ∧ statuses paneId = none)) →
        paneId ∈ world.requestedPaneIds ∧ paneId ∉ ids ∧ statuses paneId = none := by
      intro paneId hpa
      obtain ⟨hasked, hdecide⟩ := mem_filter.1 hpa
      exact ⟨hasked, of_decide_eq_true hdecide⟩
    refine { h with
      missingNodup := h.requestedNodup.filter _
      missingRequested := fun paneId hpa => (hmissing hpa).1
      missingApart := ?_
      missingListed := fun paneId hpa =>
        ⟨ids, h.listed ids [] none hp, (hmissing hpa).2.1⟩
      missingQuiet := ?_
      unsettled := fun hnot => absurd trivial hnot
      listed := nofun
      unconnected := fun _ => ⟨hlive, hlost⟩
      recorded := nofun
      spawnCall := fun callId paneId phase hca => absurd (h.spawnCall callId paneId phase hca).1 hlk
      accounted := ?_
      counted := ?_ }
    · intro paneId hpa
      obtain ⟨-, hunlisted, -⟩ := hmissing hpa
      refine ⟨?_, fun hrt => ?_, ?_⟩
      · show paneId ∉ world.linkBook.livePaneIds
        rw [hlive]
        exact Finset.notMem_empty paneId
      · have hclaimed := mem_of_mem_filter (List.mem_toFinset.1 hrt)
        exact hunlisted (mem_of_mem_filter hclaimed)
      · show paneId ∉ world.lostPaneIds
        rw [hlost]
        exact not_mem_nil
    · intro paneId hpa
      obtain ⟨-, -, hunrecorded⟩ := hmissing hpa
      refine .inr ⟨fun hex => ?_, fun hpending => ?_⟩
      · exact (hnote paneId).2 (.inl hex) hunrecorded
      · exact (hnote paneId).2 (.inr hpending) hunrecorded
    · rintro paneId (⟨callId, requestId, result, hca⟩ | ⟨-, hasked, hfo, hk⟩)
      · exact absurd (h.spawnCall callId paneId _ hca).1 hlk
      · -- neither missing nor retained: its exit was recorded
        have hexit : statuses paneId ≠ none := by
          intro hunrecorded
          by_cases hls : paneId ∈ ids
          · refine hk (List.mem_toFinset.2 (mem_filter.2 ⟨?_, decide_eq_true hunrecorded⟩))
            exact mem_filter.2 ⟨hls, decide_eq_true hasked⟩
          · exact hfo (mem_filter.2 ⟨hasked, decide_eq_true ⟨hls, hunrecorded⟩⟩)
        rcases (hnote paneId).1 hexit with hex | hrej | hpending
        · exact .inr (.inr (.inl hex))
        · exact .inr (.inr (.inr (.inl hrej)))
        · exact .inr (.inr (.inr (.inr (.inl hpending))))
    · intro paneId
      have hc := h.counted paneId
      unfold countReports countEnds at hc ⊢
      rw [hp, hnone] at hc
      simp only [LinkConnectPhase.unreportedPaneIds, count_nil] at hc ⊢
      omega

theorem reportMissing {retained : Finset PaneUuid} {missing : List PaneUuid}
    (hp : world.connectPhase = .reportsMissing retained (paneId :: missing)) :
    ReportsOk { world with
      history := world.history ++ [.reported paneId unobservedExit]
      connectPhase := .reportsMissing retained missing } := by
  have hlk : world.connectPhase ≠ .connected := by
    rw [hp]
    exact nofun
  have hgrown := h.toLinkPanesOk.grow [.reported paneId unobservedExit]
  have hpanes : LinkPanesOk { world with
      history := world.history ++ [.reported paneId unobservedExit]
      connectPhase := .reportsMissing retained missing } := by
    refine hgrown.setConnectPhase hlk ?_ ?_ nofun
    · show _ = world.connectPhase.retainedPaneIds
      rw [hp]
      rfl
    · show _ ↔ world.connectPhase.IsSettled
      rw [hp]
      exact Iff.rfl
  refine { hpanes with counted := fun j => ?_ }
  have hc := h.counted j
  unfold countReports at hc ⊢
  rw [hp] at hc
  rw [listReportedPaneIds_report]
  simp only [LinkConnectPhase.unreportedPaneIds, count_cons] at hc ⊢
  show _ = countEnds world j
  omega

theorem connect {retained : Finset PaneUuid} (hp : world.connectPhase = .reportsMissing retained [])
    (hop : world.linkBook.linkCloseCause = none) :
    ReportsOk { world with
      linkBook := { world.linkBook with livePaneIds := retained }
      connectPhase := .connected } := by
  have hrt : world.connectPhase.retainedPaneIds = retained := by
    rw [hp]
    rfl
  have hlk : world.connectPhase ≠ .connected := by
    rw [hp]
    exact nofun
  obtain ⟨hlive, hlost⟩ := h.unconnected hlk
  refine { h with
    missingApart := ?_
    unsettled := fun hnot => absurd trivial hnot
    listed := nofun
    closedLive := fun hcz => absurd hop (h.closedBook.1 hcz)
    unconnected := fun hnot => absurd rfl hnot
    spawnCall := fun callId paneId phase hca => absurd (h.spawnCall callId paneId phase hca).1 hlk
    accounted := ?_
    counted := ?_ }
  · intro paneId hpa
    obtain ⟨-, hk, hfo⟩ := h.missingApart paneId hpa
    rw [hrt] at hk
    exact ⟨hk, Finset.notMem_empty paneId, hfo⟩
  · rintro paneId (⟨callId, requestId, result, hca⟩ | ⟨-, hasked, hfo, -⟩)
    · exact absurd (h.spawnCall callId paneId _ hca).1 hlk
    · by_cases hk : paneId ∈ retained
      · exact .inl hk
      · have hsettled : world.connectPhase.IsSettled := by
          rw [hp]
          trivial
        rw [← hrt] at hk
        rcases h.accounted paneId (.inr ⟨hsettled, hasked, hfo, hk⟩) with hdr | hr
        · rw [hlive] at hdr
          exact absurd hdr (Finset.notMem_empty paneId)
        · exact .inr hr
  · intro paneId
    have hc := h.counted paneId
    unfold countReports at hc ⊢
    rw [hp] at hc
    exact hc

theorem callFromConnect {connectPhase : LinkConnectPhase} (hki : ∀ paneId, request ≠ .spawn paneId)
    (hgoes : world.connectPhase.GoesOnTo connectPhase)
    (hls : ∀ ids killed callId,
      connectPhase = .killsUnrequested ids killed callId →
      IsListed world.history ids) :
    ReportsOk (world.callFromConnect request connectPhase) := by
  have hadded : ReportsOk { world with calls := world.calls ++ [⟨request, .registers⟩] } :=
    h.addCall (fun paneId heq => absurd heq (hki paneId)) nofun
  exact hadded.setConnectPhase hgoes hls

theorem isListed_of_findCallResult (hcalls : CallsOk world)
    (hres : world.findCallResult callId = some (.ok (.panes ids))) :
    IsListed world.history ids := by
  unfold findCallResult at hres
  split at hres
  · next request requestId result hca =>
    cases hres
    obtain ⟨answeredId, rfl, -, hexp, answer, hhnd, hans⟩ := hcalls.callSound _ _ _ hca
    have hreg := hcalls.callRegistered _ _ _ answeredId hca rfl
    have hki : request = .listPanes := by
      cases request with
      | listPanes => rfl
      | _ => exact nomatch hexp
    rw [hki] at hreg
    exact ⟨answeredId, answer, hhnd, hans, hreg⟩
  · cases hres

theorem continueConnect (hcalls : CallsOk world)
    (hstep : world.continueConnect = some reached) : reached.connectPhase = .failed ∨ ReportsOk reached := by
  unfold LinkWorld.continueConnect at hstep
  split at hstep
  · next callId hp =>
    split at hstep
    · cases hstep
      refine .inr (h.callFromConnect nofun ?_ nofun)
      rw [hp]
      exact ⟨nofun, rfl, rfl, Iff.rfl⟩
    · split at hstep
      · cases hstep
        exact .inr (ReportsOk.openLink _ _ h.requestedNodup _)
      · cases hstep
        exact .inl rfl
    · cases hstep
  · next callId hp =>
    split at hstep
    · next ids hres =>
      cases hstep
      have hls := h.isListed_of_findCallResult hcalls hres
      refine .inr (h.setConnectPhase ?_ fun _ _ _ heq => ?_)
      · rw [hp]
        exact ⟨nofun, rfl, rfl, Iff.rfl⟩
      · cases heq
        exact hls
    · cases hstep
      exact .inl rfl
    · cases hstep
  · next ids paneId killed hp =>
    cases hstep
    have hls := h.listed _ _ _ hp
    refine .inr (h.callFromConnect nofun ?_ fun _ _ _ heq => ?_)
    · rw [hp]
      exact ⟨nofun, rfl, rfl, Iff.rfl⟩
    · cases heq
      exact hls
  · next ids killed callId hp =>
    split at hstep
    · cases hstep
      have hls := h.listed _ _ _ hp
      refine .inr (h.setConnectPhase ?_ fun _ _ _ heq => ?_)
      · rw [hp]
        exact ⟨nofun, rfl, rfl, Iff.rfl⟩
      · cases heq
        exact hls
    · cases hstep
  · next ids hp => exact .inr (h.settlePanes hp hstep)
  · next retained paneId exitLst missing hp =>
    cases hstep
    refine .inr (h.callFromConnect nofun ?_ nofun)
    rw [hp]
    exact ⟨nofun, rfl, rfl, Iff.rfl⟩
  · next retained exitLst missing callId hp =>
    split at hstep
    · cases hstep
      refine .inr (h.setConnectPhase ?_ nofun)
      rw [hp]
      exact ⟨nofun, rfl, rfl, Iff.rfl⟩
    · cases hstep
      exact .inl rfl
    · cases hstep
  · next retained missing hp =>
    cases hstep
    refine .inr (h.setConnectPhase ?_ nofun)
    rw [hp]
    exact ⟨nofun, rfl, rfl, Iff.rfl⟩
  · next retained paneId missing hp =>
    cases hstep
    exact .inr (h.reportMissing hp)
  · next retained hp =>
    split at hstep
    · next hop =>
      cases hstep
      exact .inr (h.connect hp hop)
    · cases hstep
      exact .inl rfl
  · cases hstep
  · cases hstep

/-! ### The reader -/

theorem receiveResponse {answer : AnswerFrame}
    (hstep : world.receiveResponse answer = some reached) : ReportsOk reached := by
  unfold LinkWorld.receiveResponse at hstep
  split at hstep
  · cases hdlv : world.linkBook.deliverSupervisorResponse answer with
    | mk handedAnswers nextBook =>
      rw [hdlv] at hstep
      cases hstep
      obtain ⟨⟨requestIds, rfl, -⟩, -⟩ := LinkBook.deliver_spec hdlv
      have hgrown : ReportsOk { world with
          history := world.history ++ .received answer :: handedAnswers.map fun hnd => .handed hnd.1 hnd.2 } :=
        h.grow fun entry he => by
          rcases mem_cons.1 he with rfl | he
          · trivial
          · obtain ⟨hnd, -, rfl⟩ := List.mem_map.1 he
            trivial
      have hbook : ReportsOk { world with
          linkBook := { world.linkBook with waitingRequestIds := requestIds }
          history := world.history ++ .received answer ::
            handedAnswers.map fun hnd => .handed hnd.1 hnd.2 } := hgrown.setBook rfl rfl rfl
      exact { hbook with }
  · cases hstep

theorem receiveOutput {isAccepted : Bool}
    (hstep : world.receiveOutput paneId isAccepted = some reached) : ReportsOk reached := by
  unfold LinkWorld.receiveOutput at hstep
  split at hstep
  · split at hstep
    · cases hstep
      have hgrown : ReportsOk { world with history := world.history ++ [.event paneId, .refusedOutput paneId] } :=
        h.grow fun entry he => by
          rcases mem_pair.1 he with rfl | rfl
          · trivial
          · trivial
      refine { hgrown with
        recorded := ?_
        accounted := ?_
        refused := ?_ }
      · intro statuses hduring j
        obtain ⟨hnote, hended⟩ := h.recorded statuses hduring j
        refine ⟨fun hstatus => ?_, hended⟩
        rcases hnote hstatus with hex | hrej | hpending
        · exact .inl hex
        · exact .inr (.inl (Finset.mem_insert_of_mem hrej))
        · exact .inr (.inr hpending)
      · intro j htk
        rcases hgrown.accounted j htk with hlive | hlost | hex | hrej | hr
        · exact .inl hlive
        · exact .inr (.inl hlost)
        · exact .inr (.inr (.inl hex))
        · exact .inr (.inr (.inr (.inl (Finset.mem_insert_of_mem hrej))))
        · exact .inr (.inr (.inr (.inr hr)))
      · intro j ho
        rcases Finset.mem_insert.1 ho with rfl | ho
        · exact mem_append_right _ (mem_cons_of_mem _ mem_cons_self)
        · exact mem_append_left _ (h.refused j ho)
    · cases hstep
      exact h.growOne trivial
  · cases hstep

theorem receiveExit {status : PaneExitStatus}
    (hstep : world.receiveExit paneId status = some reached) : ReportsOk reached := by
  unfold LinkWorld.receiveExit at hstep
  split at hstep
  · next hrds =>
    cases hstep
    have hnotClosed : ¬ world.readerPhase.IsClosed := by
      rw [hrds]
      exact id
    have hgrown : ReportsOk { world with history := world.history ++ [.event paneId] } :=
      h.growOne trivial
    refine { hgrown with
      missingQuiet := ?_
      openLost := fun _ => h.openLost hnotClosed
      closedBook := ⟨fun hcz => hcz.elim, fun hcz => absurd (h.closedBook.2 hcz) hnotClosed⟩
      closedLive := fun hcz => hcz.elim
      recorded := ?_
      accounted := ?_
      counted := ?_ }
    · intro j ho
      by_cases heq : j = paneId
      · subst heq
        obtain ⟨ids, hls, hunlisted⟩ := h.missingListed j ho
        exact .inl (hls.sendsUnlistedEvent hunlisted (mem_singleton.2 rfl))
      · rcases h.missingQuiet j ho with hev | ⟨hex, -⟩
        · exact .inl (hev.append _)
        · exact .inr ⟨hex, fun hpending => heq (Option.some.inj hpending).symm⟩
    · intro statuses hduring j
      obtain ⟨earlierStatuses, her, rfl⟩ := Option.map_eq_some_iff.1 hduring
      obtain ⟨hnote, hended⟩ := h.recorded earlierStatuses her j
      rw [hrds] at hnote hended
      dsimp only
      by_cases heq : j = paneId
      · subst heq
        rw [Function.update_self]
        exact ⟨fun _ => .inr (.inr rfl), nofun⟩
      · rw [Function.update_of_ne heq]
        refine ⟨fun hstatus => ?_, fun ho => ?_⟩
        · rcases hnote hstatus with hex | hrej | hpending
          · exact .inl hex
          · exact .inr (.inl hrej)
          · exact nomatch hpending
        · rcases ho with hex | hpending
          · exact hended (.inl hex)
          · exact absurd (Option.some.inj hpending).symm heq
    · intro j htk
      rcases hgrown.accounted j htk with hlive | hlost | hex | hrej | hpending | hkilled
      · exact .inl hlive
      · exact .inr (.inl hlost)
      · exact .inr (.inr (.inl hex))
      · exact .inr (.inr (.inr (.inl hrej)))
      · replace hpending : world.readerPhase.pendingPaneId? = some j := hpending
        rw [hrds] at hpending
        exact nomatch hpending
      · exact .inr (.inr (.inr (.inr (.inr hkilled))))
    · intro j
      have hc := hgrown.counted j
      unfold countReports at hc ⊢
      dsimp only at hc
      rw [hrds] at hc
      exact hc
  · cases hstep

/-- The reader is done with the exit it read: reported, or one the sink is not to hear of. -/
theorem settleExit {status : PaneExitStatus} (hp : world.readerPhase = .reportsExit paneId status)
    {exitedPaneIds : Finset PaneUuid}
    (hgrows : ∀ j, j ∈ exitedPaneIds ↔ j ∈ world.exitedPaneIds ∨ (j = paneId ∧ j ∈ exitedPaneIds))
    (hsettled : paneId ∈ exitedPaneIds ∨ paneId ∈ world.outputRejectedPaneIds) :
    LinkPanesOk { world with readerPhase := .reads, exitedPaneIds } := by
  have hnotClosed : ¬ world.readerPhase.IsClosed := by
    rw [hp]
    exact id
  have hlost := h.openLost hnotClosed
  have hpending : ∀ {j}, world.readerPhase.pendingPaneId? = some j → j = paneId := by
    intro j ho
    rw [hp] at ho
    exact (Option.some.inj ho).symm
  refine { h with
    missingQuiet := ?_
    lostApart := ?_
    openLost := fun _ => hlost
    closedBook := ⟨fun hcz => hcz.elim, fun hcz => absurd (h.closedBook.2 hcz) hnotClosed⟩
    closedLive := fun hcz => hcz.elim
    recorded := ?_
    accounted := ?_ }
  · intro j ho
    rcases h.missingQuiet j ho with hev | ⟨hex, hquiet⟩
    · exact .inl hev
    · refine .inr ⟨fun hnow => ?_, nofun⟩
      rcases (hgrows j).1 hnow with her | ⟨rfl, -⟩
      · exact hex her
      · rw [hp] at hquiet
        exact hquiet rfl
  · intro j ho
    replace ho : j ∈ world.lostPaneIds := ho
    rw [hlost] at ho
    exact nomatch ho
  · intro statuses hduring j
    obtain ⟨hnote, hended⟩ := h.recorded statuses hduring j
    refine ⟨fun hstatus => ?_, fun ho => ?_⟩
    · rcases hnote hstatus with hex | hrej | hn
      · exact .inl ((hgrows j).2 (.inl hex))
      · exact .inr (.inl hrej)
      · rw [hpending hn]
        rcases hsettled with hex | hrej
        · exact .inl hex
        · exact .inr (.inl hrej)
    · rcases ho with hex | hnone
      · rcases (hgrows j).1 hex with her | ⟨rfl, -⟩
        · exact hended (.inl her)
        · refine hended (.inr ?_)
          rw [hp]
          rfl
      · exact nomatch hnone
  · intro j htk
    rcases h.accounted j htk with hlive | hgone | hex | hrej | hn | hkilled
    · exact .inl hlive
    · exact .inr (.inl hgone)
    · exact .inr (.inr (.inl ((hgrows j).2 (.inl hex))))
    · exact .inr (.inr (.inr (.inl hrej)))
    · rw [hpending hn]
      rcases hsettled with hex | hrej
      · exact .inr (.inr (.inl hex))
      · exact .inr (.inr (.inr (.inl hrej)))
    · exact .inr (.inr (.inr (.inr (.inr hkilled))))

theorem continueReader (hstep : world.continueReader = some reached) : ReportsOk reached := by
  unfold LinkWorld.continueReader at hstep
  split at hstep
  · next paneId status hp =>
    split at hstep
    · next hnew =>
      cases hstep
      have hsettled : LinkPanesOk { world with
          readerPhase := .reads
          exitedPaneIds := insert paneId world.exitedPaneIds } := by
        refine h.settleExit hp (fun j => ?_) (.inl (Finset.mem_insert_self _ _))
        rw [Finset.mem_insert]
        tauto
      refine { hsettled.grow [.reported paneId status] with counted := fun j => ?_ }
      have hc := h.counted j
      unfold countReports countEnds at hc ⊢
      rw [hp] at hc
      rw [listReportedPaneIds_report]
      simp only [LinkReaderPhase.unreportedPaneIds, count_nil, Finset.mem_insert, beq_iff_eq] at hc ⊢
      by_cases heq : j = paneId
      · subst heq
        rw [if_neg hnew.2] at hc
        rw [if_pos rfl, if_pos (.inl rfl)]
        omega
      · rw [if_neg (fun hs => heq hs.symm)]
        simp only [heq, false_or]
        omega
    · next hold =>
      cases hstep
      have hsettled : LinkPanesOk { world with readerPhase := .reads } := by
        refine h.settleExit hp (fun j => ⟨.inl, ?_⟩) ?_
        · rintro (hex | ⟨-, hex⟩)
          · exact hex
          · exact hex
        · by_contra hneither
          rw [not_or] at hneither
          exact hold ⟨hneither.2, hneither.1⟩
      refine { hsettled with counted := fun j => ?_ }
      have hc := h.counted j
      unfold countReports at hc ⊢
      rw [hp] at hc
      exact hc
  · next paneId lost hp =>
    cases hstep
    have hcz : world.readerPhase.IsClosed := by
      rw [hp]
      trivial
    have hgrown := h.toLinkPanesOk.grow [.reported paneId unobservedExit]
    refine { hgrown.continueClose (.reportsLost lost) hcz trivial with counted := fun j => ?_ }
    have hc := h.counted j
    unfold countReports at hc ⊢
    rw [hp] at hc
    rw [listReportedPaneIds_report]
    simp only [LinkReaderPhase.unreportedPaneIds, count_cons] at hc ⊢
    show _ = countEnds world j
    omega
  · next hp =>
    cases hstep
    have hcz : world.readerPhase.IsClosed := by
      rw [hp]
      trivial
    refine { h.toLinkPanesOk.continueClose .ended hcz trivial with counted := fun paneId => ?_ }
    have hc := h.counted paneId
    unfold countReports at hc ⊢
    rw [hp] at hc
    exact hc
  · cases hstep

theorem closeLink {cause : LinkCloseCause} {lost : List PaneUuid}
    (hstep : world.closeLink cause lost = some reached) : ReportsOk reached := by
  unfold LinkWorld.closeLink at hstep
  split at hstep
  · next hrds =>
    split at hstep
    · next hlost =>
      cases hstep
      obtain ⟨hnd, hset⟩ := hlost
      have hm : ∀ paneId, paneId ∈ lost ↔ paneId ∈ world.linkBook.livePaneIds ∧
          paneId ∉ world.outputRejectedPaneIds ∧ paneId ∉ world.exitedPaneIds := by
        intro paneId
        rw [← List.mem_toFinset, hset, Finset.mem_filter]
      have hnotClosed : ¬ world.readerPhase.IsClosed := by
        rw [hrds]
        exact id
      have hnone := h.openLost hnotClosed
      have hgrown : ReportsOk { world with history := world.history ++ [.closed cause] } :=
        h.growOne trivial
      refine { hgrown with
        missingApart := ?_
        missingQuiet := ?_
        lostNodup := hnd
        lostApart := fun paneId hpa => ((hm paneId).1 hpa).2.2
        openLost := fun hnot => absurd trivial hnot
        closedBook := ⟨nofun, fun _ => trivial⟩
        closedLive := fun _ => rfl
        unconnected := ?_
        recorded := ?_
        accounted := ?_
        counted := ?_ }
      · intro paneId hpa
        obtain ⟨hlive, hk, -⟩ := h.missingApart paneId hpa
        exact ⟨Finset.notMem_empty paneId, hk, fun hgone => hlive ((hm paneId).1 hgone).1⟩
      · intro paneId hpa
        rcases hgrown.missingQuiet paneId hpa with hev | ⟨hex, -⟩
        · exact .inl hev
        · exact .inr ⟨hex, nofun⟩
      · intro hlk
        refine ⟨rfl, eq_nil_iff_forall_not_mem.2 fun paneId hpa => ?_⟩
        have hlive := ((hm paneId).1 hpa).1
        rw [(h.unconnected hlk).1] at hlive
        exact Finset.notMem_empty paneId hlive
      · intro statuses hduring paneId
        have hnote := h.recorded statuses hduring paneId
        rw [hrds] at hnote
        exact hnote
      · intro paneId htk
        rcases hgrown.accounted paneId htk with hlive | hgone | hex | hrej | hn | hkilled
        · by_cases hrej : paneId ∈ world.outputRejectedPaneIds
          · exact .inr (.inr (.inr (.inl hrej)))
          · by_cases hex : paneId ∈ world.exitedPaneIds
            · exact .inr (.inr (.inl hex))
            · exact .inr (.inl ((hm paneId).2 ⟨hlive, hrej, hex⟩))
        · replace hgone : paneId ∈ world.lostPaneIds := hgone
          rw [hnone] at hgone
          exact nomatch hgone
        · exact .inr (.inr (.inl hex))
        · exact .inr (.inr (.inr (.inl hrej)))
        · replace hn : world.readerPhase.pendingPaneId? = some paneId := hn
          rw [hrds] at hn
          exact nomatch hn
        · exact .inr (.inr (.inr (.inr (.inr hkilled))))
      · intro paneId
        have hc := hgrown.counted paneId
        unfold countReports countEnds at hc ⊢
        dsimp only at hc
        rw [hrds, hnone] at hc
        simp only [LinkReaderPhase.unreportedPaneIds, count_nil] at hc ⊢
        omega
    · cases hstep
  · cases hstep

end ReportsOk

/-! ### Runs -/

variable {action : LinkAction}

namespace LinkWorld

variable {world reached : LinkWorld}

/-- The connect is where it was, with the panes it was given. -/
def SameConnect (world reached : LinkWorld) : Prop :=
  reached.connectPhase = world.connectPhase ∧ reached.requestedPaneIds = world.requestedPaneIds

theorem lookUpPane_sameConnect (world : LinkWorld) (callId : Nat) (request : SupervisorRequestKind) :
    SameConnect world (world.lookUpPane callId request) := by
  unfold lookUpPane
  split
  · exact ⟨rfl, rfl⟩
  · split
    · split
      · exact ⟨rfl, rfl⟩
      · exact ⟨rfl, rfl⟩
    · split
      · exact ⟨rfl, rfl⟩
      · exact ⟨rfl, rfl⟩

theorem giveUp_sameConnect (world : LinkWorld) (callId : Nat) (request : SupervisorRequestKind) (requestId : Option Nat)
    (ptyError : PtyError) :
    SameConnect world (world.giveUp callId request requestId ptyError) := by
  unfold giveUp
  split
  · exact ⟨rfl, rfl⟩
  · exact ⟨rfl, rfl⟩

theorem continueCall_sameConnect {callId : Nat} {wr isLate : Bool}
    (hstep : world.continueCall callId wr isLate = some reached) : SameConnect world reached := by
  unfold continueCall at hstep
  split at hstep
  · cases hstep
  · cases hstep
    exact lookUpPane_sameConnect world _ _
  · split at hstep
    · cases hstep
      exact giveUp_sameConnect world _ _ _ _
    · cases hstep
      exact ⟨rfl, rfl⟩
  · split at hstep
    · cases hstep
      exact ⟨rfl, rfl⟩
    · split at hstep
      · cases hstep
        exact ⟨rfl, rfl⟩
      · cases hstep
        exact ⟨rfl, rfl⟩
  · cases hstep
    exact ⟨rfl, rfl⟩
  · split at hstep
    · dsimp only at hstep
      split at hstep
      · cases hstep
        exact ⟨rfl, rfl⟩
      · cases hstep
        exact ⟨rfl, rfl⟩
    · split at hstep
      · cases hstep
        exact ⟨rfl, rfl⟩
      · split at hstep
        · cases hstep
          exact ⟨rfl, rfl⟩
        · cases hstep
  · split at hstep
    · split at hstep
      · cases hstep
        exact ⟨rfl, rfl⟩
      · cases hstep
        exact ⟨rfl, rfl⟩
    · cases hstep
  · cases hstep
  · cases hstep

theorem sameConnect_of_step (haction : action ≠ .continueConnect) (hstep : world.step action = some reached) :
    SameConnect world reached := by
  cases action with
  | startCall request =>
    replace hstep : world.startCall request = some reached := hstep
    unfold startCall at hstep
    split at hstep
    · split at hstep
      · cases hstep
        exact ⟨rfl, rfl⟩
      · cases hstep
    · cases hstep
  | continueCall callId written isLate => exact continueCall_sameConnect hstep
  | continueConnect => exact absurd rfl haction
  | receiveResponse answer =>
    replace hstep : world.receiveResponse answer = some reached := hstep
    unfold receiveResponse at hstep
    split at hstep
    · cases hstep
      exact ⟨rfl, rfl⟩
    · cases hstep
  | receiveOutput paneId isAccepted =>
    replace hstep : world.receiveOutput paneId isAccepted = some reached := hstep
    unfold receiveOutput at hstep
    split at hstep
    · split at hstep
      · cases hstep
        exact ⟨rfl, rfl⟩
      · cases hstep
        exact ⟨rfl, rfl⟩
    · cases hstep
  | receiveExit paneId status =>
    replace hstep : world.receiveExit paneId status = some reached := hstep
    unfold receiveExit at hstep
    split at hstep
    · cases hstep
      exact ⟨rfl, rfl⟩
    · cases hstep
  | continueReader =>
    replace hstep : world.continueReader = some reached := hstep
    unfold continueReader at hstep
    split at hstep
    · split at hstep
      · cases hstep
        exact ⟨rfl, rfl⟩
      · cases hstep
        exact ⟨rfl, rfl⟩
    · cases hstep
      exact ⟨rfl, rfl⟩
    · cases hstep
      exact ⟨rfl, rfl⟩
    · cases hstep
  | closeLink cause lostPaneIds =>
    replace hstep : world.closeLink cause lostPaneIds = some reached := hstep
    unfold closeLink at hstep
    split at hstep
    · split at hstep
      · cases hstep
        exact ⟨rfl, rfl⟩
      · cases hstep
    · cases hstep

theorem failed_of_step (hfailed : world.connectPhase = .failed) (hstep : world.step action = some reached) :
    reached.connectPhase = .failed := by
  by_cases haction : action = .continueConnect
  · subst haction
    replace hstep : world.continueConnect = some reached := hstep
    unfold continueConnect at hstep
    rw [hfailed] at hstep
    cases hstep
  · exact (sameConnect_of_step haction hstep).1.trans hfailed

theorem continueConnect_requestedPaneIds (hstep : world.continueConnect = some reached) :
    reached.requestedPaneIds = world.requestedPaneIds := by
  unfold continueConnect at hstep
  split at hstep
  · split at hstep
    · cases hstep
      rfl
    · split at hstep
      · cases hstep
        rfl
      · cases hstep
        rfl
    · cases hstep
  · split at hstep
    · cases hstep
      rfl
    · cases hstep
      rfl
    · cases hstep
  · cases hstep
    rfl
  · split at hstep
    · cases hstep
      rfl
    · cases hstep
  · unfold settlePanes at hstep
    split at hstep
    · cases hstep
    · cases hstep
      rfl
  · cases hstep
    rfl
  · split at hstep
    · cases hstep
      rfl
    · cases hstep
      rfl
    · cases hstep
  · cases hstep
    rfl
  · cases hstep
    rfl
  · split at hstep
    · cases hstep
      rfl
    · cases hstep
      rfl
  · cases hstep
  · cases hstep

theorem run_requestedPaneIds {actions : List LinkAction} (hrun : world.run actions = some reached) :
    reached.requestedPaneIds = world.requestedPaneIds := by
  refine foldlM_invariant (·.requestedPaneIds = world.requestedPaneIds) ?_ rfl hrun
  intro earlier action later hs hstep
  refine Eq.trans ?_ hs
  by_cases haction : action = .continueConnect
  · subst haction
    exact continueConnect_requestedPaneIds hstep
  · exact (sameConnect_of_step haction hstep).2

end LinkWorld

theorem ReportsOk.step {world reached : LinkWorld} (hcalls : CallsOk world) (h : ReportsOk world)
    (hstep : world.step action = some reached) :
    reached.connectPhase = .failed ∨ ReportsOk reached := by
  cases action with
  | startCall request => exact .inr (h.startCall hstep)
  | continueCall callId written isLate => exact .inr (h.continueCall hstep)
  | continueConnect => exact h.continueConnect hcalls hstep
  | receiveResponse answer => exact .inr (h.receiveResponse hstep)
  | receiveOutput paneId isAccepted => exact .inr (h.receiveOutput hstep)
  | receiveExit paneId status => exact .inr (h.receiveExit hstep)
  | continueReader => exact .inr (h.continueReader hstep)
  | closeLink cause lostPaneIds => exact .inr (h.closeLink hstep)

/-- **The reports stay in order, however the calls, the connect and the link interleave.** -/
theorem ReportsOk.run {world reached : LinkWorld} {actions : List LinkAction} (hcalls : CallsOk world)
    (h : world.connectPhase = .failed ∨ ReportsOk world) (hrun : world.run actions = some reached) :
    reached.connectPhase = .failed ∨ ReportsOk reached := by
  refine (foldlM_invariant (fun world => CallsOk world ∧ (world.connectPhase = .failed ∨ ReportsOk world)) ?_
    ⟨hcalls, h⟩ hrun).2
  rintro earlier action later ⟨hcalls, hfailed | hreports⟩ hstep
  · exact ⟨hcalls.step hstep, .inl (failed_of_step hfailed hstep)⟩
  · exact ⟨hcalls.step hstep, hreports.step hcalls hstep⟩

/-! ### When the link has closed -/

namespace ReportsOk

variable {world : LinkWorld} (h : ReportsOk world) (hlink : world.connectPhase = .connected)
  (hended : world.readerPhase = .ended)

include h hlink hended

theorem count_eq (paneId : PaneUuid) : (listReportedPaneIds world.history).count paneId = countEnds world paneId := by
  have hc := h.counted paneId
  unfold countReports at hc
  rw [hlink, hended] at hc
  exact hc

theorem count_le_one {paneId : PaneUuid}
    (hquiet : paneId ∈ world.requestedPaneIds → ¬ SendsUnlistedEvent world.history paneId) :
    (listReportedPaneIds world.history).count paneId ≤ 1 := by
  rw [h.count_eq hlink hended, countEnds]
  have hmissing := nodup_iff_count_le_one.1 h.missingNodup paneId
  have hlost := nodup_iff_count_le_one.1 h.lostNodup paneId
  by_cases hfo : paneId ∈ world.missingPaneIds
  · have hapart := count_eq_zero_of_not_mem (h.missingApart paneId hfo).2.2
    have hex : paneId ∉ world.exitedPaneIds := by
      rcases h.missingQuiet paneId hfo with hev | hex
      · exact absurd hev (hquiet (h.missingRequested paneId hfo))
      · exact hex.1
    rw [if_neg hex]
    omega
  · have hnone := count_eq_zero_of_not_mem hfo
    by_cases hex : paneId ∈ world.exitedPaneIds
    · have hapart : world.lostPaneIds.count paneId = 0 :=
        count_eq_zero_of_not_mem fun hgone => h.lostApart paneId hgone hex
      rw [if_pos hex]
      omega
    · rw [if_neg hex]
      omega

theorem one_le_count {paneId : PaneUuid}
    (hpa : paneId ∈ world.requestedPaneIds ∨ ∃ callId : Nat, ∃ requestId result,
      world.calls[callId]? = some ⟨.spawn paneId, .returned requestId (.ok result)⟩)
    (hkilled : .killed paneId ∉ world.history) (hrefused : .refusedOutput paneId ∉ world.history) :
    1 ≤ (listReportedPaneIds world.history).count paneId := by
  rw [h.count_eq hlink hended, countEnds]
  by_cases hfo : paneId ∈ world.missingPaneIds
  · have := one_le_count_iff.2 hfo
    omega
  · have htk : IsTaken world paneId := by
      rcases hpa with hasked | hsw
      · refine .inr ⟨?_, hasked, hfo, ?_⟩
        · rw [hlink]
          trivial
        · rw [hlink]
          exact Finset.notMem_empty paneId
      · exact .inl hsw
    have hcz : world.readerPhase.IsClosed := by
      rw [hended]
      trivial
    rcases h.accounted paneId htk with hlive | hgone | hex | hrej | hpending | hkill
    · rw [h.closedLive hcz] at hlive
      exact absurd hlive (Finset.notMem_empty paneId)
    · have := one_le_count_iff.2 hgone
      omega
    · rw [if_pos hex]
      omega
    · exact absurd (h.refused paneId hrej) hrefused
    · rw [hended] at hpending
      exact nomatch hpending
    · exact absurd hkill hkilled

end ReportsOk

end Koshi.Pty
