import Mathlib.Tactic
import Koshi.Daemon.Proof.LinkSink
import Koshi.Pty.OutputCredit

/-!
# The links of the output credit

What holds of the links whatever the panes do: the supervisor serves them in order and writes to the last one it took, a
link that is past its Hello is the one being served and its gate is open, and a link carries one ListPanes, which is
answered before the connect goes on.
-/

namespace Koshi.Pty

open Base Ipc Daemon Koshi.Runtime List Option Function

/-- The gate of the link that is served. -/
def ServeLoop.gate : ServeLoop → Option SupervisorHandshake
  | .reads handshake | .closesEnded handshake _ => some handshake
  | _ => none

/-- The Hello of the current link was answered. -/
def ConnectPhase.IsPastHello : ConnectPhase → Prop
  | .unlinked | .awaitsHello => False
  | _ => True

/-- The current link's ListPanes is on its way or being served. -/
def ListPending (world : CreditWorld) : Prop :=
  .listPanes ∈ world.requestsByLink world.linkCount ∨
    (world.linkState.linkGeneration = world.linkCount ∧
      ∃ handshake endedPaneIds, world.serveLoop = .closesEnded handshake endedPaneIds)

structure LinksOk (world : CreditWorld) : Prop where
  generation : world.linkState.linkGeneration ≤ world.linkCount
  writer : ∀ link, world.linkState.frameWriter = some link → link = world.linkState.linkGeneration
  unsent : ∀ link, world.linkState.linkGeneration < link → world.framesByLink link = []
  version : ∀ protocolVersion, world.linkState.linkProtocolVersion = some protocolVersion →
    protocolVersion = supervisorProtocolVersion
  gateVersion : ∀ handshake protocolVersion, world.serveLoop.gate = some handshake →
    handshake.agreedProtocolVersion = some protocolVersion → protocolVersion = supervisorProtocolVersion
  hellos : ∀ link minimumProtocolVersion maximumProtocolVersion connectionToken,
    .hello minimumProtocolVersion maximumProtocolVersion connectionToken ∈ world.requestsByLink link →
      minimumProtocolVersion = minSupervisorProtocolVersion ∧ maximumProtocolVersion = supervisorProtocolVersion
  greets : world.connectPhase = .awaitsHello → ∀ requestKind ∈ world.requestsByLink world.linkCount,
    ∃ minimumProtocolVersion maximumProtocolVersion connectionToken,
      requestKind = .hello minimumProtocolVersion maximumProtocolVersion connectionToken
  pastHello : (world.connectPhase.IsPastHello ∨
      ∃ protocolVersion, .hello protocolVersion ∈ world.framesByLink world.linkCount) →
    world.linkState.linkGeneration = world.linkCount ∧
      ∀ handshake, world.serveLoop.gate = some handshake → handshake.agreedProtocolVersion ≠ none
  closed : world.connectPhase = .unlinked → world.isLinkClosed = true
  undriven : world.connectPhase ≠ .connected → (∀ paneId, world.ungrantedByteCountByPaneId paneId = none) ∧
    world.outputTurn = none ∧ world.spawningPaneIds = ∅
  lost : world.isLinkClosed = true → ∀ paneId, world.ungrantedByteCountByPaneId paneId = none
  listing : ListPending world → world.connectPhase = .unlinked ∨
    (world.connectPhase = .awaitsPanes ∧ ∀ paneIds, .panes paneIds ∉ world.framesByLink world.linkCount)
  listedOnce : world.linkState.linkGeneration = world.linkCount → ∀ handshake endedPaneIds,
    world.serveLoop = .closesEnded handshake endedPaneIds → .listPanes ∉ world.requestsByLink world.linkCount
  listCount : (world.requestsByLink world.linkCount).count .listPanes ≤ 1
  unlisted : world.connectPhase = .awaitsHello → ∀ paneIds, .panes paneIds ∉ world.framesByLink world.linkCount

namespace LinksOk

open CreditWorld

theorem initial (token : ConnectionToken) : LinksOk (.initial token) where
  generation := Nat.le_refl _
  writer := nofun
  unsent := fun _ _ => rfl
  version := nofun
  gateVersion := nofun
  hellos := nofun
  greets := nofun
  pastHello := by
    rintro (h | ⟨protocolVersion, h⟩)
    · exact h.elim
    · exact nomatch h
  closed := fun _ => rfl
  undriven := fun _ => ⟨fun _ => rfl, rfl, rfl⟩
  lost := fun _ _ => rfl
  listing := by
    rintro (h | ⟨-, hd, ended, h⟩)
    · exact nomatch h
    · exact nomatch h
  listedOnce := nofun
  listCount := Nat.zero_le _
  unlisted := nofun

variable {world : CreditWorld} (h : LinksOk world)

include h

theorem window_known {hd : SupervisorHandshake} (hgate : world.serveLoop.gate = some hd)
    (hp : world.connectPhase.IsPastHello) : hd.agreedProtocolVersion ≠ none :=
  (h.pastHello (.inl hp)).2 hd hgate

theorem narrow {st : LinkState} (hna : world.linkState.Narrows st) : LinksOk { world with linkState := st } := by
  obtain ⟨hgen, hver, -, -, hwtr⟩ := hna
  refine { h with
    generation := ?_
    writer := ?_
    unsent := ?_
    version := ?_
    pastHello := ?_
    listing := ?_
    listedOnce := ?_ }
  · rw [hgen]
    exact h.generation
  · intro lk hlr
    rw [hgen]
    exact h.writer lk (hwtr hlr)
  · rw [hgen]
    exact h.unsent
  · rw [hver]
    exact h.version
  · rw [hgen]
    exact h.pastHello
  · rw [ListPending, hgen]
    exact h.listing
  · rw [hgen]
    exact h.listedOnce

theorem keepLink (st : LinkState) (hgen : st.linkGeneration = world.linkState.linkGeneration)
    (hwtr : st.frameWriter = world.linkState.frameWriter)
    (hver : ∀ protocolVersion, st.linkProtocolVersion = some protocolVersion →
      protocolVersion = supervisorProtocolVersion) : LinksOk { world with linkState := st } := by
  refine { h with
    generation := ?_
    writer := ?_
    unsent := ?_
    version := hver
    pastHello := ?_
    listing := ?_
    listedOnce := ?_ }
  · rw [hgen]
    exact h.generation
  · rw [hgen, hwtr]
    exact h.writer
  · rw [hgen]
    exact h.unsent
  · rw [hgen]
    exact h.pastHello
  · rw [ListPending, hgen]
    exact h.listing
  · rw [hgen]
    exact h.listedOnce

/-- The loop goes on: its gate is open, or as it was, and it closes no ended panes. -/
theorem turnTo {serveLoop : ServeLoop} (hgate : ∀ hd, serveLoop.gate = some hd →
      (∀ version, hd.agreedProtocolVersion = some version → version = supervisorProtocolVersion) ∧
      (hd.agreedProtocolVersion = none → world.serveLoop.gate = some hd))
    (hcl : ∀ hd ended, serveLoop ≠ .closesEnded hd ended) :
    LinksOk { world with serveLoop } :=
  { h with
    gateVersion := fun hd version hloop => (hgate hd hloop).1 version
    pastHello := fun hpast => by
      obtain ⟨hgen, hop⟩ := h.pastHello hpast
      refine ⟨hgen, fun hd hloop hnone => ?_⟩
      exact hop hd ((hgate hd hloop).2 hnone) hnone
    listing := by
      rintro (hreq | ⟨-, hd, ended, hloop⟩)
      · exact h.listing (.inl hreq)
      · exact absurd hloop (hcl hd ended)
    listedOnce := fun _ hd ended hloop => absurd hloop (hcl hd ended) }

theorem appendFrame (fr : SupervisorFrame) {lk : Nat} (hnum : world.linkState.frameWriter = some lk)
    (hhello : ∀ version, fr = .hello version → ∀ hd, world.serveLoop.gate = some hd → hd.agreedProtocolVersion ≠ none)
    (hpanes : ∀ ps, fr = .panes ps → world.linkState.linkGeneration = world.linkCount →
      ¬ ListPending world ∧ world.connectPhase ≠ .awaitsHello) :
    LinksOk (world.appendFrame lk fr) := by
  have hgen := h.writer lk hnum
  have hframes : ∀ m, (world.appendFrame lk fr).framesByLink m =
      if m = lk then world.framesByLink lk ++ [fr] else world.framesByLink m := by
    intro m
    show update world.framesByLink lk _ m = _
    rw [update_apply]
  have hm : ∀ {other}, other ∈ (world.appendFrame lk fr).framesByLink world.linkCount →
      other ∈ world.framesByLink world.linkCount ∨ (other = fr ∧ world.linkState.linkGeneration = world.linkCount) := by
    intro other ho
    rw [hframes] at ho
    split_ifs at ho with heq
    · rcases mem_append.1 ho with ho | ho
      · exact .inl (heq ▸ ho)
      · exact .inr ⟨mem_singleton.1 ho, hgen.symm.trans heq.symm⟩
    · exact .inl ho
  refine { h with
    unsent := ?_
    pastHello := ?_
    listing := ?_
    unlisted := ?_ }
  · intro m ho
    rw [hframes, if_neg (by have : world.linkState.linkGeneration < m := ho; omega)]
    exact h.unsent m ho
  · rintro (hpast | ⟨version, ho⟩)
    · exact h.pastHello (.inl hpast)
    · rcases hm ho with ho | ⟨ho, hcur⟩
      · exact h.pastHello (.inr ⟨version, ho⟩)
      · exact ⟨hcur, hhello version ho.symm⟩
  · intro hpending
    rcases h.listing hpending with hp | ⟨hp, hnone⟩
    · exact .inl hp
    · refine .inr ⟨hp, fun ps ho => ?_⟩
      rcases hm ho with ho | ⟨ho, hcur⟩
      · exact hnone ps ho
      · exact (hpanes ps ho.symm hcur).1 hpending
  · intro hp ps ho
    rcases hm ho with ho | ⟨ho, hcur⟩
    · exact h.unlisted hp ps ho
    · exact (hpanes ps ho.symm hcur).2 hp

end LinksOk

theorem CreditWorld.writeAnswer_cases (world : CreditWorld) (fr : SupervisorFrame) (wr : Bool) (serveLoop : ServeLoop) :
    (∃ lk, world.linkState.frameWriter = some lk ∧
      world.writeAnswer fr wr serveLoop = { world.appendFrame lk fr with serveLoop }) ∨
      ∃ st, world.linkState.Narrows st ∧ st.outputCreditByPaneId = world.linkState.outputCreditByPaneId ∧
        st.endedPaneIds = world.linkState.endedPaneIds ∧
        world.writeAnswer fr wr serveLoop = { world with linkState := st, serveLoop := .leaves false } := by
  unfold CreditWorld.writeAnswer
  split
  · next lk hwtr =>
    split
    · exact .inl ⟨lk, hwtr, rfl⟩
    · exact .inr ⟨_, world.linkState.narrows_dropWriter, rfl, rfl, rfl⟩
  · exact .inr ⟨_, .refl world.linkState, rfl, rfl, rfl⟩

namespace LinksOk

open CreditWorld

variable {world : CreditWorld} (h : LinksOk world)

variable {wr : Bool} {requestKind : SupervisorRequestKind} {paneId : PaneUuid} {after : CreditWorld}

include h

theorem writeAnswer {fr : SupervisorFrame} {serveLoop : ServeLoop}
    (hgate : ∀ hd, serveLoop.gate = some hd →
      (∀ version, hd.agreedProtocolVersion = some version → version = supervisorProtocolVersion) ∧
      (hd.agreedProtocolVersion = none → world.serveLoop.gate = some hd))
    (hcl : ∀ hd ended, serveLoop ≠ .closesEnded hd ended)
    (hhello : ∀ version, fr = .hello version → ∀ hd, serveLoop.gate = some hd → hd.agreedProtocolVersion ≠ none)
    (hpanes : ∀ ps, fr = .panes ps → ∃ hd ended, world.serveLoop = .closesEnded hd ended) :
    LinksOk (world.writeAnswer fr wr serveLoop) := by
  have hturned := h.turnTo hgate hcl
  rcases world.writeAnswer_cases fr wr serveLoop with ⟨lk, hwtr, heq⟩ | ⟨st, hna, -, -, heq⟩
  · rw [heq]
    refine hturned.appendFrame _ hwtr hhello fun ps hfrm hcur => ?_
    obtain ⟨hd, ended, hloop⟩ := hpanes ps hfrm
    have hreq := h.listedOnce hcur hd ended hloop
    refine ⟨?_, fun hp => ?_⟩
    · rintro (ho | ⟨-, other, otherPaneIds, ho⟩)
      · exact hreq ho
      · exact hcl other otherPaneIds ho
    · rcases h.listing (.inr ⟨hcur, hd, ended, hloop⟩) with ho | ⟨ho, -⟩
      · exact nomatch ho.symm.trans hp
      · exact nomatch ho.symm.trans hp
  · rw [heq]
    exact (h.narrow hna).turnTo nofun nofun

theorem popRequest {requestKinds : List SupervisorRequestKind}
    (hrequests : world.requestsByLink world.linkState.linkGeneration = requestKind :: requestKinds)
    (hloop : ∀ hd ended, world.serveLoop ≠ .closesEnded hd ended) :
    LinksOk { world with
      requestsByLink := update world.requestsByLink world.linkState.linkGeneration requestKinds } := by
  have hsub : ∀ lk, (update world.requestsByLink world.linkState.linkGeneration requestKinds
      lk).Sublist (world.requestsByLink lk) := by
    intro lk
    rw [update_apply]
    split_ifs with heq
    · rw [heq, hrequests]
      exact sublist_cons_self _ _
    · exact List.Sublist.refl _
  refine { h with
    hellos := ?_
    greets := ?_
    listing := ?_
    listedOnce := ?_
    listCount := ?_ }
  · exact fun lk minimum maximum token hm => h.hellos lk minimum maximum token ((hsub lk).mem hm)
  · exact fun hp kind hm => h.greets hp kind ((hsub _).mem hm)
  · rintro (hm | ho)
    · exact h.listing (.inl ((hsub _).mem hm))
    · exact h.listing (.inr ho)
  · exact fun _ hd ended ho => absurd ho (hloop hd ended)
  · exact ((hsub _).count_le _).trans h.listCount

/-- The session server writes a request that is neither a Hello nor a ListPanes, past its Hello. -/
theorem sendRequest (hp : world.connectPhase ≠ .awaitsHello)
    (hhello : ∀ minimum maximum token, requestKind ≠ .hello minimum maximum token) (hlist : requestKind ≠ .listPanes) :
    LinksOk (world.sendRequest requestKind wr) := by
  unfold CreditWorld.sendRequest
  split
  · have hm : ∀ {lk kind}, kind ∈ update world.requestsByLink world.linkCount
        (world.requestsByLink world.linkCount ++ [requestKind]) lk →
        kind ∈ world.requestsByLink lk ∨ kind = requestKind := by
      intro lk kind hki
      rw [update_apply] at hki
      split_ifs at hki with heq
      · rcases mem_append.1 hki with hki | hki
        · exact .inl (heq ▸ hki)
        · exact .inr (mem_singleton.1 hki)
      · exact .inl hki
    refine { h with
    hellos := ?_
    greets := ?_
    listing := ?_
    listedOnce := ?_
    listCount := ?_ }
    · intro lk minimum maximum token hki
      rcases hm hki with hki | hki
      · exact h.hellos lk minimum maximum token hki
      · exact absurd hki.symm (hhello minimum maximum token)
    · exact fun ho => absurd ho hp
    · rintro (hki | ho)
      · rcases hm hki with hki | hki
        · exact h.listing (.inl hki)
        · exact absurd hki.symm hlist
      · exact h.listing (.inr ho)
    · intro hcur hd ended hloop hki
      rcases hm hki with hki | hki
      · exact h.listedOnce hcur hd ended hloop hki
      · exact hlist hki.symm
    · show (update world.requestsByLink world.linkCount _ world.linkCount).count _ ≤ 1
      rw [update_self, count_append, count_singleton, if_neg (by simpa using hlist)]
      exact h.listCount
  · exact h

omit h in
theorem gate_of_validate (h : LinksOk world) {hd nextHandshake : SupervisorHandshake} {lk : Nat}
    (hgate : world.serveLoop.gate = some hd) (hreq : requestKind ∈ world.requestsByLink lk)
    (hv : hd.validateRequestKind requestKind = .ok nextHandshake) :
    (∀ version, nextHandshake.agreedProtocolVersion = some version →
        version = supervisorProtocolVersion) ∧ nextHandshake.agreedProtocolVersion ≠ none := by
  have hpl : ∀ kindName, (hd.validateNonHelloRequestKind kindName).map (fun _ => hd) =
      .ok nextHandshake → (∀ version, nextHandshake.agreedProtocolVersion = some version →
        version = supervisorProtocolVersion) ∧ nextHandshake.agreedProtocolVersion ≠ none := by
    intro kindName hmap
    rw [VersionGate.validateNonHelloRequestKind] at hmap
    split at hmap
    · next hop =>
      cases hmap
      exact ⟨fun version => h.gateVersion hd version hgate, isSome_iff_ne_none.1 hop⟩
    · cases hmap
  cases requestKind with
  | hello minimumProtocolVersion maximumProtocolVersion token =>
    obtain ⟨rfl, rfl⟩ := h.hellos lk _ _ _ hreq
    simp only [SupervisorHandshake.validateRequestKind, VersionGate.validateHello,
      VersionGate.negotiateProtocolVersion, computeAgreedProtocolVersion] at hv
    rw [if_pos (by decide)] at hv
    cases htoken : hd.validateConnectionToken token with
    | error refusal => rw [htoken] at hv; cases hv
    | ok accepted =>
      rw [htoken] at hv
      cases hv
      exact ⟨fun version hver => (Option.some.inj hver).symm, some_ne_none _⟩
  | unknown variantName => cases hv
  | _ => exact hpl _ hv

theorem startSend {phase : ReaderPhase} (hstep : world.startSend paneId phase = some after) : LinksOk after := by
  unfold CreditWorld.startSend at hstep
  split at hstep
  · cases hstep
    exact { h with }
  · cases hstep

theorem sendOutput (paneId : PaneUuid) (unsentOutBytes : List UInt8) (wr : Bool) :
    LinksOk (world.sendOutput paneId unsentOutBytes wr) := by
  unfold CreditWorld.sendOutput
  split
  · exact { h with }
  · split
    · exact { h with }
    · next hwant =>
      have hna := world.linkState.narrows_writePart paneId unsentOutBytes wr
      split
      · next sentByteCount lk fr st hwr =>
        rw [hwr] at hna
        obtain ⟨hcarries, -⟩ := LinkState.writeOutputPart_wrote (fun hcl => hwant (.inr hcl)) (congrArg Prod.fst hwr)
        have hli := (h.appendFrame (.pane fr) hcarries.frameWriter nofun nofun).narrow hna
        exact { hli with }
      · next st hwr =>
        rw [hwr] at hna
        exact h.narrow hna

theorem continueReader (hstep : world.continueReader paneId wr = some after) : LinksOk after := by
  unfold CreditWorld.continueReader at hstep
  split at hstep
  · cases hstep
    exact h.sendOutput paneId _ wr
  · next exitStatus _ =>
    have hna := world.linkState.narrows_sendEvent paneId (.exited paneId exitStatus) wr
    split at hstep
    · next st hsend =>
      rw [hsend] at hna
      cases hstep
      exact { h.narrow hna with }
    · next lk fr st hsend =>
      rw [hsend] at hna
      cases hstep
      obtain ⟨hcarries, -⟩ := LinkState.sendEvent_wrote (congrArg Prod.fst hsend)
      have hli := (h.appendFrame (.pane fr) hcarries.frameWriter nofun nofun).narrow hna
      exact { hli with }
    · next st hsend =>
      rw [hsend] at hna
      cases hstep
      exact h.narrow hna
  · cases hstep
    exact { h.narrow (world.linkState.narrows_recordEndedPane paneId) with }
  · cases hstep

theorem acceptLink (hstep : world.acceptLink = some after) : LinksOk after := by
  unfold CreditWorld.acceptLink at hstep
  split at hstep
  · next hidle =>
    split at hstep
    · next hc =>
      cases hstep
      have hstale : ¬ (world.connectPhase.IsPastHello ∨
          ∃ protocolVersion, .hello protocolVersion ∈ world.framesByLink world.linkCount) := by
        intro hpast
        have := (h.pastHello hpast).1
        omega
      refine { h with
        generation := hc
        writer := fun lk hwtr => (Option.some.inj hwtr).symm
        unsent := fun lk hlr => h.unsent lk (Nat.lt_of_succ_lt hlr)
        version := nofun
        gateVersion := ?_
        pastHello := fun hpast => absurd hpast hstale
        listing := ?_
        listedOnce := nofun }
      · intro hd protocolVersion hgate hver
        cases Option.some.inj hgate
        cases hver
      · rintro (hreq | ⟨-, hd, ended, hloop⟩)
        · exact h.listing (.inl hreq)
        · cases hloop
    · cases hstep
  · cases hstep

theorem serveAccepted {hd : SupervisorHandshake} {isSpawned : Bool} {ended : List PaneUuid}
    (hop : (∀ version, hd.agreedProtocolVersion = some version →
      version = supervisorProtocolVersion) ∧ hd.agreedProtocolVersion ≠ none)
    (hlist : requestKind = .listPanes → world.linkState.linkGeneration = world.linkCount →
      .listPanes ∉ world.requestsByLink world.linkCount ∧ (world.connectPhase = .unlinked ∨
        (world.connectPhase = .awaitsPanes ∧ ∀ ps, .panes ps ∉ world.framesByLink world.linkCount)))
    (hstep : world.serveAccepted hd requestKind isSpawned ended wr = some after) :
    LinksOk after := by
  have hgate : ∀ other, (ServeLoop.reads hd).gate = some other →
      (∀ version, other.agreedProtocolVersion = some version → version = supervisorProtocolVersion) ∧
      (other.agreedProtocolVersion = none → world.serveLoop.gate = some other) := by
    intro other ho
    cases Option.some.inj ho
    exact ⟨hop.1, fun hnone => absurd hnone hop.2⟩
  have hcl : ∀ other ended, ServeLoop.reads hd ≠ .closesEnded other ended :=
    nofun
  have hhello : ∀ other, (ServeLoop.reads hd).gate = some other → other.agreedProtocolVersion ≠ none := by
    intro other ho
    cases Option.some.inj ho
    exact hop.2
  -- the answer to anything but a Hello, on a world that differs in its link's flags alone
  have ho : ∀ {otherWorld : CreditWorld} {fr}, LinksOk otherWorld → otherWorld.serveLoop = world.serveLoop →
      (∀ version, fr ≠ .hello version) → (∀ ps, fr ≠ .panes ps) →
      LinksOk (otherWorld.writeAnswer fr wr (.reads hd)) := by
    intro otherWorld fr hli hloop hfrm hpanes
    refine hli.writeAnswer (by rw [hloop]; exact hgate) hcl ?_ ?_
    · exact fun version heq => absurd heq (hfrm version)
    · exact fun ps heq => absurd heq (hpanes ps)
  unfold CreditWorld.serveAccepted at hstep
  split at hstep
  · split at hstep
    · next version hver =>
      cases hstep
      have hli := h.keepLink (world.linkState.markLinkOpen version) rfl rfl
        fun otherVersion ho => Option.some.inj ho ▸ hop.1 version hver
      exact hli.writeAnswer hgate hcl (fun _ _ => hhello) nofun
    · cases hstep
  · split at hstep
    · cases hstep
      exact ho { h with } rfl nofun nofun
    · cases hstep
      exact ho h rfl nofun nofun
  · cases hstep
    exact { h.turnTo hgate hcl with }
  · split at hstep
    · cases hstep
      refine { h with
        gateVersion := ?_
        pastHello := ?_
        listing := ?_
        listedOnce := ?_ }
      · intro other version ho
        cases Option.some.inj ho
        exact hop.1 version
      · intro hpast
        refine ⟨(h.pastHello hpast).1, fun other ho => ?_⟩
        cases Option.some.inj ho
        exact hop.2
      · rintro (hreq | ⟨hcur, -⟩)
        · exact h.listing (.inl hreq)
        · exact (hlist rfl hcur).2
      · exact fun hcur _ _ _ => (hlist rfl hcur).1
    · cases hstep
  · cases hstep
    exact ho (h.keepLink world.linkState.pauseEventOutput rfl rfl h.version) rfl nofun nofun
  · cases hstep
    exact ho (h.keepLink world.linkState.resumeEventOutput rfl rfl h.version) rfl nofun nofun
  · cases hstep
    exact h.writeAnswer nofun nofun nofun nofun
  · next paneId granted =>
    cases hstep
    exact (h.narrow (world.linkState.narrows_grantOutput paneId granted)).turnTo hgate hcl
  · cases hstep
    exact ho h rfl nofun nofun
  · cases hstep
    exact ho h rfl nofun nofun
  · cases hstep
    exact ho h rfl nofun nofun
  · cases hstep

theorem serveRequest {isSpawned : Bool} {ended : List PaneUuid}
    (hstep : world.serveRequest isSpawned ended wr = some after) : LinksOk after := by
  unfold CreditWorld.serveRequest at hstep
  split at hstep
  · next hd requestKind requestKinds hloop hrequests =>
    have hm : requestKind ∈ world.requestsByLink world.linkState.linkGeneration := by
      rw [hrequests]
      exact mem_cons_self
    have hgate : world.serveLoop.gate = some hd := by rw [hloop]; rfl
    have hpopped := h.popRequest hrequests fun _ _ ho => nomatch hloop.symm.trans ho
    dsimp only at hstep
    split at hstep
    · next nextHandshake hv =>
      refine hpopped.serveAccepted (h.gate_of_validate hgate hm hv) ?_ hstep
      intro hki hcur
      have hcur : world.linkState.linkGeneration = world.linkCount := hcur
      have hc := h.listCount
      rw [← hcur, hrequests, hki, count_cons_self] at hc
      refine ⟨?_, h.listing (.inl ?_)⟩
      · show .listPanes ∉ update world.requestsByLink world.linkState.linkGeneration requestKinds world.linkCount
        rw [hcur, update_self]
        exact count_eq_zero.1 (by omega)
      · rw [← hcur, ← hki]
        exact hm
    · split at hstep
      · cases hstep
        exact hpopped
      · cases hstep
        refine hpopped.writeAnswer ?_ nofun nofun nofun
        intro other ho
        cases Option.some.inj ho
        exact ⟨fun version => h.gateVersion hd version hgate, fun _ => hgate⟩
  · cases hstep

theorem closeEndedPane (hstep : world.closeEndedPane = some after) : LinksOk after := by
  unfold CreditWorld.closeEndedPane at hstep
  split at hstep
  · next hd paneId ended hloop =>
    cases hstep
    have hgate : world.serveLoop.gate = some hd := by rw [hloop]; rfl
    refine { h with
      gateVersion := ?_
      pastHello := ?_
      listing := ?_
      listedOnce := fun hcur _ _ _ => h.listedOnce hcur _ _ hloop }
    · intro other version ho
      cases Option.some.inj ho
      exact h.gateVersion hd version hgate
    · intro hpast
      refine ⟨(h.pastHello hpast).1, fun other ho => ?_⟩
      cases Option.some.inj ho
      exact (h.pastHello hpast).2 hd hgate
    · rintro (hreq | ⟨hcur, -⟩)
      · exact h.listing (.inl hreq)
      · exact h.listing (.inr ⟨hcur, _, _, hloop⟩)
  · cases hstep

theorem answerPanes {ps : List PaneUuid} (hstep : world.answerPanes ps wr = some after) : LinksOk after := by
  unfold CreditWorld.answerPanes at hstep
  split at hstep
  · next hd hloop =>
    split at hstep
    · cases hstep
      refine h.writeAnswer ?_ nofun nofun fun _ _ => ⟨_, _, hloop⟩
      intro other ho
      cases Option.some.inj ho
      have hgate : world.serveLoop.gate = some hd := by rw [hloop]; rfl
      exact ⟨fun version => h.gateVersion hd version hgate, fun _ => hgate⟩
    · cases hstep
  · cases hstep

theorem clearLink {serveLoop : ServeLoop} (hgate : serveLoop.gate = none) :
    LinksOk { world with linkState := world.linkState.clearLink, serveLoop } :=
  { h with
    writer := nofun
    version := nofun
    gateVersion := fun _ _ ho => by rw [hgate] at ho; cases ho
    pastHello := fun hpast => ⟨(h.pastHello hpast).1, fun _ ho => by rw [hgate] at ho; cases ho⟩
    listing := by
      rintro (hreq | ⟨-, hd, ended, hloop⟩)
      · exact h.listing (.inl hreq)
      · rw [show serveLoop = _ from hloop] at hgate
        cases hgate
    listedOnce := fun _ _ _ hloop => by rw [show serveLoop = _ from hloop] at hgate; cases hgate }

theorem dropLink (hstep : world.dropLink = some after) : LinksOk after := by
  unfold CreditWorld.dropLink at hstep
  split at hstep
  · cases hstep
    exact h.clearLink rfl
  · cases hstep
    exact h.clearLink rfl
  · cases hstep
    exact h.clearLink rfl
  · cases hstep

theorem continueKill {killIndex : Nat} (hstep : world.continueKill killIndex = some after) : LinksOk after := by
  unfold CreditWorld.continueKill at hstep
  split at hstep
  · cases hstep
    exact { h.keepLink (world.linkState.markPaneClosing _) rfl rfl h.version with }
  · cases hstep
    exact { h.keepLink (world.linkState.removeEndedPane _) rfl rfl h.version with }
  · cases hstep

theorem startConnect (hstep : world.startConnect = some after) : LinksOk after := by
  unfold CreditWorld.startConnect at hstep
  split at hstep
  · next hp =>
    cases hstep
    have hnew : world.framesByLink (world.linkCount + 1) = [] := h.unsent _ (Nat.lt_succ_of_le h.generation)
    have hrequests : update world.requestsByLink (world.linkCount + 1)
        [.hello minSupervisorProtocolVersion supervisorProtocolVersion world.connectionToken] (world.linkCount + 1) =
        [.hello minSupervisorProtocolVersion supervisorProtocolVersion world.connectionToken] := update_self ..
    have hun := h.undriven (by rw [hp]; exact nofun)
    refine { h with
      generation := Nat.le_succ_of_le h.generation
      hellos := ?_
      greets := ?_
      pastHello := ?_
      closed := nofun
      undriven := fun _ => hun
      lost := nofun
      listing := ?_
      listedOnce := ?_
      listCount := ?_
      unlisted := ?_ }
    · intro lk minimum maximum token hm
      replace hm : _ ∈ update world.requestsByLink (world.linkCount + 1) _ lk := hm
      rw [update_apply] at hm
      split_ifs at hm
      · rw [mem_singleton] at hm
        cases hm
        exact ⟨rfl, rfl⟩
      · exact h.hellos lk minimum maximum token hm
    · intro _ requestKind hm
      replace hm : requestKind ∈ update world.requestsByLink (world.linkCount + 1) _ (world.linkCount + 1) :=
        hm
      rw [hrequests, mem_singleton] at hm
      exact ⟨_, _, _, hm⟩
    · rintro (ho | ⟨version, hm⟩)
      · exact ho.elim
      · rw [hnew] at hm
        cases hm
    · rintro (hm | ⟨hcur, -⟩)
      · replace hm : _ ∈ update world.requestsByLink (world.linkCount + 1) _ (world.linkCount + 1) := hm
        rw [hrequests, mem_singleton] at hm
        cases hm
      · have := h.generation
        have : world.linkState.linkGeneration = world.linkCount + 1 := hcur
        omega
    · intro hcur
      have := h.generation
      have : world.linkState.linkGeneration = world.linkCount + 1 := hcur
      omega
    · show (update world.requestsByLink (world.linkCount + 1) _ (world.linkCount + 1)).count _ ≤ 1
      rw [hrequests]
      exact Nat.zero_le 1
    · intro _ ps hm
      rw [hnew] at hm
      cases hm
  · cases hstep

theorem turnConnect {connectPhase : ConnectPhase} (hp : world.connectPhase.IsPastHello)
    (hn : connectPhase ≠ .unlinked ∧ connectPhase ≠ .awaitsHello) (hpending : ¬ ListPending world)
    (hdr : connectPhase ≠ .connected → world.connectPhase ≠ .connected) :
    LinksOk { world with connectPhase } :=
  { h with
    greets := fun ho => absurd ho hn.2
    pastHello := fun _ => h.pastHello (.inl hp)
    closed := fun ho => absurd ho hn.1
    undriven := fun ho => h.undriven (hdr ho)
    listing := fun ho => absurd ho hpending
    unlisted := fun ho => absurd ho hn.2 }

theorem not_listPending (hp : world.connectPhase ≠ .unlinked) (ho : world.connectPhase ≠ .awaitsPanes) :
    ¬ ListPending world := by
  intro hpending
  rcases h.listing hpending with hunlinked | ⟨hawaits, -⟩
  · exact hp hunlinked
  · exact ho hawaits

theorem failConnect (hstep : world.failConnect = some after) : LinksOk after := by
  unfold CreditWorld.failConnect at hstep
  split at hstep
  · cases hstep
  · next hp =>
    cases hstep
    have hun := h.undriven fun ho => hp (.inr ho)
    exact { h with
      greets := nofun
      pastHello := fun hpast => hpast.elim (fun ho => ho.elim) fun hm => h.pastHello (.inr hm)
      closed := fun _ => rfl
      undriven := fun _ => hun
      lost := fun _ => hun.1
      listing := fun _ => .inl rfl
      unlisted := nofun }

theorem pushPaneEvent (paneId : PaneUuid) (ev : PaneEvent) (fresh : Bool) :
    LinksOk (world.pushPaneEvent paneId ev fresh) := by
  unfold CreditWorld.pushPaneEvent
  dsimp only
  split
  · exact h
  · split
    · exact { h with }
    · split
      · exact { h with }
      · exact h

theorem receivePaneFrame (fr : LinkFrame) (fresh : Bool) : LinksOk (world.receivePaneFrame fr fresh) := by
  unfold CreditWorld.receivePaneFrame
  split
  · exact h.pushPaneEvent _ _ _
  · next paneId exitStatus _ =>
    have hex : LinksOk { world with exitedPaneIds := insert paneId world.exitedPaneIds } := { h with }
    exact hex.pushPaneEvent _ _ _
  · exact h

theorem takeFrames (lk : Nat) (frames : List SupervisorFrame) (hsub : ∀ fr ∈ frames, fr ∈ world.framesByLink lk) :
    LinksOk { world with framesByLink := update world.framesByLink lk frames } := by
  have hm : ∀ {m fr}, fr ∈ update world.framesByLink lk frames m → fr ∈ world.framesByLink m := by
    intro m fr hfrm
    rw [update_apply] at hfrm
    split_ifs at hfrm with heq
    · rw [heq]
      exact hsub fr hfrm
    · exact hfrm
  refine { h with
    unsent := ?_
    pastHello := ?_
    listing := ?_
    unlisted := fun hp ps hfrm => h.unlisted hp ps (hm hfrm) }
  · intro m hlr
    refine eq_nil_iff_forall_not_mem.2 fun fr hfrm => ?_
    have := hm hfrm
    rw [h.unsent m hlr] at this
    cases this
  · rintro (hpast | ⟨version, hfrm⟩)
    · exact h.pastHello (.inl hpast)
    · exact h.pastHello (.inr ⟨version, hm hfrm⟩)
  · intro hpending
    rcases h.listing hpending with hp | ⟨hp, hnone⟩
    · exact .inl hp
    · exact .inr ⟨hp, fun ps hfrm => hnone ps (hm hfrm)⟩

theorem readFrame {fresh : Bool} (hstep : world.readFrame fresh = some after) : LinksOk after := by
  unfold CreditWorld.readFrame at hstep
  split at hstep
  · next fr frames hcz hframes =>
    have hhead : fr ∈ world.framesByLink world.linkCount := by
      rw [hframes]
      exact mem_cons_self
    have htk := h.takeFrames world.linkCount frames fun other ho => by
      rw [hframes]
      exact mem_cons_of_mem fr ho
    dsimp only at hstep
    split at hstep
    · cases hstep
      exact htk.receivePaneFrame _ _
    · next version =>
      split at hstep
      · next hp =>
        cases hstep
        have hpast := h.pastHello (.inr ⟨version, hhead⟩)
        have hpending : ¬ ListPending world := by
          intro hpending
          rcases h.listing hpending with ho | ⟨ho, -⟩
          · exact nomatch ho.symm.trans hp
          · exact nomatch ho.symm.trans hp
        have hnone : .listPanes ∉ world.requestsByLink world.linkCount := fun hm => hpending (.inl hm)
        have hun := h.undriven fun ho => nomatch hp.symm.trans ho
        unfold CreditWorld.sendRequest
        rw [if_pos ⟨hcz, rfl⟩]
        refine { htk with
          hellos := ?_
          greets := nofun
          pastHello := fun _ => hpast
          closed := nofun
          undriven := fun _ => hun
          listing := ?_
          listedOnce := ?_
          listCount := ?_
          unlisted := nofun }
        · intro lk minimum maximum token hm
          replace hm : _ ∈ update world.requestsByLink world.linkCount _ lk := hm
          rw [update_apply] at hm
          split_ifs at hm with heq
          · rcases mem_append.1 hm with hm | hm
            · exact h.hellos _ minimum maximum token hm
            · cases mem_singleton.1 hm
          · exact h.hellos lk minimum maximum token hm
        · exact fun _ => .inr ⟨rfl, htk.unlisted hp⟩
        · exact fun hcur hd ended hloop =>
            absurd (.inr ⟨hcur, hd, ended, hloop⟩) hpending
        · show (update world.requestsByLink world.linkCount _ world.linkCount).count _ ≤ 1
          rw [update_self, count_append, count_eq_zero.2 hnone]
          decide
      · cases hstep
        exact htk
    · next ps =>
      split at hstep
      · next hp =>
        cases hstep
        refine htk.turnConnect (by rw [hp]; trivial) ⟨nofun, nofun⟩ ?_ fun _ => by rw [hp]; exact nofun
        intro hpending
        rcases h.listing hpending with ho | ⟨-, hnone⟩
        · exact nomatch ho.symm.trans hp
        · exact hnone ps hhead
      · cases hstep
        exact htk
    · cases hstep
      exact { htk with }
    · cases hstep
      exact htk
  · cases hstep

theorem readEarlierFrame {lk : Nat} {fresh : Bool}
    (hstep : world.readEarlierFrame lk fresh = some after) : LinksOk after := by
  unfold CreditWorld.readEarlierFrame at hstep
  split at hstep
  · next fr frames hframes =>
    have htk := h.takeFrames lk frames fun other ho => by
      rw [hframes]
      exact mem_cons_of_mem _ ho
    split at hstep
    · split at hstep
      · next paneId bytes _ =>
        cases hstep
        have hmd : LinksOk { world with
            framesByLink := update world.framesByLink lk frames
            hasEarlierOutput := update world.hasEarlierOutput paneId true } := { htk with }
        exact hmd.pushPaneEvent _ _ _
      · cases hstep
    · cases hstep
  · cases hstep

theorem killUnrequested (hstep : world.killUnrequested paneId wr = some after) : LinksOk after := by
  unfold CreditWorld.killUnrequested at hstep
  split at hstep
  · next hp =>
    split at hstep
    · cases hstep
      have hsent : LinksOk { world with killSentPaneIds := insert paneId world.killSentPaneIds } := { h with }
      refine hsent.sendRequest ?_ nofun nofun
      exact fun ho => nomatch hp.symm.trans ho
    · cases hstep
  · cases hstep

theorem takeExits (hstep : world.takeExits = some after) : LinksOk after := by
  unfold CreditWorld.takeExits at hstep
  split at hstep
  · next hp =>
    cases hstep
    refine h.turnConnect (by rw [hp]; trivial) ⟨nofun, nofun⟩
      (h.not_listPending ?_ ?_) fun _ ho => nomatch hp.symm.trans ho
    · exact fun ho => nomatch hp.symm.trans ho
    · exact fun ho => nomatch hp.symm.trans ho
  · cases hstep

theorem killExited (hstep : world.killExited paneId wr = some after) : LinksOk after := by
  unfold CreditWorld.killExited at hstep
  split at hstep
  · next hp =>
    split at hstep
    · cases hstep
      have hsent : LinksOk { world with killSentPaneIds := insert paneId world.killSentPaneIds } := { h with }
      refine hsent.sendRequest ?_ nofun nofun
      exact fun ho => nomatch hp.symm.trans ho
    · cases hstep
  · cases hstep

theorem finishConnect (hstep : world.finishConnect = some after) : LinksOk after := by
  unfold CreditWorld.finishConnect at hstep
  split at hstep
  · next hp hcz =>
    cases hstep
    have hturned : LinksOk { world with connectPhase := .connected } := h.turnConnect (by rw [hp]; trivial)
      ⟨nofun, nofun⟩
      (h.not_listPending (fun ho => nomatch hp.symm.trans ho) fun ho => nomatch hp.symm.trans ho)
      fun ho => absurd rfl ho
    exact { hturned with
      undriven := fun ho => absurd rfl ho
      lost := fun ho => nomatch hcz.symm.trans ho }
  · cases hstep

theorem spawnPane (hstep : world.spawnPane paneId wr = some after) : LinksOk after := by
  unfold CreditWorld.spawnPane at hstep
  split at hstep
  · next hguard =>
    cases hstep
    have hli : LinksOk { world with
        usedPaneIds := insert paneId world.usedPaneIds
        spawningPaneIds := insert paneId world.spawningPaneIds } :=
      { h with undriven := fun ho => absurd hguard.1 ho }
    refine hli.sendRequest ?_ nofun nofun
    exact fun ho => nomatch hguard.1.symm.trans ho
  · cases hstep

theorem connected_of_spawning (hsg : paneId ∈ world.spawningPaneIds) : world.connectPhase = .connected := by
  by_contra ho
  rw [(h.undriven ho).2.2] at hsg
  exact absurd hsg (Finset.notMem_empty paneId)

theorem connected_of_driven (hdr : world.ungrantedByteCountByPaneId paneId ≠ none) :
    world.connectPhase = .connected := by
  by_contra ho
  exact hdr ((h.undriven ho).1 paneId)

theorem finishSpawn (hstep : world.finishSpawn paneId = some after) : LinksOk after := by
  unfold CreditWorld.finishSpawn at hstep
  split at hstep
  · next hguard =>
    have hp := h.connected_of_spawning hguard.1
    dsimp only at hstep
    split at hstep
    · cases hstep
      exact { h with undriven := fun ho => absurd hp ho }
    · next hcz =>
      cases hstep
      exact { h with
        undriven := fun ho => absurd hp ho
        lost := fun ho => absurd ho hcz }
  · cases hstep

theorem killPane (hstep : world.killPane paneId wr = some after) : LinksOk after := by
  unfold CreditWorld.killPane at hstep
  split at hstep
  · cases hstep
  · next ungranted hdr =>
    cases hstep
    have hbook : world.ungrantedByteCountByPaneId paneId ≠ none := by
      rw [hdr]
      exact some_ne_none _
    have hp := h.connected_of_driven hbook
    have hli : LinksOk { world with
        ungrantedByteCountByPaneId := update world.ungrantedByteCountByPaneId paneId none
        killSentPaneIds := insert paneId world.killSentPaneIds } :=
      { h with
        undriven := fun ho => absurd hp ho
        lost := fun hcz => by rw [h.lost hcz paneId] at hdr; cases hdr }
    refine hli.sendRequest ?_ nofun nofun
    exact fun ho => nomatch hp.symm.trans ho

theorem takeTurn (hstep : world.takeTurn paneId = some after) : LinksOk after := by
  unfold CreditWorld.takeTurn at hstep
  split at hstep
  · next hguard =>
    cases hstep
    exact { h with undriven := fun ho => absurd hguard.2.1 ho }
  · cases hstep

theorem connected_of_turn {outTurn : OutputTurn} (hturn : world.outputTurn = some outTurn) :
    world.connectPhase = .connected := by
  by_contra ho
  rw [(h.undriven ho).2.1] at hturn
  cases hturn

theorem reportTurn (hstep : world.reportTurn = some after) : LinksOk after := by
  unfold CreditWorld.reportTurn at hstep
  split at hstep
  · next paneId parsedByteCount hturn =>
    have hp := h.connected_of_turn hturn
    split at hstep
    · cases hstep
      exact { h with undriven := fun ho => absurd hp ho }
    · next ungranted hdr =>
      have hcz : world.isLinkClosed ≠ true := by
        intro hcz
        rw [h.lost hcz paneId] at hdr
        cases hdr
      split at hstep
      · cases hstep
        exact { h with
          undriven := fun ho => absurd hp ho
          lost := fun ho => absurd ho hcz }
      · cases hstep
        exact { h with
          undriven := fun ho => absurd hp ho
          lost := fun ho => absurd ho hcz }
  · cases hstep

theorem writeGrant (hstep : world.writeGrant wr = some after) : LinksOk after := by
  unfold CreditWorld.writeGrant at hstep
  split at hstep
  · next paneId granted hturn =>
    have hp := h.connected_of_turn hturn
    have hli : LinksOk { world with outputTurn := none } := { h with undriven := fun ho => absurd hp ho }
    dsimp only at hstep
    split at hstep
    · cases hstep
      refine hli.sendRequest ?_ nofun nofun
      exact fun ho => nomatch hp.symm.trans ho
    · cases hstep
      exact { hli with }
  · cases hstep

theorem loseLink (hstep : world.loseLink = some after) : LinksOk after := by
  unfold CreditWorld.loseLink at hstep
  split at hstep
  · cases hstep
  · cases hstep
    exact { h with
      closed := fun _ => rfl
      undriven := fun ho => ⟨fun _ => rfl, (h.undriven ho).2⟩
      lost := fun _ _ => rfl }

theorem replaceImage {carriedPaneIds : Finset PaneUuid}
    (hstep : world.replaceImage carriedPaneIds = some after) : LinksOk after := by
  unfold CreditWorld.replaceImage at hstep
  split at hstep
  · cases hstep
    exact { h with
      greets := nofun
      pastHello := fun hpast => hpast.elim (fun ho => ho.elim) fun hm => h.pastHello (.inr hm)
      closed := fun _ => rfl
      undriven := fun _ => ⟨fun _ => rfl, rfl, rfl⟩
      lost := fun _ _ => rfl
      listing := fun _ => .inl rfl
      unlisted := nofun }
  · cases hstep

/-- **One step** keeps what holds of the links. -/
theorem step {action : CreditAction} (hstep : world.step action = some after) : LinksOk after := by
  cases action with
  | printOutput paneId bytes => exact h.startSend hstep
  | printExit paneId exitStatus => exact h.startSend hstep
  | continueReader paneId wr => exact h.continueReader hstep
  | acceptLink => exact h.acceptLink hstep
  | serveRequest isSpawned endedPaneIds wr => exact h.serveRequest hstep
  | closeEndedPane => exact h.closeEndedPane hstep
  | answerPanes ps wr => exact h.answerPanes hstep
  | dropLink => exact h.dropLink hstep
  | continueKill killIndex => exact h.continueKill hstep
  | startConnect => exact h.startConnect hstep
  | failConnect => exact h.failConnect hstep
  | readFrame fresh => exact h.readFrame hstep
  | readEarlierFrame lk fresh => exact h.readEarlierFrame hstep
  | killUnrequested paneId wr => exact h.killUnrequested hstep
  | takeExits => exact h.takeExits hstep
  | killExited paneId wr => exact h.killExited hstep
  | finishConnect => exact h.finishConnect hstep
  | spawnPane paneId wr => exact h.spawnPane hstep
  | finishSpawn paneId => exact h.finishSpawn hstep
  | killPane paneId wr => exact h.killPane hstep
  | sendOther requestKind wr =>
    simp only [CreditWorld.step] at hstep
    split at hstep
    · next hguard =>
      cases hstep
      refine h.sendRequest ?_ ?_ ?_
      · exact fun ho => nomatch hguard.1.symm.trans ho
      · rintro minimum maximum token rfl
        exact nomatch hguard.2
      · rintro rfl
        exact nomatch hguard.2
    · cases hstep
  | takeTurn paneId => exact h.takeTurn hstep
  | reportTurn => exact h.reportTurn hstep
  | writeGrant wr => exact h.writeGrant hstep
  | closeQueue paneId =>
    cases hstep
    exact { h with }
  | loseLink => exact h.loseLink hstep
  | replaceImage carriedPaneIds => exact h.replaceImage hstep

end LinksOk

end Koshi.Pty
