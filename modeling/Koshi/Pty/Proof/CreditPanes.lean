import Koshi.Daemon.Proof.PtySupervisor
import Koshi.Pty.Proof.CreditLinks

/-!
# The panes of the output credit

Which panes the supervisor may start closing. A pane the session server drives is not one a Kill was ever sent for, and
not one the supervisor closed because its exit had gone out, unless that exit went out on an earlier link: such a pane
prints nothing on this one.
-/

namespace Koshi.Pty

open Base Ipc Daemon Koshi.Runtime List Option Function

open Finset (notMem_empty mem_insert mem_insert_of_mem mem_insert_self mem_of_mem_erase)

/-- The pane's exit went out on an earlier link. -/
def ExitedBefore (world : CreditWorld) (paneId : PaneUuid) : Prop :=
  ∃ link, world.exitLinkByPaneId paneId = some link ∧ link < world.linkCount

/-- The session server drives the pane, or is about to. -/
def IsDriven (world : CreditWorld) (paneId : PaneUuid) : Prop :=
  world.ungrantedByteCountByPaneId paneId ≠ none ∨
    (∃ retainedPaneIds exitedListed, world.connectPhase = .killsExited retainedPaneIds exitedListed ∧
      paneId ∈ retainedPaneIds) ∨ paneId ∈ world.spawningPaneIds

/-- No one closes the pane, or it prints nothing any more. -/
def Stands (world : CreditWorld) (paneId : PaneUuid) : Prop :=
  (paneId ∉ world.killSentPaneIds ∧ paneId ∉ world.linkState.closingPaneIds) ∨ ExitedBefore world paneId

structure PanesOk (world : CreditWorld) : Prop where
  killRuns : ∀ killRun ∈ world.killRuns, killRun.paneId ∈ world.killSentPaneIds
  killRequests : ∀ link paneId, .kill paneId ∈ world.requestsByLink link → paneId ∈ world.killSentPaneIds
  killUsed : ∀ paneId ∈ world.killSentPaneIds, paneId ∈ world.usedPaneIds
  spawnRequests : ∀ link paneId, .spawn paneId ∈ world.requestsByLink link → paneId ∈ world.usedPaneIds
  spawned : ∀ paneId ∈ world.spawnedPaneIds, paneId ∈ world.usedPaneIds
  backend : ∀ paneId ∈ world.backendPaneIds, paneId ∈ world.spawnedPaneIds
  printing : ∀ paneId, world.readerPhaseByPaneId paneId ≠ .reading → paneId ∈ world.spawnedPaneIds
  exited : ∀ paneId link, world.exitLinkByPaneId paneId = some link →
    link ≤ world.linkState.linkGeneration ∧ (world.readerPhaseByPaneId paneId).HasExited
  recorded : ∀ paneId, (world.readerPhaseByPaneId paneId).HasExited → world.exitLinkByPaneId paneId ≠ none
  exitFrames : ∀ link frame paneId status, .pane frame ∈ world.framesByLink link →
    frame.readEvent = some (.exited paneId status) → world.exitLinkByPaneId paneId ≠ none
  exitsRead : ∀ paneId ∈ world.exitedPaneIds, world.exitLinkByPaneId paneId ≠ none
  ended : ∀ paneId ∈ world.linkState.endedPaneIds, world.exitLinkByPaneId paneId ≠ none
  closesEnded : ∀ handshake endedPaneIds, world.serveLoop = .closesEnded handshake endedPaneIds →
    ∀ paneId ∈ endedPaneIds, world.exitLinkByPaneId paneId ≠ none
  closing : ∀ paneId ∈ world.linkState.closingPaneIds, paneId ∈ world.killSentPaneIds ∨
    (world.exitLinkByPaneId paneId ≠ none ∧ paneId ∉ world.backendPaneIds)
  listed : world.connectPhase ≠ .unlinked → ∀ paneIds, (.panes paneIds ∈ world.framesByLink world.linkCount ∨
    world.connectPhase = .killsUnrequested paneIds) → ∀ paneId ∈ paneIds, paneId ∈ world.usedPaneIds ∧
      (paneId ∈ world.linkState.closingPaneIds → paneId ∈ world.killSentPaneIds ∨ ExitedBefore world paneId)
  requestedUsed : ∀ paneId ∈ world.requestedPaneIds, paneId ∈ world.usedPaneIds
  requested : world.connectPhase ≠ .connected → ∀ paneId ∈ world.requestedPaneIds, paneId ∈ world.killSentPaneIds →
    ExitedBefore world paneId ∨ paneId ∈ world.exitedPaneIds
  exitedListed : ∀ retainedPaneIds exitedListedPaneIds,
    world.connectPhase = .killsExited retainedPaneIds exitedListedPaneIds →
      ∀ paneId ∈ exitedListedPaneIds, paneId ∉ retainedPaneIds ∧ paneId ∈ world.exitedPaneIds ∧
        paneId ∈ world.usedPaneIds
  drivenUsed : ∀ paneId, IsDriven world paneId → paneId ∈ world.usedPaneIds
  driven : ∀ paneId, IsDriven world paneId → Stands world paneId
  spawning : ∀ paneId ∈ world.spawningPaneIds, world.ungrantedByteCountByPaneId paneId = none

theorem IsDriven.connected_or {world : CreditWorld} {paneId : PaneUuid} (hli : LinksOk world)
    (h : IsDriven world paneId) : world.connectPhase = .connected ∨
      ∃ retained exitedListed, world.connectPhase = .killsExited retained exitedListed := by
  rcases h with h | ⟨retained, exitedListed, h, -⟩ | h
  · exact .inl (hli.connected_of_driven h)
  · exact .inr ⟨retained, exitedListed, h⟩
  · exact .inl (hli.connected_of_spawning h)

namespace PanesOk

open CreditWorld

theorem initial (token : ConnectionToken) : PanesOk (.initial token) where
  killRuns := nofun
  killRequests := nofun
  killUsed := fun _ h => absurd h (notMem_empty _)
  spawnRequests := nofun
  spawned := fun _ h => absurd h (notMem_empty _)
  backend := fun _ h => absurd h (notMem_empty _)
  printing := fun _ h => absurd rfl h
  exited := nofun
  recorded := fun _ h => h.elim
  exitFrames := nofun
  exitsRead := fun _ h => absurd h (notMem_empty _)
  ended := fun _ h => absurd h (notMem_empty _)
  closesEnded := nofun
  closing := fun _ h => absurd h (notMem_empty _)
  listed := fun h => absurd rfl h
  requestedUsed := fun _ h => absurd h (notMem_empty _)
  requested := fun _ _ h => absurd h (notMem_empty _)
  exitedListed := nofun
  drivenUsed := by
    rintro paneId (h | ⟨_, _, h, -⟩ | h)
    · exact absurd rfl h
    · exact nomatch h
    · exact absurd h (notMem_empty _)
  driven := by
    rintro paneId (h | ⟨_, _, h, -⟩ | h)
    · exact absurd rfl h
    · exact nomatch h
    · exact absurd h (notMem_empty _)
  spawning := fun _ h => absurd h (notMem_empty _)

variable {world : CreditWorld} (h : PanesOk world)

variable {paneId : PaneUuid} (link : Nat) {wr : Bool} {after : CreditWorld} {request : SupervisorRequestKind}

include h

theorem not_closing_of_unused (hunused : paneId ∉ world.usedPaneIds) :
    paneId ∉ world.killSentPaneIds ∧ paneId ∉ world.linkState.closingPaneIds := by
  refine ⟨fun hkill => hunused (h.killUsed paneId hkill), fun hcl => ?_⟩
  rcases h.closing paneId hcl with hkill | ⟨hexit, -⟩
  · exact hunused (h.killUsed paneId hkill)
  · obtain ⟨link, hlk⟩ := ne_none_iff_exists'.1 hexit
    refine hunused (h.spawned paneId (h.printing paneId fun hrd => ?_))
    have := (h.exited paneId link hlk).2
    rw [hrd] at this
    exact this

theorem keepPanes (st : LinkState) (hgen : world.linkState.linkGeneration ≤ st.linkGeneration)
    (hcl : st.closingPaneIds = world.linkState.closingPaneIds)
    (hended : ∀ paneId ∈ st.endedPaneIds, paneId ∈ world.linkState.endedPaneIds) :
    PanesOk { world with linkState := st } := by
  refine { h with
    exited := fun paneId link hexit => ⟨(h.exited paneId link hexit).1.trans hgen, (h.exited paneId link hexit).2⟩
    ended := fun paneId hm => h.ended paneId (hended paneId hm)
    closing := ?_
    listed := ?_
    driven := ?_ }
  · rw [hcl]
    exact h.closing
  · rw [hcl]
    exact h.listed
  · intro paneId hdr
    rw [Stands, hcl]
    exact h.driven paneId hdr

theorem markKilled (hkill : paneId ∈ world.killSentPaneIds) :
    PanesOk { world with linkState := world.linkState.markPaneClosing paneId } := by
  have hm : ∀ {j}, j ∈ insert paneId world.linkState.closingPaneIds →
      j ∈ world.killSentPaneIds ∨ j ∈ world.linkState.closingPaneIds := by
    intro j ho
    rcases mem_insert.1 ho with rfl | ho
    · exact .inl hkill
    · exact .inr ho
  refine { h with
    closing := ?_
    listed := ?_
    driven := ?_ }
  · intro j ho
    rcases hm ho with ho | ho
    · exact .inl ho
    · exact h.closing j ho
  · intro hp ps hls j ho
    refine ⟨(h.listed hp ps hls j ho).1, fun hcl => ?_⟩
    rcases hm hcl with hcl | hcl
    · exact .inl hcl
    · exact (h.listed hp ps hls j ho).2 hcl
  · intro j hdr
    rcases h.driven j hdr with ⟨hnot, hop⟩ | hexit
    · refine .inl ⟨hnot, fun hcl => ?_⟩
      rcases hm hcl with hcl | hcl
      · exact hnot hcl
      · exact hop hcl
    · exact .inr hexit

theorem turnTo {serveLoop : ServeLoop} (hcl : ∀ hd ended, serveLoop ≠ .closesEnded hd ended) :
    PanesOk { world with serveLoop } :=
  { h with closesEnded := fun hd ended hloop => absurd hloop (hcl hd ended) }

theorem appendFrame (fr : SupervisorFrame) (hexit : ∀ frame paneId status, fr = .pane frame →
      frame.readEvent = some (.exited paneId status) → world.exitLinkByPaneId paneId ≠ none)
    (hpanes : ∀ ps, fr = .panes ps → ∀ paneId ∈ ps, paneId ∈ world.backendPaneIds) :
    PanesOk (world.appendFrame link fr) := by
  have hm : ∀ {m other}, other ∈ (world.appendFrame link fr).framesByLink m →
      other ∈ world.framesByLink m ∨ other = fr := by
    intro m other ho
    replace ho : other ∈ update world.framesByLink link _ m := ho
    rw [update_apply] at ho
    split_ifs at ho with heq
    · rcases mem_append.1 ho with ho | ho
      · exact .inl (heq ▸ ho)
      · exact .inr (mem_singleton.1 ho)
    · exact .inl ho
  refine { h with
    exitFrames := ?_
    listed := ?_ }
  · intro m frame paneId status ho hev
    rcases hm ho with ho | ho
    · exact h.exitFrames m frame paneId status ho hev
    · exact hexit frame paneId status ho.symm hev
  · intro hp ps hls paneId hpa
    rcases hls with hls | hls
    · rcases hm hls with hls | hls
      · exact h.listed hp ps (.inl hls) paneId hpa
      · have hh := hpanes ps hls.symm paneId hpa
        refine ⟨h.spawned paneId (h.backend paneId hh), fun hcl => ?_⟩
        rcases h.closing paneId hcl with hkill | ⟨-, hgone⟩
        · exact .inl hkill
        · exact absurd hh hgone
    · exact h.listed hp ps (.inr hls) paneId hpa

theorem writeAnswer {fr : SupervisorFrame} {serveLoop : ServeLoop} (hcl : ∀ hd ended, serveLoop ≠ .closesEnded hd ended)
    (hpa : ∀ frame, fr ≠ .pane frame) (hpanes : ∀ ps, fr = .panes ps → ∀ paneId ∈ ps, paneId ∈ world.backendPaneIds) :
    PanesOk (world.writeAnswer fr wr serveLoop) := by
  rcases world.writeAnswer_cases fr wr serveLoop with
    ⟨link, -, heq⟩ | ⟨st, hna, -, hended, heq⟩
  · rw [heq]
    have happended := h.appendFrame link fr (fun frame _ _ hfrm => absurd hfrm (hpa frame)) hpanes
    exact happended.turnTo hcl
  · rw [heq]
    have hk := h.keepPanes st hna.linkGeneration.ge hna.closingPaneIds fun paneId hm => hended ▸ hm
    exact hk.turnTo nofun

theorem setReaderPhase {phase : ReaderPhase} (hsw : paneId ∈ world.spawnedPaneIds)
    (hb : ¬ (world.readerPhaseByPaneId paneId).HasExited) (haf : ¬ phase.HasExited) :
    PanesOk (world.setReaderPhase paneId phase) := by
  have ho : ∀ {j}, j ≠ paneId →
      (world.setReaderPhase paneId phase).readerPhaseByPaneId j = world.readerPhaseByPaneId j :=
    fun hne => update_of_ne hne _ _
  have hself : (world.setReaderPhase paneId phase).readerPhaseByPaneId paneId = phase := update_self ..
  refine { h with
    printing := ?_
    exited := ?_
    recorded := ?_ }
  · intro j hrd
    by_cases heq : j = paneId
    · rw [heq]
      exact hsw
    · rw [ho heq] at hrd
      exact h.printing j hrd
  · intro j link hexit
    by_cases heq : j = paneId
    · rw [heq] at hexit
      exact absurd (h.exited paneId link hexit).2 hb
    · rw [ho heq]
      exact h.exited j link hexit
  · intro j hex
    by_cases heq : j = paneId
    · rw [heq, hself] at hex
      exact absurd hex haf
    · rw [ho heq] at hex
      exact h.recorded j hex

theorem startSend {phase : ReaderPhase} (haf : ¬ phase.HasExited)
    (hstep : world.startSend paneId phase = some after) : PanesOk after := by
  unfold CreditWorld.startSend at hstep
  split at hstep
  · next hguard =>
    cases hstep
    exact h.setReaderPhase hguard.2 (by rw [hguard.1]; exact id) haf
  · cases hstep

theorem sendOutput {unsent : List UInt8} (hp : world.readerPhaseByPaneId paneId = .sendsOutput unsent) (wr : Bool) :
    PanesOk (world.sendOutput paneId unsent wr) := by
  have hsw : paneId ∈ world.spawnedPaneIds := h.printing paneId fun hrd => nomatch hp.symm.trans hrd
  have hb : ¬ (world.readerPhaseByPaneId paneId).HasExited := by rw [hp]; exact id
  unfold CreditWorld.sendOutput
  split
  · exact h.setReaderPhase hsw hb id
  · split
    · exact h.setReaderPhase hsw hb id
    · next hwant =>
      have hna := world.linkState.narrows_writePart paneId unsent wr
      have hended : (world.linkState.writeOutputPart paneId unsent wr).2.endedPaneIds =
          world.linkState.endedPaneIds := world.linkState.endedPaneIds_writePart _ _ _
      split
      · next sentByteCount link fr st hwr =>
        rw [hwr] at hna hended
        obtain ⟨-, hev⟩ := LinkState.writeOutputPart_wrote (fun hcl => hwant (.inr hcl)) (congrArg Prod.fst hwr)
        have hk := h.keepPanes st hna.linkGeneration.ge hna.closingPaneIds fun j hm => hended ▸ hm
        have happended := hk.appendFrame link (.pane fr) (fun frame j status hfrm
          ho => by cases hfrm; rw [hev] at ho; cases ho) nofun
        exact happended.setReaderPhase hsw hb id
      · next st hwr =>
        rw [hwr] at hna hended
        exact h.keepPanes _ hna.linkGeneration.ge hna.closingPaneIds fun j hm => hended ▸ hm

/-- A pane's exit goes out on the link being served, and its reader turns to recording it. -/
theorem writeExit (hsw : paneId ∈ world.spawnedPaneIds) (hb : ¬ (world.readerPhaseByPaneId paneId).HasExited)
    (hnum : link ≤ world.linkState.linkGeneration) :
    PanesOk (({ world with
      exitLinkByPaneId := update world.exitLinkByPaneId paneId (some link) } : CreditWorld).setReaderPhase
        paneId .recordsExit) := by
  have hsilent : world.exitLinkByPaneId paneId = none := by
    by_contra hexit
    obtain ⟨m, ho⟩ := ne_none_iff_exists'.1 hexit
    exact hb (h.exited paneId m ho).2
  have hgrows : ∀ {j}, world.exitLinkByPaneId j ≠ none → update world.exitLinkByPaneId paneId (some link) j ≠ none := by
    intro j ho
    have hne : j ≠ paneId := by
      rintro rfl
      exact ho hsilent
    rw [update_of_ne hne]
    exact ho
  have her : ∀ {j}, ExitedBefore world j → ExitedBefore { world with
      exitLinkByPaneId := update world.exitLinkByPaneId paneId (some link) } j := by
    rintro j ⟨m, ho, hlt⟩
    have hne : j ≠ paneId := by
      rintro rfl
      exact nomatch ho.symm.trans hsilent
    exact ⟨m, (update_of_ne hne _ _).trans ho, hlt⟩
  refine { h with
    printing := ?_
    exited := ?_
    recorded := ?_
    exitFrames := fun m fr j status hfrm hev =>
      hgrows (h.exitFrames m fr j status hfrm hev)
    exitsRead := fun j ho => hgrows (h.exitsRead j ho)
    ended := fun j ho => hgrows (h.ended j ho)
    closesEnded := fun hd endedPaneIds hloop j ho =>
      hgrows (h.closesEnded hd endedPaneIds hloop j ho)
    closing := ?_
    listed := ?_
    requested := ?_
    driven := ?_ }
  · intro j hrd
    by_cases heq : j = paneId
    · rw [heq]
      exact hsw
    · refine h.printing j fun ho => hrd ?_
      exact (update_of_ne heq _ _).trans ho
  · intro j m hexit
    by_cases heq : j = paneId
    · subst heq
      replace hexit : update world.exitLinkByPaneId j (some link) j = some m := hexit
      rw [update_self] at hexit
      refine ⟨Option.some.inj hexit ▸ hnum, ?_⟩
      show (update world.readerPhaseByPaneId j .recordsExit j).HasExited
      rw [update_self]
      trivial
    · replace hexit : update world.exitLinkByPaneId paneId (some link) j = some m := hexit
      rw [update_of_ne heq] at hexit
      refine ⟨(h.exited j m hexit).1, ?_⟩
      show (update world.readerPhaseByPaneId paneId .recordsExit j).HasExited
      rw [update_of_ne heq]
      exact (h.exited j m hexit).2
  · intro j hex
    show update world.exitLinkByPaneId paneId (some link) j ≠ none
    by_cases heq : j = paneId
    · rw [heq, update_self]
      exact some_ne_none _
    · replace hex : (update world.readerPhaseByPaneId paneId .recordsExit j).HasExited := hex
      rw [update_of_ne heq] at hex
      exact hgrows (h.recorded j hex)
  · intro j hcl
    rcases h.closing j hcl with hkill | ⟨hexit, hgone⟩
    · exact .inl hkill
    · exact .inr ⟨hgrows hexit, hgone⟩
  · intro hp ps hls j ho
    obtain ⟨hused, hsd⟩ := h.listed hp ps hls j ho
    exact ⟨hused, fun hcl => (hsd hcl).imp id her⟩
  · intro hp j ho hkill
    exact (h.requested hp j ho hkill).imp her id
  · intro j hdr
    exact (h.driven j hdr).imp id her

theorem continueReader (hli : LinksOk world) (hstep : world.continueReader paneId wr = some after) : PanesOk after := by
  unfold CreditWorld.continueReader at hstep
  split at hstep
  · next unsent hp =>
    cases hstep
    exact h.sendOutput hp wr
  · next status hp =>
    have hsw : paneId ∈ world.spawnedPaneIds :=
      h.printing paneId fun hrd => nomatch hp.symm.trans hrd
    have hb : ¬ (world.readerPhaseByPaneId paneId).HasExited := by rw [hp]; exact id
    have hna := world.linkState.narrows_sendEvent paneId (.exited paneId status) wr
    have hended := world.linkState.endedPaneIds_sendEvent paneId (.exited paneId status) wr
    split at hstep
    · next st hsend =>
      rw [hsend] at hna hended
      cases hstep
      have hk := h.keepPanes st hna.linkGeneration.ge hna.closingPaneIds fun j hm => hended ▸ hm
      exact hk.setReaderPhase hsw hb id
    · next link fr st hsend =>
      rw [hsend] at hna hended
      cases hstep
      obtain ⟨hcarries, rfl⟩ := LinkState.sendEvent_wrote (congrArg Prod.fst hsend)
      have hnum := hli.writer link hcarries.frameWriter
      have hk := h.keepPanes st hna.linkGeneration.ge hna.closingPaneIds fun j hm => hended ▸ hm
      have hexit := hk.writeExit link hsw hb (hnum.le.trans hna.linkGeneration.ge)
      refine hexit.appendFrame link (.pane (.event (.exited paneId status))) ?_ nofun
      intro frame j otherStatus hfrm hev
      cases hfrm
      cases hev
      show update world.exitLinkByPaneId paneId (some link) paneId ≠ none
      rw [update_self]
      exact some_ne_none _
    · next st hsend =>
      rw [hsend] at hna hended
      cases hstep
      exact h.keepPanes _ hna.linkGeneration.ge hna.closingPaneIds fun j hm => hended ▸ hm
  · next hp =>
    cases hstep
    have hex : (world.readerPhaseByPaneId paneId).HasExited := by rw [hp]; trivial
    have hphaseOf : ∀ j, (update world.readerPhaseByPaneId paneId .ended j).HasExited ↔
        (world.readerPhaseByPaneId j).HasExited := by
      intro j
      by_cases heq : j = paneId
      · rw [heq, update_self, hp]
        exact Iff.rfl
      · rw [update_of_ne heq]
    refine { h with
      printing := ?_
      exited := fun j link hexit => ⟨(h.exited j link hexit).1, (hphaseOf j).2 (h.exited j link hexit).2⟩
      recorded := fun j ho => h.recorded j ((hphaseOf j).1 ho)
      ended := ?_ }
    · intro j hrd
      by_cases heq : j = paneId
      · rw [heq]
        exact h.printing paneId fun ho => nomatch hp.symm.trans ho
      · exact h.printing j fun ho => hrd ((update_of_ne heq _ _).trans ho)
    · intro j ho
      rcases mem_insert.1 ho with rfl | ho
      · exact h.recorded j hex
      · exact h.ended j ho
  · cases hstep

theorem acceptLink (hstep : world.acceptLink = some after) : PanesOk after := by
  unfold CreditWorld.acceptLink at hstep
  split at hstep
  · split at hstep
    · cases hstep
      have hk := h.keepPanes world.linkState.setLinkWriter (Nat.le_succ _) rfl fun _ hm => hm
      exact hk.turnTo nofun
    · cases hstep
  · cases hstep

theorem takeRequests (requestKinds : List SupervisorRequestKind)
    (hsub : ∀ request ∈ requestKinds, request ∈ world.requestsByLink link) :
    PanesOk { world with requestsByLink := update world.requestsByLink link requestKinds } := by
  have hm : ∀ {m request},
      request ∈ update world.requestsByLink link requestKinds m →
      request ∈ world.requestsByLink m := by
    intro m request ho
    rw [update_apply] at ho
    split_ifs at ho with heq
    · rw [heq]
      exact hsub request ho
    · exact ho
  exact { h with
    killRequests := fun m paneId ho => h.killRequests m paneId (hm ho)
    spawnRequests := fun m paneId ho => h.spawnRequests m paneId (hm ho) }

theorem openPane (hused : paneId ∈ world.usedPaneIds) (hnew : paneId ∉ world.spawnedPaneIds) :
    PanesOk { world with
      backendPaneIds := insert paneId world.backendPaneIds
      spawnedPaneIds := insert paneId world.spawnedPaneIds } := by
  refine { h with
    spawned := ?_
    backend := ?_
    printing := fun j hrd => mem_insert_of_mem (h.printing j hrd)
    closing := ?_ }
  · intro j ho
    rcases mem_insert.1 ho with rfl | ho
    · exact hused
    · exact h.spawned j ho
  · intro j ho
    rcases mem_insert.1 ho with rfl | ho
    · exact mem_insert_self _ _
    · exact mem_insert_of_mem (h.backend j ho)
  · intro j hcl
    rcases h.closing j hcl with hkill | ⟨hexit, hgone⟩
    · exact .inl hkill
    · refine .inr ⟨hexit, fun ho => ?_⟩
      rcases mem_insert.1 ho with rfl | ho
      · obtain ⟨link, hlk⟩ := ne_none_iff_exists'.1 hexit
        refine hnew (h.printing j fun hrd => ?_)
        have hex := (h.exited j link hlk).2
        rw [hrd] at hex
        exact hex
      · exact hgone ho

theorem serveAccepted {hd : SupervisorHandshake} {isSpawned : Bool} {ended : List PaneUuid}
    (hspawn : ∀ paneId, request = .spawn paneId → paneId ∈ world.usedPaneIds)
    (hkill : ∀ paneId, request = .kill paneId → paneId ∈ world.killSentPaneIds)
    (hstep : world.serveAccepted hd request isSpawned ended wr = some after) :
    PanesOk after := by
  have hcl : ∀ otherHandshake ended, ServeLoop.reads hd ≠ .closesEnded otherHandshake ended :=
    nofun
  unfold CreditWorld.serveAccepted at hstep
  split at hstep
  · split at hstep
    · next version hver =>
      cases hstep
      have hk := h.keepPanes (world.linkState.markLinkOpen version) (Nat.le_refl _) rfl fun _ hm => hm
      exact hk.writeAnswer hcl nofun nofun
    · cases hstep
  · next paneId =>
    split at hstep
    · next hguard =>
      cases hstep
      have hopened := h.openPane (hspawn paneId rfl) hguard.2
      exact hopened.writeAnswer hcl nofun nofun
    · cases hstep
      exact h.writeAnswer hcl nofun nofun
  · next paneId =>
    cases hstep
    have hturned := h.turnTo hcl
    refine { hturned with killRuns := ?_ }
    intro killRun hrun
    rcases mem_append.1 hrun with hrun | hrun
    · exact h.killRuns killRun hrun
    · rw [mem_singleton.1 hrun]
      exact hkill paneId rfl
  · split at hstep
    · next hended =>
      cases hstep
      refine { h with closesEnded := ?_ }
      intro otherHandshake otherPaneIds hloop paneId hm
      cases hloop
      refine h.ended paneId ?_
      rw [← hended]
      exact List.mem_toFinset.2 hm
    · cases hstep
  · cases hstep
    have hk := h.keepPanes world.linkState.pauseEventOutput (Nat.le_refl _) rfl fun _ hm => hm
    exact hk.writeAnswer hcl nofun nofun
  · cases hstep
    have hk := h.keepPanes world.linkState.resumeEventOutput (Nat.le_refl _) rfl fun _ hm => hm
    exact hk.writeAnswer hcl nofun nofun
  · cases hstep
    exact h.writeAnswer nofun nofun nofun
  · next paneId granted =>
    cases hstep
    have hna := world.linkState.narrows_grantOutput paneId granted
    have hk := h.keepPanes _ hna.linkGeneration.ge hna.closingPaneIds fun j hm => by
      rwa [LinkState.endedPaneIds_grantOutput] at hm
    exact hk.turnTo hcl
  · cases hstep
    exact h.writeAnswer hcl nofun nofun
  · cases hstep
    exact h.writeAnswer hcl nofun nofun
  · cases hstep
    exact h.writeAnswer hcl nofun nofun
  · cases hstep

theorem serveRequest {isSpawned : Bool} {ended : List PaneUuid}
    (hstep : world.serveRequest isSpawned ended wr = some after) : PanesOk after := by
  unfold CreditWorld.serveRequest at hstep
  split at hstep
  · next hd request requestKinds hloop hrequests =>
    have hm : request ∈ world.requestsByLink world.linkState.linkGeneration := by
      rw [hrequests]
      exact mem_cons_self
    have hpopped := h.takeRequests world.linkState.linkGeneration requestKinds
      fun other ho => by
        rw [hrequests]
        exact mem_cons_of_mem _ ho
    dsimp only at hstep
    split at hstep
    · refine hpopped.serveAccepted ?_ ?_ hstep
      · rintro paneId rfl
        exact h.spawnRequests _ paneId hm
      · rintro paneId rfl
        exact h.killRequests _ paneId hm
    · split at hstep
      · cases hstep
        exact hpopped
      · cases hstep
        exact hpopped.writeAnswer nofun nofun nofun
  · cases hstep

theorem removePane (paneId : PaneUuid) :
    PanesOk { world with
      linkState := world.linkState.removeEndedPane paneId
      backendPaneIds := world.backendPaneIds.erase paneId } := by
  have hk := h.keepPanes (world.linkState.removeEndedPane paneId) (Nat.le_refl _) rfl fun j hm => mem_of_mem_erase hm
  refine { hk with
    backend := fun j ho => h.backend j (mem_of_mem_erase ho)
    closing := ?_ }
  intro j hcl
  refine (h.closing j hcl).imp id fun hexit => ⟨hexit.1, fun ho => ?_⟩
  exact hexit.2 (mem_of_mem_erase ho)

theorem closeEndedPane (hli : LinksOk world) (hstep : world.closeEndedPane = some after) : PanesOk after := by
  unfold CreditWorld.closeEndedPane at hstep
  split at hstep
  · next hd paneId ended hloop =>
    cases hstep
    have hexit := h.closesEnded hd _ hloop paneId mem_cons_self
    -- the pane's exit went out on an earlier link, or no one is connected on this one yet
    have hcur : ExitedBefore world paneId ∨ (world.connectPhase = .unlinked ∨
        (world.connectPhase = .awaitsPanes ∧ ∀ ps, .panes ps ∉ world.framesByLink world.linkCount)) := by
      by_cases hgen : world.linkState.linkGeneration = world.linkCount
      · exact .inr (hli.listing (.inr ⟨hgen, hd, _, hloop⟩))
      · obtain ⟨link, hlk⟩ := ne_none_iff_exists'.1 hexit
        have hle := (h.exited paneId link hlk).1
        have hgen' := hli.generation
        exact .inl ⟨link, hlk, by omega⟩
    have hm : ∀ {j}, j ∈ insert paneId world.linkState.closingPaneIds →
        j = paneId ∨ j ∈ world.linkState.closingPaneIds := mem_insert.1
    have hrv := h.removePane paneId
    refine { hrv with
      closesEnded := ?_
      closing := ?_
      listed := ?_
      driven := ?_ }
    · intro otherHandshake otherPaneIds ho j hmem
      cases ho
      exact h.closesEnded hd _ hloop j (mem_cons_of_mem _ hmem)
    · intro j hcl
      rcases hm hcl with rfl | hcl
      · exact .inr ⟨hexit, Finset.notMem_erase _ _⟩
      · exact hrv.closing j hcl
    · intro hp ps hls j ho
      refine ⟨(h.listed hp ps hls j ho).1, fun hcl => ?_⟩
      rcases hm hcl with rfl | hcl
      · rcases hcur with her | hunlinked | ⟨hawaits, hnone⟩
        · exact .inr her
        · exact absurd hunlinked hp
        · rcases hls with hls | hls
          · exact absurd hls (hnone ps)
          · exact nomatch hawaits.symm.trans hls
      · exact (h.listed hp ps hls j ho).2 hcl
    · intro j hdr
      rcases h.driven j hdr with ⟨hkill, hop⟩ | her
      · by_cases heq : j = paneId
        · subst heq
          rcases hcur with her | hunlinked | ⟨hawaits, -⟩
          · exact .inr her
          · rcases IsDriven.connected_or hli hdr with ho | ⟨_, _, ho⟩
            · exact nomatch hunlinked.symm.trans ho
            · exact nomatch hunlinked.symm.trans ho
          · rcases IsDriven.connected_or hli hdr with ho | ⟨_, _, ho⟩
            · exact nomatch hawaits.symm.trans ho
            · exact nomatch hawaits.symm.trans ho
        · refine .inl ⟨hkill, fun hcl => ?_⟩
          rcases hm hcl with ho | hcl
          · exact heq ho
          · exact hop hcl
      · exact .inr her
  · cases hstep

theorem answerPanes {ps : List PaneUuid} (hstep : world.answerPanes ps wr = some after) : PanesOk after := by
  unfold CreditWorld.answerPanes at hstep
  split at hstep
  · split at hstep
    · next hh =>
      cases hstep
      refine h.writeAnswer nofun nofun ?_
      intro otherIds hfrm paneId hm
      cases hfrm
      exact hh paneId hm
    · cases hstep
  · cases hstep

theorem dropLink (hstep : world.dropLink = some after) : PanesOk after := by
  have hk := h.keepPanes world.linkState.clearLink (Nat.le_refl _) rfl fun _ hm => hm
  unfold CreditWorld.dropLink at hstep
  split at hstep
  · cases hstep
    exact hk.turnTo nofun
  · cases hstep
    exact hk.turnTo nofun
  · cases hstep
    exact hk.turnTo nofun
  · cases hstep

theorem continueKill {killIndex : Nat} (hstep : world.continueKill killIndex = some after) : PanesOk after := by
  unfold CreditWorld.continueKill at hstep
  split at hstep
  · next paneId hrun =>
    cases hstep
    have hkill := h.killRuns _ (mem_of_getElem? hrun)
    have hmd := h.markKilled hkill
    refine { hmd with killRuns := fun killRun hm => ?_ }
    rcases mem_or_eq_of_mem_set hm with hm | rfl
    · exact h.killRuns killRun hm
    · exact hkill
  · next paneId hrun =>
    cases hstep
    have hrv := h.removePane paneId
    exact { hrv with killRuns := fun killRun hm => h.killRuns killRun (mem_of_mem_eraseIdx hm) }
  · cases hstep

theorem exitedBefore_of_exit (hli : LinksOk world) (hexit : world.exitLinkByPaneId paneId ≠ none) :
    ∃ link, world.exitLinkByPaneId paneId = some link ∧ link < world.linkCount + 1 := by
  obtain ⟨link, hlk⟩ := ne_none_iff_exists'.1 hexit
  have hle := (h.exited paneId link hlk).1
  have hgen := hli.generation
  exact ⟨link, hlk, by omega⟩

theorem startConnect (hli : LinksOk world) (hstep : world.startConnect = some after) : PanesOk after := by
  unfold CreditWorld.startConnect at hstep
  split at hstep
  · next hp =>
    cases hstep
    have hun := hli.undriven (by rw [hp]; exact nofun)
    have hnone : ∀ paneId, ¬ IsDriven { world with connectPhase := .awaitsHello } paneId := by
      rintro paneId (hdr | ⟨_, _, ho, -⟩ | hsg)
      · exact hdr (hun.1 paneId)
      · exact nomatch ho
      · replace hsg : paneId ∈ world.spawningPaneIds := hsg
        rw [hun.2.2] at hsg
        exact absurd hsg (notMem_empty paneId)
    have hm : ∀ {link request}, request ∈ update world.requestsByLink (world.linkCount + 1)
        [.hello minSupervisorProtocolVersion supervisorProtocolVersion world.connectionToken] link →
        request ∈ world.requestsByLink link ∨
          request = .hello minSupervisorProtocolVersion supervisorProtocolVersion world.connectionToken := by
      intro link request ho
      rw [update_apply] at ho
      split_ifs at ho
      · exact .inr (mem_singleton.1 ho)
      · exact .inl ho
    refine { h with
      killRequests := ?_
      spawnRequests := ?_
      exitsRead := fun _ ho => absurd ho (notMem_empty _)
      listed := ?_
      requested := ?_
      exitedListed := nofun
      drivenUsed := fun paneId hdr => absurd hdr (hnone paneId)
      driven := fun paneId hdr => absurd hdr (hnone paneId) }
    · intro link paneId ho
      rcases hm ho with ho | ho
      · exact h.killRequests link paneId ho
      · exact nomatch ho
    · intro link paneId ho
      rcases hm ho with ho | ho
      · exact h.spawnRequests link paneId ho
      · exact nomatch ho
    · rintro - ps (hls | ho) paneId hpa
      · replace hls : _ ∈ world.framesByLink (world.linkCount + 1) := hls
        rw [hli.unsent _ (Nat.lt_succ_of_le hli.generation)] at hls
        exact nomatch hls
      · exact nomatch ho
    · intro _ paneId hasked hkill
      rcases h.requested (by rw [hp]; exact nofun) paneId hasked hkill with
        ⟨link, hlk, hlt⟩ | hex
      · exact .inl ⟨link, hlk, Nat.lt_succ_of_lt hlt⟩
      · exact .inl (h.exitedBefore_of_exit hli (h.exitsRead paneId hex))
  · cases hstep

theorem failConnect (hli : LinksOk world) (hstep : world.failConnect = some after) : PanesOk after := by
  unfold CreditWorld.failConnect at hstep
  split at hstep
  · cases hstep
  · next hp =>
    cases hstep
    have hconnection : world.connectPhase ≠ .connected := fun ho => hp (.inr ho)
    have hun := hli.undriven hconnection
    have hnone : ∀ paneId, ¬ IsDriven { world with connectPhase := .unlinked, isLinkClosed := true } paneId := by
      rintro paneId (hdr | ⟨_, _, ho, -⟩ | hsg)
      · exact hdr (hun.1 paneId)
      · exact nomatch ho
      · replace hsg : paneId ∈ world.spawningPaneIds := hsg
        rw [hun.2.2] at hsg
        exact absurd hsg (notMem_empty paneId)
    exact { h with
      listed := fun ho => absurd rfl ho
      requested := fun _ => h.requested hconnection
      exitedListed := nofun
      drivenUsed := fun paneId hdr => absurd hdr (hnone paneId)
      driven := fun paneId hdr => absurd hdr (hnone paneId) }

/-! ### The session server -/

theorem takeFrames (frames : List SupervisorFrame) (hsub : ∀ fr ∈ frames, fr ∈ world.framesByLink link) :
    PanesOk { world with framesByLink := update world.framesByLink link frames } := by
  have hm : ∀ {m fr}, fr ∈ update world.framesByLink link frames m → fr ∈ world.framesByLink m := by
    intro m fr hfrm
    rw [update_apply] at hfrm
    split_ifs at hfrm with heq
    · rw [heq]
      exact hsub fr hfrm
    · exact hfrm
  exact { h with
    exitFrames := fun m fr paneId status hfrm =>
      h.exitFrames m fr paneId status (hm hfrm)
    listed := fun hp ps hls => h.listed hp ps (hls.imp hm id) }

theorem pushPaneEvent (paneId : PaneUuid) (ev : PaneEvent) (fresh : Bool) :
    PanesOk (world.pushPaneEvent paneId ev fresh) := by
  unfold CreditWorld.pushPaneEvent
  dsimp only
  split
  · exact h
  · split
    · exact { h with }
    · split
      · exact { h with }
      · exact h

theorem sendRequest (hkill : ∀ paneId, request = .kill paneId → paneId ∈ world.killSentPaneIds)
    (hspawn : ∀ paneId, request = .spawn paneId → paneId ∈ world.usedPaneIds) :
    PanesOk (world.sendRequest request wr) := by
  unfold CreditWorld.sendRequest
  split
  · have hm : ∀ {link kind}, kind ∈ update world.requestsByLink world.linkCount
        (world.requestsByLink world.linkCount ++ [request]) link →
        kind ∈ world.requestsByLink link ∨ kind = request := by
      intro link kind hki
      rw [update_apply] at hki
      split_ifs at hki with heq
      · rcases mem_append.1 hki with hki | hki
        · exact .inl (heq ▸ hki)
        · exact .inr (mem_singleton.1 hki)
      · exact .inl hki
    refine { h with
      killRequests := ?_
      spawnRequests := ?_ }
    · intro link paneId ho
      rcases hm ho with ho | ho
      · exact h.killRequests link paneId ho
      · exact hkill paneId ho.symm
    · intro link paneId ho
      rcases hm ho with ho | ho
      · exact h.spawnRequests link paneId ho
      · exact hspawn paneId ho.symm
  · exact h

theorem sendPlain (hkill : ∀ paneId, request ≠ .kill paneId) (hspawn : ∀ paneId, request ≠ .spawn paneId) :
    PanesOk (world.sendRequest request wr) :=
  h.sendRequest (fun paneId hki => absurd hki (hkill paneId)) fun paneId hki => absurd hki (hspawn paneId)

theorem turnConnect {connectPhase : ConnectPhase}
    (hun : (∀ paneId, world.ungrantedByteCountByPaneId paneId = none) ∧ world.spawningPaneIds = ∅)
    (hlr : world.connectPhase ≠ .connected)
    (hls : connectPhase ≠ .unlinked → ∀ ps, (.panes ps ∈ world.framesByLink world.linkCount ∨
      connectPhase = .killsUnrequested ps) → ∀ paneId ∈ ps, paneId ∈ world.usedPaneIds ∧
        (paneId ∈ world.linkState.closingPaneIds → paneId ∈ world.killSentPaneIds ∨ ExitedBefore world paneId))
    (hrt : ∀ retained exitedIds, connectPhase ≠ .killsExited retained exitedIds) :
    PanesOk { world with connectPhase } := by
  have hnone : ∀ paneId, ¬ IsDriven { world with connectPhase } paneId := by
    rintro paneId (hdr | ⟨retained, exitedIds, ho, -⟩ | hsg)
    · exact hdr (hun.1 paneId)
    · exact hrt retained exitedIds ho
    · replace hsg : paneId ∈ world.spawningPaneIds := hsg
      rw [hun.2] at hsg
      exact absurd hsg (notMem_empty paneId)
  exact { h with
    listed := hls
    requested := fun _ => h.requested hlr
    exitedListed := fun retained exitedIds ho =>
      absurd ho (hrt retained exitedIds)
    drivenUsed := fun paneId hdr => absurd hdr (hnone paneId)
    driven := fun paneId hdr => absurd hdr (hnone paneId) }

theorem readFrame (hli : LinksOk world) {fresh : Bool}
    (hstep : world.readFrame fresh = some after) : PanesOk after := by
  unfold CreditWorld.readFrame at hstep
  split at hstep
  · next fr frames hcz hframes =>
    have hhead : fr ∈ world.framesByLink world.linkCount := by
      rw [hframes]
      exact mem_cons_self
    have htk := h.takeFrames world.linkCount frames fun other ho => by
      rw [hframes]
      exact mem_cons_of_mem fr ho
    dsimp only at hstep
    split at hstep
    · next frame =>
      cases hstep
      unfold CreditWorld.receivePaneFrame
      split
      · exact htk.pushPaneEvent _ _ _
      · next paneId status hev =>
        have hexit := h.exitFrames _ frame paneId status hhead hev
        refine PanesOk.pushPaneEvent ?_ _ _ _
        refine { htk with
          exitsRead := ?_
          requested := fun hp j hasked hkill =>
            (h.requested hp j hasked hkill).imp id fun ho => mem_insert_of_mem ho
          exitedListed := fun retained exitedIds hp j ho =>
            ⟨(h.exitedListed _ _ hp j ho).1,
              mem_insert_of_mem (h.exitedListed _ _ hp j ho).2.1,
              (h.exitedListed _ _ hp j ho).2.2⟩ }
        intro j ho
        rcases mem_insert.1 ho with rfl | ho
        · exact hexit
        · exact h.exitsRead j ho
      · exact htk
    · next version =>
      split at hstep
      · next hp =>
        cases hstep
        have hun := hli.undriven fun ho => nomatch hp.symm.trans ho
        have hnone : ∀ ps, .panes ps ∉ frames := by
          intro ps hm
          refine hli.unlisted hp ps ?_
          rw [hframes]
          exact mem_cons_of_mem _ hm
        have hsent : PanesOk (CreditWorld.sendRequest _ .listPanes true) :=
          htk.sendPlain nofun nofun
        unfold CreditWorld.sendRequest at hsent ⊢
        rw [if_pos ⟨hcz, rfl⟩] at hsent ⊢
        refine hsent.turnConnect ⟨hun.1, hun.2.2⟩ (fun ho => nomatch hp.symm.trans ho) ?_ nofun
        rintro - ps (hls | ho)
        · replace hls : _ ∈ update world.framesByLink world.linkCount frames world.linkCount := hls
          rw [update_self] at hls
          exact absurd hls (hnone ps)
        · exact nomatch ho
      · cases hstep
        exact htk
    · next ps =>
      split at hstep
      · next hp =>
        cases hstep
        have hun := hli.undriven fun ho => nomatch hp.symm.trans ho
        have hunlinked : world.connectPhase ≠ .unlinked := fun ho => nomatch hp.symm.trans ho
        refine htk.turnConnect ⟨hun.1, hun.2.2⟩ (fun ho => nomatch hp.symm.trans ho) ?_ nofun
        rintro - otherIds (hls | ho)
        · exact htk.listed hunlinked otherIds (.inl hls)
        · cases ho
          exact h.listed hunlinked ps (.inl hhead)
      · cases hstep
        exact htk
    · cases hstep
      exact { htk with }
    · cases hstep
      exact htk
  · cases hstep

theorem readEarlierFrame {link : Nat} {fresh : Bool}
    (hstep : world.readEarlierFrame link fresh = some after) : PanesOk after := by
  unfold CreditWorld.readEarlierFrame at hstep
  split at hstep
  · next fr frames hframes =>
    have htk := h.takeFrames link frames fun other ho => by
      rw [hframes]
      exact mem_cons_of_mem _ ho
    split at hstep
    · split at hstep
      · next paneId bytes _ =>
        cases hstep
        have hmd : PanesOk { world with
            framesByLink := update world.framesByLink link frames
            hasEarlierOutput := update world.hasEarlierOutput paneId true } := { htk with }
        exact hmd.pushPaneEvent _ _ _
      · cases hstep
    · cases hstep
  · cases hstep

theorem sendKill (hused : paneId ∈ world.usedPaneIds) (hun : ¬ IsDriven world paneId)
    (hasked : world.connectPhase ≠ .connected → paneId ∈ world.requestedPaneIds →
      ExitedBefore world paneId ∨ paneId ∈ world.exitedPaneIds) :
    PanesOk (({ world with killSentPaneIds := insert paneId world.killSentPaneIds } : CreditWorld).sendRequest
      (.kill paneId) wr) := by
  have hm : ∀ {j}, j ∈ insert paneId world.killSentPaneIds → j = paneId ∨ j ∈ world.killSentPaneIds := mem_insert.1
  have hmd : PanesOk { world with killSentPaneIds := insert paneId world.killSentPaneIds } := by
    refine { h with
      killRuns := fun killRun hrun => mem_insert_of_mem (h.killRuns killRun hrun)
      killRequests := fun link j hki => mem_insert_of_mem (h.killRequests link j hki)
      killUsed := ?_
      closing := fun j hcl => (h.closing j hcl).imp mem_insert_of_mem id
      listed := ?_
      requested := ?_
      driven := ?_ }
    · intro j ho
      rcases hm ho with rfl | ho
      · exact hused
      · exact h.killUsed j ho
    · intro hp ps hls j ho
      obtain ⟨hotherUsed, hcl⟩ := h.listed hp ps hls j ho
      exact ⟨hotherUsed, fun hmem => (hcl hmem).imp mem_insert_of_mem id⟩
    · intro hp j ho hkill
      rcases hm hkill with rfl | hkill
      · exact hasked hp ho
      · exact h.requested hp j ho hkill
    · intro j hdr
      rcases h.driven j hdr with ⟨hkill, hop⟩ | her
      · refine .inl ⟨fun ho => ?_, hop⟩
        rcases hm ho with rfl | ho
        · exact hun hdr
        · exact hkill ho
      · exact .inr her
  refine hmd.sendRequest ?_ nofun
  intro j hki
  cases hki
  exact mem_insert_self _ _

section

variable (hli : LinksOk world)

include hli

theorem killUnrequested (hstep : world.killUnrequested paneId wr = some after) : PanesOk after := by
  unfold CreditWorld.killUnrequested at hstep
  split at hstep
  · next lstIds hp =>
    split at hstep
    · next hguard =>
      cases hstep
      have hused := (h.listed (fun ho => nomatch hp.symm.trans ho) lstIds (.inr hp) paneId hguard.1).1
      refine h.sendKill hused (fun hdr => ?_) fun _ hasked => absurd hasked hguard.2
      rcases hdr.connected_or hli with ho | ⟨_, _, ho⟩
      · exact nomatch hp.symm.trans ho
      · exact nomatch hp.symm.trans ho
    · cases hstep
  · cases hstep

theorem settleExits {lstIds : List PaneUuid} {retained exitedIds : Finset PaneUuid}
    (hp : world.connectPhase = .killsUnrequested lstIds)
    (hrt : ∀ paneId ∈ retained, paneId ∈ lstIds ∧ paneId ∈ world.requestedPaneIds ∧ paneId ∉ world.exitedPaneIds)
    (hex : ∀ paneId ∈ exitedIds, paneId ∈ lstIds ∧ paneId ∉ retained ∧ paneId ∈ world.exitedPaneIds) :
    PanesOk { world with connectPhase := .killsExited retained exitedIds } := by
  have hun := hli.undriven fun ho => nomatch hp.symm.trans ho
  have hunlinked : world.connectPhase ≠ .unlinked := fun ho => nomatch hp.symm.trans ho
  have hls := h.listed hunlinked lstIds (.inr hp)
  have hdrivenOf : ∀ {paneId}, IsDriven { world with
      connectPhase := .killsExited retained exitedIds } paneId → paneId ∈ retained := by
    rintro paneId (hdr | ⟨_, _, ho, hm⟩ | hsg)
    · exact absurd (hun.1 paneId) hdr
    · cases ho
      exact hm
    · replace hsg : paneId ∈ world.spawningPaneIds := hsg
      rw [hun.2.2] at hsg
      exact absurd hsg (notMem_empty paneId)
  have hconnection : world.connectPhase ≠ .connected := fun ho => nomatch hp.symm.trans ho
  refine { h with
    listed := ?_
    requested := fun _ => h.requested hconnection
    exitedListed := ?_
    drivenUsed := fun paneId hdr => (hls paneId (hrt paneId (hdrivenOf hdr)).1).1
    driven := ?_ }
  · rintro - ps (hmem | ho)
    · exact h.listed hunlinked ps (.inl hmem)
    · exact nomatch ho
  · intro _ _ ho paneId hm
    cases ho
    obtain ⟨hmem, hnotRetained, hexit⟩ := hex paneId hm
    exact ⟨hnotRetained, hexit, (hls paneId hmem).1⟩
  · intro paneId hdr
    obtain ⟨hmem, hasked, hnotExit⟩ := hrt paneId (hdrivenOf hdr)
    have hkill : paneId ∈ world.killSentPaneIds → ExitedBefore world paneId := fun hkill =>
      (h.requested hconnection paneId hasked hkill).resolve_right hnotExit
    by_cases hb : ExitedBefore world paneId
    · exact .inr hb
    · refine .inl ⟨fun ho => hb (hkill ho), fun hcl => hb ?_⟩
      exact ((hls paneId hmem).2 hcl).elim hkill id

theorem takeExits (hstep : world.takeExits = some after) : PanesOk after := by
  unfold CreditWorld.takeExits at hstep
  split at hstep
  · next lstIds hp =>
    cases hstep
    refine h.settleExits hli hp ?_ ?_
    · intro paneId hm
      rw [Finset.mem_filter, Finset.mem_filter, List.mem_toFinset] at hm
      exact ⟨hm.1.1, hm.1.2, hm.2⟩
    · intro paneId hm
      rw [Finset.mem_filter, Finset.mem_filter, List.mem_toFinset] at hm
      refine ⟨hm.1.1, fun hrt => ?_, hm.2⟩
      exact (Finset.mem_filter.1 hrt).2 hm.2
  · cases hstep

theorem killExited (hstep : world.killExited paneId wr = some after) : PanesOk after := by
  unfold CreditWorld.killExited at hstep
  split at hstep
  · next retained exitLst hp =>
    split at hstep
    · next hm =>
      cases hstep
      obtain ⟨hnotRetained, hex, hused⟩ := h.exitedListed retained exitLst hp paneId hm
      have hun := hli.undriven fun ho => nomatch hp.symm.trans ho
      refine h.sendKill hused ?_ fun _ _ => .inr hex
      rintro (hdr | ⟨_, _, ho, hrt⟩ | hsg)
      · exact hdr (hun.1 paneId)
      · cases hp.symm.trans ho
        exact hnotRetained hrt
      · rw [hun.2.2] at hsg
        exact absurd hsg (notMem_empty paneId)
    · cases hstep
  · cases hstep

theorem finishConnect (hstep : world.finishConnect = some after) : PanesOk after := by
  unfold CreditWorld.finishConnect at hstep
  split at hstep
  · next retained exitedIds hp hcz =>
    cases hstep
    have hun := hli.undriven fun ho => nomatch hp.symm.trans ho
    have hdrivenOf : ∀ {paneId}, IsDriven { world with
        connectPhase := .connected
        ungrantedByteCountByPaneId := fun paneId => if paneId ∈ retained then some 0 else none
        openedPaneIds := retained } paneId → IsDriven world paneId := by
      rintro paneId (hdr | ⟨_, _, ho, -⟩ | hsg)
      · refine .inr (.inl ⟨_, _, hp, ?_⟩)
        by_contra hnot
        exact hdr (if_neg hnot)
      · exact nomatch ho
      · exact .inr (.inr hsg)
    refine { h with
      listed := ?_
      requested := fun ho => absurd rfl ho
      exitedListed := nofun
      drivenUsed := fun paneId hdr => h.drivenUsed paneId (hdrivenOf hdr)
      driven := fun paneId hdr => h.driven paneId (hdrivenOf hdr)
      spawning := ?_ }
    · rintro - ps (hmem | ho)
      · exact h.listed (fun ho => nomatch hp.symm.trans ho) ps (.inl hmem)
      · exact nomatch ho
    · intro paneId hsg
      replace hsg : paneId ∈ world.spawningPaneIds := hsg
      rw [hun.2.2] at hsg
      exact absurd hsg (notMem_empty paneId)
  · cases hstep

end

theorem spawnPane (hstep : world.spawnPane paneId wr = some after) : PanesOk after := by
  unfold CreditWorld.spawnPane at hstep
  split at hstep
  · next hguard =>
    cases hstep
    obtain ⟨hp, hunused⟩ := hguard
    have hused : ∀ {j}, j ∈ world.usedPaneIds → j ∈ insert paneId world.usedPaneIds :=
      mem_insert_of_mem
    have hdrivenOf : ∀ {j}, IsDriven { world with
        usedPaneIds := insert paneId world.usedPaneIds
        spawningPaneIds := insert paneId world.spawningPaneIds } j → j = paneId ∨ IsDriven world j := by
      rintro j (hdr | ho | hsg)
      · exact .inr (.inl hdr)
      · exact .inr (.inr (.inl ho))
      · exact (mem_insert.1 hsg).imp id fun ho => .inr (.inr ho)
    have hsw : PanesOk { world with
        usedPaneIds := insert paneId world.usedPaneIds
        spawningPaneIds := insert paneId world.spawningPaneIds } := by
      refine { h with
        killUsed := fun j ho => hused (h.killUsed j ho)
        spawnRequests := fun link j ho => hused (h.spawnRequests link j ho)
        spawned := fun j ho => hused (h.spawned j ho)
        listed := fun ho ps hls j hm =>
          ⟨hused (h.listed ho ps hls j hm).1, (h.listed ho ps hls j hm).2⟩
        requestedUsed := fun j ho => hused (h.requestedUsed j ho)
        exitedListed := fun _ _ ho => nomatch hp.symm.trans ho
        drivenUsed := ?_
        driven := ?_
        spawning := ?_ }
      · intro j hdr
        rcases hdrivenOf hdr with rfl | hdr
        · exact mem_insert_self _ _
        · exact hused (h.drivenUsed j hdr)
      · intro j hdr
        rcases hdrivenOf hdr with rfl | hdr
        · exact .inl (h.not_closing_of_unused hunused)
        · exact h.driven j hdr
      · intro j hsg
        rcases mem_insert.1 hsg with rfl | hsg
        · by_contra hdr
          exact hunused (h.drivenUsed j (.inl hdr))
        · exact h.spawning j hsg
    refine hsw.sendRequest nofun ?_
    intro j hki
    cases hki
    exact mem_insert_self _ _
  · cases hstep

theorem finishSpawn (hstep : world.finishSpawn paneId = some after) : PanesOk after := by
  unfold CreditWorld.finishSpawn at hstep
  split at hstep
  · next hguard =>
    dsimp only at hstep
    have hsg : ∀ {j}, j ∈ world.spawningPaneIds.erase paneId →
        j ≠ paneId ∧ j ∈ world.spawningPaneIds := Finset.mem_erase.1
    split at hstep
    · cases hstep
      have hdrivenOf : ∀ {j}, IsDriven { world with
          spawningPaneIds := world.spawningPaneIds.erase paneId } j → IsDriven world j :=
        fun hdr => hdr.imp id fun ho => ho.imp id fun hm => (hsg hm).2
      exact { h with
        drivenUsed := fun j hdr => h.drivenUsed j (hdrivenOf hdr)
        driven := fun j hdr => h.driven j (hdrivenOf hdr)
        spawning := fun j hm => h.spawning j (hsg hm).2 }
    · cases hstep
      have hdrivenOf : ∀ {j}, IsDriven { world with
          spawningPaneIds := world.spawningPaneIds.erase paneId
          ungrantedByteCountByPaneId := update world.ungrantedByteCountByPaneId paneId (some 0)
          openedPaneIds := insert paneId world.openedPaneIds } j → IsDriven world j := by
        rintro j (hdr | ho | hm)
        · by_cases heq : j = paneId
          · exact .inr (.inr (heq ▸ hguard.1))
          · refine .inl fun hnone => hdr ?_
            exact (update_of_ne heq _ _).trans hnone
        · exact .inr (.inl ho)
        · exact .inr (.inr (hsg hm).2)
      refine { h with
        drivenUsed := fun j hdr => h.drivenUsed j (hdrivenOf hdr)
        driven := fun j hdr => h.driven j (hdrivenOf hdr)
        spawning := ?_ }
      intro j hm
      exact (update_of_ne (hsg hm).1 _ _).trans (h.spawning j (hsg hm).2)
  · cases hstep

theorem killPane (hli : LinksOk world) (hstep : world.killPane paneId wr = some after) : PanesOk after := by
  unfold CreditWorld.killPane at hstep
  split at hstep
  · cases hstep
  · next ungranted hc =>
    cases hstep
    have hdr : world.ungrantedByteCountByPaneId paneId ≠ none := by
      rw [hc]
      exact some_ne_none _
    have hp := hli.connected_of_driven hdr
    have hdrivenOf : ∀ {j}, IsDriven { world with
        ungrantedByteCountByPaneId := update world.ungrantedByteCountByPaneId paneId none } j →
        j ≠ paneId ∧ IsDriven world j := by
      rintro j (ho | ⟨_, _, ho, -⟩ | hm)
      · have hne : j ≠ paneId := by
          rintro rfl
          exact ho (update_self ..)
        exact ⟨hne, .inl fun hnone => ho ((update_of_ne hne _ _).trans hnone)⟩
      · exact nomatch hp.symm.trans ho
      · refine ⟨?_, .inr (.inr hm)⟩
        rintro rfl
        exact hdr (h.spawning j hm)
    have hleft : PanesOk { world with
        ungrantedByteCountByPaneId := update world.ungrantedByteCountByPaneId paneId none } := by
      refine { h with
        drivenUsed := fun j ho => h.drivenUsed j (hdrivenOf ho).2
        driven := fun j ho => h.driven j (hdrivenOf ho).2
        spawning := ?_ }
      intro j hm
      show update world.ungrantedByteCountByPaneId paneId none j = none
      rw [update_apply, h.spawning j hm, ite_self]
    exact hleft.sendKill (h.drivenUsed paneId (.inl hdr)) (fun ho => (hdrivenOf ho).1 rfl) fun ho => absurd hp ho

theorem setUngranted {ungranted : Nat} {outputTurn : Option OutputTurn}
    (hdr : world.ungrantedByteCountByPaneId paneId ≠ none) :
    PanesOk { world with
      ungrantedByteCountByPaneId := update world.ungrantedByteCountByPaneId paneId (some ungranted)
      outputTurn } := by
  have hdrivenOf : ∀ {j}, IsDriven { world with
      ungrantedByteCountByPaneId := update world.ungrantedByteCountByPaneId paneId (some ungranted)
      outputTurn } j → IsDriven world j := by
    rintro j (ho | ho | hm)
    · by_cases heq : j = paneId
      · exact .inl (heq ▸ hdr)
      · exact .inl fun hnone => ho ((update_of_ne heq _ _).trans hnone)
    · exact .inr (.inl ho)
    · exact .inr (.inr hm)
  refine { h with
    drivenUsed := fun j ho => h.drivenUsed j (hdrivenOf ho)
    driven := fun j ho => h.driven j (hdrivenOf ho)
    spawning := ?_ }
  intro j hm
  have hnone := h.spawning j hm
  have hne : j ≠ paneId := by
    rintro rfl
    exact hdr hnone
  exact (update_of_ne hne _ _).trans hnone

theorem reportTurn (hstep : world.reportTurn = some after) : PanesOk after := by
  unfold CreditWorld.reportTurn at hstep
  split at hstep
  · next paneId parsedByteCount _ =>
    split at hstep
    · cases hstep
      exact { h with }
    · next ungranted hc =>
      have hdr : world.ungrantedByteCountByPaneId paneId ≠ none := by
        rw [hc]
        exact some_ne_none _
      split at hstep
      · cases hstep
        exact h.setUngranted hdr
      · cases hstep
        exact h.setUngranted hdr
  · cases hstep

theorem writeGrant (hstep : world.writeGrant wr = some after) : PanesOk after := by
  unfold CreditWorld.writeGrant at hstep
  split at hstep
  · dsimp only at hstep
    have hpanes : PanesOk { world with outputTurn := none } := { h with }
    split at hstep
    · cases hstep
      exact hpanes.sendPlain nofun nofun
    · cases hstep
      exact { hpanes with }
  · cases hstep

theorem takeTurn (hstep : world.takeTurn paneId = some after) : PanesOk after := by
  unfold CreditWorld.takeTurn at hstep
  split at hstep
  · cases hstep
    exact { h with }
  · cases hstep

theorem loseLink (hstep : world.loseLink = some after) : PanesOk after := by
  unfold CreditWorld.loseLink at hstep
  split at hstep
  · cases hstep
  · cases hstep
    have hdrivenOf : ∀ {paneId}, IsDriven { world with
        isLinkClosed := true
        ungrantedByteCountByPaneId := fun _ => none } paneId → IsDriven world paneId :=
      fun hdr => .inr (hdr.resolve_left fun hnone => hnone rfl)
    exact { h with
      drivenUsed := fun paneId hdr => h.drivenUsed paneId (hdrivenOf hdr)
      driven := fun paneId hdr => h.driven paneId (hdrivenOf hdr)
      spawning := fun _ _ => rfl }

theorem replaceImage {carriedPaneIds : Finset PaneUuid}
    (hstep : world.replaceImage carriedPaneIds = some after) : PanesOk after := by
  unfold CreditWorld.replaceImage at hstep
  split at hstep
  · next hguard =>
    cases hstep
    have hnone : ∀ paneId, ¬ IsDriven { world with
        connectPhase := .unlinked
        ungrantedByteCountByPaneId := fun _ => none
        spawningPaneIds := ∅ } paneId := by
      rintro paneId (hdr | ⟨_, _, ho, -⟩ | hm)
      · exact hdr rfl
      · exact nomatch ho
      · exact absurd hm (notMem_empty paneId)
    refine { h with
      listed := fun ho => absurd rfl ho
      requestedUsed := fun paneId hm => h.drivenUsed paneId (.inl (hguard.2 paneId hm))
      requested := ?_
      exitedListed := nofun
      drivenUsed := fun paneId hdr => absurd hdr (hnone paneId)
      driven := fun paneId hdr => absurd hdr (hnone paneId)
      spawning := fun _ _ => rfl }
    intro _ paneId hm hkill
    exact .inl ((h.driven paneId (.inl (hguard.2 paneId hm))).resolve_left fun hop => hop.1 hkill)
  · cases hstep

/-- **One step** keeps what holds of the panes. -/
theorem step (hli : LinksOk world) {action : CreditAction}
    (hstep : world.step action = some after) : PanesOk after := by
  cases action with
  | printOutput paneId bytes => exact h.startSend id hstep
  | printExit paneId status => exact h.startSend id hstep
  | continueReader paneId wr => exact h.continueReader hli hstep
  | acceptLink => exact h.acceptLink hstep
  | serveRequest isSpawned endedPaneIds wr => exact h.serveRequest hstep
  | closeEndedPane => exact h.closeEndedPane hli hstep
  | answerPanes ps wr => exact h.answerPanes hstep
  | dropLink => exact h.dropLink hstep
  | continueKill killIndex => exact h.continueKill hstep
  | startConnect => exact h.startConnect hli hstep
  | failConnect => exact h.failConnect hli hstep
  | readFrame fresh => exact h.readFrame hli hstep
  | readEarlierFrame link fresh => exact h.readEarlierFrame hstep
  | killUnrequested paneId wr => exact h.killUnrequested hli hstep
  | takeExits => exact h.takeExits hli hstep
  | killExited paneId wr => exact h.killExited hli hstep
  | finishConnect => exact h.finishConnect hli hstep
  | spawnPane paneId wr => exact h.spawnPane hstep
  | finishSpawn paneId => exact h.finishSpawn hstep
  | killPane paneId wr => exact h.killPane hli hstep
  | sendOther request wr =>
    simp only [CreditWorld.step] at hstep
    split at hstep
    · next hguard =>
      cases hstep
      refine h.sendPlain ?_ ?_
      · rintro paneId rfl
        exact absurd hguard.2 Bool.false_ne_true
      · rintro paneId rfl
        exact absurd hguard.2 Bool.false_ne_true
    · cases hstep
  | takeTurn paneId => exact h.takeTurn hstep
  | reportTurn => exact h.reportTurn hstep
  | writeGrant wr => exact h.writeGrant hstep
  | closeQueue paneId =>
    cases hstep
    exact { h with }
  | loseLink => exact h.loseLink hstep
  | replaceImage carriedPaneIds => exact h.replaceImage hstep

end PanesOk

end Koshi.Pty
