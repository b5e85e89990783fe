import Mathlib.Tactic
import Koshi.Base.History
import Koshi.Daemon.PtySupervisor
import Koshi.Daemon.Proof.LinkSink

/-!
# Pane output survives a server swap

An event goes out only where the history allows it: on an open link that does not hold the output, for a pane whose
Kill was not answered and whose exit did not go out. An answer goes out on the link its request was read from. Beside
the history the invariant ties each reader to it: what a pane printed is what went out and what its reader still has
to send.
-/

namespace Koshi.Daemon

open Base Ipc List LinkEntry SupervisorWorld Option

/-! ### What the history says -/

/-- The request was let through by the gate. -/
def ReceivedRequest.Accepts (arrival : ReceivedRequest) (requestKind : SupervisorRequestKind) : Prop :=
  arrival.isAccepted = true ∧ ∃ requestId, arrival.request = some ⟨requestId, requestKind⟩

/-- A Hello was accepted on the link. -/
def Opened (history : List HistoryEntry) (link : Nat) : Prop :=
  ∃ arrival minimumProtocolVersion maximumProtocolVersion token,
    (link, received arrival) ∈ history ∧ arrival.Accepts (.hello minimumProtocolVersion maximumProtocolVersion token)

def KillAnswered (history : List HistoryEntry) (paneId : PaneUuid) : Prop :=
  ∃ link frame arrival, (link, written frame (some arrival)) ∈ history ∧ arrival.Accepts (.kill paneId)

/-- The pane's exit went out. -/
def ExitWritten (history : List HistoryEntry) (paneId : PaneUuid) : Prop :=
  ∃ entry ∈ history, ∃ status, entry.2.readEvent = some (.exited paneId status)

def IsPauseAnswer (link : Nat) (entry : HistoryEntry) : Prop :=
  entry.1 = link ∧ ∃ frame arrival, entry.2 = .written frame (some arrival) ∧ arrival.Accepts .pauseOutput

def IsResumeRequest (link : Nat) (entry : HistoryEntry) : Prop :=
  entry.1 = link ∧ ∃ arrival, entry.2 = .received arrival ∧ arrival.Accepts .resumeOutput

/-- Some answer to a PauseOutput on the link has no ResumeOutput after it. -/
def Held (history : List HistoryEntry) (link : Nat) : Prop :=
  ∃ before answer after, history = before ++ answer :: after ∧ IsPauseAnswer link answer ∧
    ∀ entry ∈ after, ¬ IsResumeRequest link entry

/-- What an entry may follow. -/
structure Allows (before : List HistoryEntry) (entry : HistoryEntry) : Prop where
  opened : entry.2.readEvent ≠ none → Opened before entry.1
  held : entry.2.readEvent ≠ none → ¬ Held before entry.1
  killed : ∀ event, entry.2.readEvent = some event → ¬ KillAnswered before event.paneId
  exited : ∀ event, entry.2.readEvent = some event → ¬ ExitWritten before event.paneId
  answered : ∀ frame arrival, entry.2 = .written frame (some arrival) → (entry.1, received arrival) ∈ before

section

variable {history : List HistoryEntry} {link : Nat} {paneId : PaneUuid} {entry : HistoryEntry}

theorem Opened.mono (h : Opened history link) (entries : List HistoryEntry) : Opened (history ++ entries) link := by
  obtain ⟨arrival, minimumProtocolVersion, maximumProtocolVersion, token, hm, hacc⟩ := h
  exact ⟨arrival, _, _, _, mem_append_left _ hm, hacc⟩

theorem killAnswered_concat : KillAnswered (history ++ [entry]) paneId ↔ KillAnswered history paneId ∨
    ∃ frame arrival, entry.2 = .written frame (some arrival) ∧ arrival.Accepts (.kill paneId) := by
  constructor
  · rintro ⟨link, frame, arrival, hm, hacc⟩
    rcases mem_append.1 hm with hm | hm
    · exact .inl ⟨link, frame, arrival, hm, hacc⟩
    · rw [mem_singleton] at hm
      exact .inr ⟨frame, arrival, by rw [← hm], hacc⟩
  · rintro (⟨link, frame, arrival, hm, hacc⟩ | ⟨frame, arrival, he, hacc⟩)
    · exact ⟨link, frame, arrival, mem_append_left _ hm, hacc⟩
    · refine ⟨entry.1, frame, arrival, mem_append_right _ ?_, hacc⟩
      rw [mem_singleton, ← he]

theorem exitWritten_concat : ExitWritten (history ++ [entry]) paneId ↔ ExitWritten history paneId ∨
    ∃ status, entry.2.readEvent = some (.exited paneId status) := by
  simp only [ExitWritten, mem_append, mem_singleton, or_and_right, exists_or, exists_eq_left]

/-- A further entry holds the output where it answers a PauseOutput, and releases it where it is a ResumeOutput. -/
theorem held_concat : Held (history ++ [entry]) link ↔
    IsPauseAnswer link entry ∨ (Held history link ∧ ¬ IsResumeRequest link entry) := by
  constructor
  · rintro ⟨before, answer, after, hsp, hans, haf⟩
    rcases split_concat hsp with ⟨-, rfl, -⟩ | ⟨earlierAfter, rfl, hhistory⟩
    · exact .inl hans
    · refine .inr ⟨⟨before, answer, earlierAfter, hhistory, hans, fun other hm => ?_⟩, ?_⟩
      · exact haf other (mem_append_left _ hm)
      · exact haf entry (mem_append_right _ (mem_singleton.2 rfl))
  · rintro (hans | ⟨⟨before, answer, after, rfl, hans, haf⟩, he⟩)
    · exact ⟨history, entry, [], rfl, hans, by simp⟩
    · refine ⟨before, answer, after ++ [entry], by simp, hans, fun other hm => ?_⟩
      rcases mem_append.1 hm with hm | hm
      · exact haf other hm
      · rwa [mem_singleton.1 hm]

theorem not_held_of_lt (h : ∀ entry ∈ history, entry.1 < link) : ¬ Held history link := by
  rintro ⟨before, answer, after, rfl, ⟨hnum, -⟩, -⟩
  have := h answer (by simp)
  omega

theorem joinPaneOutput_concat : joinPaneOutput paneId (history ++ [entry]) =
    joinPaneOutput paneId history ++ readPaneOutput paneId entry := by
  rw [joinPaneOutput, flatMap_append, flatMap_singleton]
  rfl

theorem readOutput_of_readEvent_ne (h : ∀ event, entry.2.readEvent = some event → event.paneId ≠ paneId) :
    readPaneOutput paneId entry = [] := by
  unfold readPaneOutput
  split
  · next eventPaneId bytes hev => exact if_neg (h _ hev)
  · rfl

end

/-! ### The links -/

namespace ServePhase

def IsServing : ServePhase → Prop
  | .awaitsLink | .endsSends | .ended => False
  | _ => True

/-- The request being served, and whether the loop is about to answer it. -/
def pendingRequest : ServePhase → Option ReceivedRequest
  | .carriesOut _ arrival _ | .closesEnded _ arrival _ _ _ | .answers _ arrival _ _ =>
    some arrival
  | _ => none

end ServePhase

structure LinkInv (state : LinkState) (servePhase : ServePhase) (servedLinkGeneration : Nat)
    (killThreads : List KillThread) (history : List HistoryEntry) (arrivalCount : Nat) : Prop where
  justified : Justified Allows history
  sorted : history.Pairwise fun earlier later => earlier.1 ≤ later.1
  bound : ∀ entry ∈ history, entry.1 ≤ state.linkGeneration
  writer : ∀ link, state.frameWriter = some link → link = state.linkGeneration
  served : servePhase.IsServing → servedLinkGeneration = state.linkGeneration
  opened : state.linkProtocolVersion ≠ none → Opened history state.linkGeneration
  held : Held history state.linkGeneration → state.isPaused = true
  arrivals : ∀ {first second}, first ∈ history → second ∈ history → ∀ {firstRequest secondRequest},
    first.2 = .received firstRequest → second.2 = .received secondRequest →
      firstRequest.arrivalNumber = secondRequest.arrivalNumber → first.1 = second.1 ∧ firstRequest = secondRequest
  arrived : ∀ entry ∈ history, ∀ arrival, entry.2 = .received arrival → arrival.arrivalNumber < arrivalCount
  pending : ∀ arrival, servePhase.pendingRequest = some arrival → (servedLinkGeneration, received arrival) ∈ history
  carriesOut : ∀ handshake arrival request, servePhase = .carriesOut handshake arrival request →
    arrival.isAccepted = true ∧ arrival.request = some request
  /-- The loop answers no accepted Kill, and only where the output is held an accepted PauseOutput. -/
  answers : ∀ handshake arrival response shuts,
    servePhase = .answers handshake arrival response shuts →
      (∀ paneId, ¬ arrival.Accepts (.kill paneId)) ∧ (arrival.Accepts .pauseOutput → state.isPaused = true)
  closesEnded : ∀ handshake arrival requestId ended isMarked,
    servePhase = .closesEnded handshake arrival requestId ended isMarked → arrival.Accepts .listPanes
  resumes : ∀ handshake arrival requestId,
    servePhase = .carriesOut handshake arrival ⟨requestId, .resumeOutput⟩ → ¬ Held history state.linkGeneration
  kills : ∀ kill ∈ killThreads,
    (kill.linkGeneration, received kill.receivedRequest) ∈ history ∧
      kill.receivedRequest.Accepts (.kill kill.paneId) ∧ (kill.phase ≠ .marksPane → kill.paneId ∈ state.closingPaneIds)
  killed : ∀ paneId, KillAnswered history paneId → paneId ∈ state.closingPaneIds

variable {arrival : ReceivedRequest}

theorem ReceivedRequest.Accepts.requestKind_eq {requestKind kd : SupervisorRequestKind}
    (h : arrival.Accepts requestKind) (ho : arrival.Accepts kd) : requestKind = kd := by
  obtain ⟨-, requestId, hreq⟩ := h
  obtain ⟨-, j, hotherRequest⟩ := ho
  rw [hreq] at hotherRequest
  exact (SupervisorRequest.mk.inj (some.inj hotherRequest)).2

variable {frame : LinkFrame}

namespace LinkInv

variable {state later : LinkState} {servePhase laterPhase : ServePhase} {servedLinkGeneration : Nat}
  {killThreads : List KillThread} {history : List HistoryEntry} {arrivalCount : Nat}

theorem initial : LinkInv .new .awaitsLink 0 [] [] 0 where
  justified := .nil Allows
  sorted := .nil
  bound := by simp
  writer := by simp [LinkState.new]
  served := nofun
  opened h := absurd rfl h
  held := by simp [Held]
  arrivals := by simp
  arrived := by simp
  pending := nofun
  carriesOut := fun _ _ _ => nofun
  answers := fun _ _ _ _ => nofun
  closesEnded := fun _ _ _ _ _ => nofun
  resumes := fun _ _ _ => nofun
  kills := by simp
  killed := by simp [KillAnswered]

section

variable (h : LinkInv state servePhase servedLinkGeneration killThreads history arrivalCount)

variable {handshake : SupervisorHandshake}

include h

theorem narrow (hna : state.Narrows later) :
    LinkInv later servePhase servedLinkGeneration killThreads history arrivalCount := by
  obtain ⟨hgen, hver, hpaused, hcl, hwtr⟩ := hna
  refine ⟨h.justified, h.sorted, ?_, ?_, ?_, ?_, ?_, h.arrivals, h.arrived, h.pending, h.carriesOut, ?_, h.closesEnded,
    ?_, ?_, ?_⟩
  · rw [hgen]
    exact h.bound
  · intro link hlr
    rw [hgen]
    exact h.writer link (hwtr hlr)
  · rw [hgen]
    exact h.served
  · rw [hgen, hver]
    exact h.opened
  · rw [hgen, hpaused]
    exact h.held
  · rw [hpaused]
    exact h.answers
  · rw [hgen]
    exact h.resumes
  · rw [hcl]
    exact h.kills
  · rw [hcl]
    exact h.killed

theorem markPaneClosing (paneId : PaneUuid) :
    LinkInv (state.markPaneClosing paneId) servePhase servedLinkGeneration killThreads history arrivalCount :=
  { h with
    kills := fun kill hm => ⟨(h.kills kill hm).1, (h.kills kill hm).2.1,
      fun hp => Finset.mem_insert_of_mem ((h.kills kill hm).2.2 hp)⟩
    killed := fun j hkilled => Finset.mem_insert_of_mem (h.killed j hkilled) }

theorem turnTo (hpending : laterPhase.pendingRequest = none) (hsrv : laterPhase.IsServing → servePhase.IsServing) :
    LinkInv state laterPhase servedLinkGeneration killThreads history arrivalCount :=
  { h with
    served := fun hlr => h.served (hsrv hlr)
    pending := fun arrival hreq => by rw [hpending] at hreq; cases hreq
    carriesOut := fun _ _ _ hp => by rw [hp] at hpending; cases hpending
    answers := fun _ _ _ _ hp => by rw [hp] at hpending; cases hpending
    closesEnded := fun _ _ _ _ _ hp => by rw [hp] at hpending; cases hpending
    resumes := fun _ _ _ hp => by rw [hp] at hpending; cases hpending }

theorem turnToAnswer {resp : SupervisorResponse} {shuts : Bool} (hsrv : servePhase.IsServing)
    (hrecv : (servedLinkGeneration, received arrival) ∈ history) (hkill : ∀ paneId, ¬ arrival.Accepts (.kill paneId))
    (hpause : arrival.Accepts .pauseOutput → state.isPaused = true) :
    LinkInv state (.answers handshake arrival resp shuts) servedLinkGeneration killThreads history arrivalCount :=
  { h with
    served := fun _ => h.served hsrv
    pending := fun other ho => some.inj ho ▸ hrecv
    carriesOut := fun _ _ _ => nofun
    answers := fun _ other _ _ hp => by cases hp; exact ⟨hkill, hpause⟩
    closesEnded := fun _ _ _ _ _ => nofun
    resumes := fun _ _ _ => nofun }

theorem turnToClosing {requestId : Nat} {ended : List PaneUuid} {isMarked : Bool} (hsrv : servePhase.IsServing)
    (hrecv : (servedLinkGeneration, received arrival) ∈ history) (hacc : arrival.Accepts .listPanes) :
    LinkInv state (.closesEnded handshake arrival requestId ended isMarked) servedLinkGeneration
      killThreads history arrivalCount :=
  { h with
    served := fun _ => h.served hsrv
    pending := fun other ho => some.inj ho ▸ hrecv
    carriesOut := fun _ _ _ => nofun
    answers := fun _ _ _ _ => nofun
    closesEnded := fun _ _ _ _ _ ho => by cases ho; exact hacc
    resumes := fun _ _ _ => nofun }

theorem recordWritten {link : Nat} {answered : Option ReceivedRequest} (hnum : link = state.linkGeneration)
    (hallows : Allows history (link, .written frame answered))
    (hpause : ∀ arrival, answered = some arrival → arrival.Accepts .pauseOutput →
      state.isPaused = true ∧ ∀ handshake other requestId,
        servePhase ≠ .carriesOut handshake other ⟨requestId, .resumeOutput⟩)
    (hkill : ∀ arrival paneId, answered = some arrival → arrival.Accepts (.kill paneId) →
      paneId ∈ state.closingPaneIds) :
    LinkInv state servePhase servedLinkGeneration killThreads
      (history ++ [(link, .written frame answered)]) arrivalCount := by
  have hans : IsPauseAnswer state.linkGeneration (link, .written frame answered) →
      ∃ arrival, answered = some arrival ∧ arrival.Accepts .pauseOutput := by
    rintro ⟨-, otherFrame, arrival, he, hacc⟩
    exact ⟨arrival, (written.inj he).2, hacc⟩
  have hm : ∀ {entry}, entry ∈ history ++ [(link, written frame answered)] →
      ∀ {arrival}, entry.2 = .received arrival → entry ∈ history := by
    intro entry he arrival hrecv
    rcases mem_append.1 he with he | he
    · exact he
    · rw [mem_singleton.1 he] at hrecv
      cases hrecv
  refine ⟨h.justified.concat hallows, ?_, ?_, h.writer, h.served, fun hver => (h.opened hver).mono _, ?_, ?_, ?_,
    fun arrival hpending => mem_append_left _ (h.pending arrival hpending), h.carriesOut, h.answers,
    h.closesEnded, ?_, ?_, ?_⟩
  · refine pairwise_append.2 ⟨h.sorted, pairwise_singleton _ _, fun earlier her later hlr => ?_⟩
    rw [mem_singleton.1 hlr, hnum]
    exact h.bound earlier her
  · intro entry he
    rcases mem_append.1 he with he | he
    · exact h.bound entry he
    · rw [mem_singleton.1 he, hnum]
  · rw [held_concat]
    rintro (hh | ⟨hh, -⟩)
    · obtain ⟨arrival, hreq, hacc⟩ := hans hh
      exact (hpause arrival hreq hacc).1
    · exact h.held hh
  · intro first second hf hse firstRequest secondRequest hreqA hreqB
    exact h.arrivals (hm hf hreqA) (hm hse hreqB) hreqA hreqB
  · intro entry he arrival hrecv
    exact h.arrived entry (hm he hrecv) arrival hrecv
  · intro handshake arrival requestId hp
    rw [held_concat]
    rintro (hh | ⟨hh, -⟩)
    · obtain ⟨other, hreq, hacc⟩ := hans hh
      exact (hpause other hreq hacc).2 _ _ _ hp
    · exact h.resumes handshake arrival requestId hp hh
  · intro kill hthr
    obtain ⟨hrecv, hr⟩ := h.kills kill hthr
    exact ⟨mem_append_left _ hrecv, hr⟩
  · intro paneId
    rw [killAnswered_concat]
    rintro (hkilled | ⟨otherFrame, arrival, he, hacc⟩)
    · exact h.killed paneId hkilled
    · exact hkill arrival paneId (written.inj he).2 hacc

theorem recordReceived (hp : servePhase = .reads handshake) (request : Option SupervisorRequest) (isAccepted : Bool) :
    LinkInv state servePhase servedLinkGeneration killThreads
      (history ++ [(servedLinkGeneration, .received ⟨arrivalCount, request, isAccepted⟩)]) (arrivalCount + 1) := by
  have hnum : servedLinkGeneration = state.linkGeneration := h.served (by rw [hp]; trivial)
  have hpending : servePhase.pendingRequest = none := by rw [hp]; rfl
  have hnew : ∀ entry ∈ history, ∀ arrival, entry.2 = .received arrival → arrival.arrivalNumber ≠ arrivalCount := by
    intro entry he arrival hrecv
    exact (h.arrived entry he arrival hrecv).ne
  refine ⟨h.justified.concat ⟨fun hev => absurd rfl hev, fun hev => absurd rfl hev, nofun, nofun, nofun⟩,
    ?_, ?_, h.writer, h.served, fun hver => (h.opened hver).mono _, ?_, ?_, ?_, ?_, h.carriesOut, h.answers,
    h.closesEnded, ?_, ?_, ?_⟩
  · refine pairwise_append.2 ⟨h.sorted, pairwise_singleton _ _, fun earlier her later hlr => ?_⟩
    rw [mem_singleton.1 hlr, hnum]
    exact h.bound earlier her
  · intro entry he
    rcases mem_append.1 he with he | he
    · exact h.bound entry he
    · rw [mem_singleton.1 he, hnum]
  · rw [held_concat]
    rintro (⟨-, frame, arrival, he, -⟩ | ⟨hh, -⟩)
    · cases he
    · exact h.held hh
  · intro fst snd hf hse first second hreqA hreqB hs
    rcases mem_append.1 hf with hf | hf <;> rcases mem_append.1 hse with hse | hse
    · exact h.arrivals hf hse hreqA hreqB hs
    · rw [mem_singleton.1 hse] at hreqB
      exact absurd (hs.trans (received.inj hreqB ▸ rfl)) (hnew fst hf first hreqA)
    · rw [mem_singleton.1 hf] at hreqA
      exact absurd (hs.symm.trans (received.inj hreqA ▸ rfl)) (hnew snd hse second hreqB)
    · rw [mem_singleton.1 hf] at hreqA ⊢
      rw [mem_singleton.1 hse] at hreqB ⊢
      exact ⟨rfl, received.inj (hreqA.symm.trans hreqB)⟩
  · intro entry he arrival hrecv
    rcases mem_append.1 he with he | he
    · exact Nat.lt_succ_of_lt (h.arrived entry he arrival hrecv)
    · rw [mem_singleton.1 he] at hrecv
      rw [← received.inj hrecv]
      exact Nat.lt_succ_self _
  · intro arrival hreq
    rw [hpending] at hreq
    cases hreq
  · intro other arrival requestId ho
    rw [ho] at hpending
    cases hpending
  · intro kill hthr
    obtain ⟨hrecv, hr⟩ := h.kills kill hthr
    exact ⟨mem_append_left _ hrecv, hr⟩
  · intro paneId
    rw [killAnswered_concat]
    rintro (hkilled | ⟨otherFrame, arrival, he, hacc⟩)
    · exact h.killed paneId hkilled
    · cases he

theorem clearLink : LinkInv state.clearLink servePhase servedLinkGeneration killThreads history arrivalCount :=
  { h with
    writer := nofun
    opened := fun hver => absurd rfl hver }

theorem markLinkOpen (hopened : Opened history state.linkGeneration) (version : Nat) :
    LinkInv (state.markLinkOpen version) servePhase servedLinkGeneration killThreads history
      arrivalCount :=
  { h with
    opened := fun _ => hopened }

theorem pauseEventOutput :
    LinkInv state.pauseEventOutput servePhase servedLinkGeneration killThreads history arrivalCount :=
  { h with
    held := fun _ => rfl
    answers := fun handshake arrival resp shuts hp =>
      ⟨(h.answers handshake arrival resp shuts hp).1, fun _ => rfl⟩ }

theorem resumeEventOutput (hh : ¬ Held history state.linkGeneration)
    (hp : ∀ handshake arrival resp shuts, servePhase ≠ .answers handshake arrival resp shuts) :
    LinkInv state.resumeEventOutput servePhase servedLinkGeneration killThreads history arrivalCount :=
  { h with
    held := fun ho => absurd ho hh
    answers := fun handshake arrival resp shuts ho =>
      absurd ho (hp handshake arrival resp shuts) }

theorem openLink (token : ConnectionToken) :
    LinkInv state.setLinkWriter (.reads (.fromConnectionToken token)) (state.linkGeneration + 1)
      killThreads history arrivalCount where
  __ := h
  bound entry he := Nat.le_succ_of_le (h.bound entry he)
  writer _ hwtr := (some.inj hwtr).symm
  served _ := rfl
  opened hver := absurd rfl hver
  held hh := absurd hh (not_held_of_lt fun entry he => Nat.lt_succ_of_le (h.bound entry he))
  pending := nofun
  carriesOut := fun _ _ _ => nofun
  answers := fun _ _ _ _ => nofun
  closesEnded := fun _ _ _ _ _ => nofun
  resumes := fun _ _ _ => nofun

theorem advanceKill {killIndex : Nat} {kill : KillThread} (hthr : killThreads[killIndex]? = some kill)
    (phase : KillPhase) (hmd : kill.paneId ∈ state.closingPaneIds) :
    LinkInv state servePhase servedLinkGeneration (killThreads.set killIndex { kill with phase })
      history arrivalCount :=
  { h with
    kills := fun otherThread hm => by
      rcases mem_or_eq_of_mem_set hm with hm | rfl
      · exact h.kills otherThread hm
      · obtain ⟨hrecv, hacc, -⟩ := h.kills kill (mem_of_getElem? hthr)
        exact ⟨hrecv, hacc, fun _ => hmd⟩ }

end

end LinkInv

/-! ### The readers -/

namespace ReaderPhase

/-- What the reader has still to send of what was printed, while the sink takes it. -/
def unsentBytes : ReaderPhase → Option (List UInt8)
  | .sendsOutput unsent => some unsent
  | .discards => none
  | _ => some []

/-- The pane's exit went out. -/
def HasExited : ReaderPhase → Prop
  | .recordsExit | .ended => True
  | _ => False

end ReaderPhase

/-- What one pane printed is what went out and what its reader has still to send. -/
structure ReaderOk (paneId : PaneUuid) (reader : PaneReader) (history : List HistoryEntry) : Prop where
  written : joinPaneOutput paneId history <+: reader.printedBytes
  unsent : ∀ unsentOutputBytes, reader.phase.unsentBytes = some unsentOutputBytes →
    reader.printedBytes = joinPaneOutput paneId history ++ unsentOutputBytes
  exited : ExitWritten history paneId → reader.phase.HasExited

namespace ReaderOk

variable {paneId : PaneUuid} {reader : PaneReader} {history : List HistoryEntry} {entry : HistoryEntry}

variable {printedBytes : List UInt8}

theorem initial (paneId : PaneUuid) : ReaderOk paneId ⟨.reading, []⟩ [] := by
  refine ⟨prefix_rfl, fun unsent h => ?_, fun ⟨_, hm, _⟩ => absurd hm not_mem_nil⟩
  rw [← some.inj h]
  rfl

theorem not_exitWritten (h : ReaderOk paneId reader history) (hp : ¬ reader.phase.HasExited) :
    ¬ ExitWritten history paneId := fun hexit => hp (h.exited hexit)

theorem concat (h : ReaderOk paneId reader history)
    (he : ∀ event, entry.2.readEvent = some event → event.paneId ≠ paneId) :
    ReaderOk paneId reader (history ++ [entry]) := by
  have hjoin : joinPaneOutput paneId (history ++ [entry]) = joinPaneOutput paneId history := by
    rw [joinPaneOutput_concat, readOutput_of_readEvent_ne he, append_nil]
  refine ⟨by rw [hjoin]; exact h.written, by rw [hjoin]; exact h.unsent, fun hexit => ?_⟩
  rcases exitWritten_concat.1 hexit with hexit | ⟨status, hev⟩
  · exact h.exited hexit
  · exact absurd rfl (he _ hev)

theorem output {unsent : List UInt8} (h : ReaderOk paneId ⟨.sendsOutput unsent, printedBytes⟩ history) {sent : Nat}
    (he : entry.2.readEvent = some (.output paneId (unsent.take sent))) :
    ReaderOk paneId ⟨.sendsOutput (unsent.drop sent), printedBytes⟩ (history ++ [entry]) := by
  have hrd : readPaneOutput paneId entry = unsent.take sent := by
    rw [readPaneOutput, he]
    exact if_pos rfl
  have hprinted : printedBytes = joinPaneOutput paneId (history ++ [entry]) ++ unsent.drop sent := by
    rw [joinPaneOutput_concat, hrd, append_assoc, take_append_drop]
    exact h.unsent unsent rfl
  refine ⟨⟨_, hprinted.symm⟩, fun otherBytes ho => by rw [← some.inj ho]; exact hprinted, fun hexit => ?_⟩
  rcases exitWritten_concat.1 hexit with hexit | ⟨status, hev⟩
  · exact absurd hexit (h.not_exitWritten id)
  · rw [he] at hev
    cases hev

theorem exit {status : PaneExitStatus} (h : ReaderOk paneId ⟨.sendsExit status, printedBytes⟩ history)
    (he : entry.2.readEvent = some (.exited paneId status)) :
    ReaderOk paneId ⟨.recordsExit, printedBytes⟩ (history ++ [entry]) := by
  have hjoin : joinPaneOutput paneId (history ++ [entry]) = joinPaneOutput paneId history := by
    rw [joinPaneOutput_concat, readPaneOutput, he, append_nil]
  refine ⟨by rw [hjoin]; exact h.written, fun otherBytes ho => ?_, fun _ => trivial⟩
  rw [hjoin, ← some.inj ho]
  exact h.unsent [] rfl

/-- The reader turns to a phase with as much to send, or with nothing more to send at all. -/
theorem turnTo {phase : ReaderPhase} (h : ReaderOk paneId reader history)
    (hunsent : phase.unsentBytes = reader.phase.unsentBytes ∨ phase.unsentBytes = none)
    (hex : reader.phase.HasExited → phase.HasExited) :
    ReaderOk paneId ⟨phase, reader.printedBytes⟩ history := by
  refine ⟨h.written, fun unsent hby => ?_, fun hexit => hex (h.exited hexit)⟩
  rcases hunsent with hunsent | hunsent
  · exact h.unsent unsent (hunsent ▸ hby)
  · rw [hunsent] at hby
    cases hby

theorem print (h : ReaderOk paneId ⟨.reading, printedBytes⟩ history) (bs : List UInt8) :
    ReaderOk paneId ⟨.sendsOutput bs, printedBytes ++ bs⟩ history := by
  refine ⟨h.written.trans (prefix_append _ _), fun unsent hby => ?_, fun hexit =>
    absurd hexit (h.not_exitWritten id)⟩
  have hprinted : printedBytes = joinPaneOutput paneId history := (h.unsent [] rfl).trans (append_nil _)
  rw [← some.inj hby, ← hprinted]

theorem discard (h : ReaderOk paneId ⟨.discards, printedBytes⟩ history)
    (bs : List UInt8) : ReaderOk paneId ⟨.discards, printedBytes ++ bs⟩ history :=
  ⟨h.written.trans (prefix_append _ _), nofun, fun hexit => absurd hexit (h.not_exitWritten id)⟩

end ReaderOk

/-! ### Steps -/

/-- What is true in every reachable state. -/
structure SupervisorInv (world : SupervisorWorld) : Prop where
  links : LinkInv world.linkState world.servePhase world.servedLinkGeneration world.killThreads world.history
    world.arrivalCount
  readers : ∀ paneId, ReaderOk paneId (world.readerByPaneId paneId) world.history

namespace SupervisorInv

open SupervisorWorld

variable {world reached : SupervisorWorld}

variable {paneId : PaneUuid}

theorem initial (token : ConnectionToken) : SupervisorInv (.initial token) :=
  ⟨.initial, fun paneId => .initial paneId⟩

theorem setReader (paneId : PaneUuid) {reader : PaneReader}
    (hli : LinkInv world.linkState world.servePhase world.servedLinkGeneration world.killThreads world.history
      world.arrivalCount) (hrdr : ReaderOk paneId reader world.history)
    (hothers : ∀ j, j ≠ paneId → ReaderOk j (world.readerByPaneId j) world.history) :
    SupervisorInv (world.setReader paneId reader) := by
  refine ⟨hli, fun j => ?_⟩
  show ReaderOk j (Function.update world.readerByPaneId paneId reader j) world.history
  by_cases ho : j = paneId
  · rw [ho, Function.update_self]
    exact hrdr
  · rw [Function.update_of_ne ho]
    exact hothers j ho

section

variable (h : SupervisorInv world)

include h

theorem allows {link : Nat} {ev : SupervisorEvent} (hcarries : world.linkState.CarriesEvent paneId link)
    (hev : frame.readEvent = some ev) (hpa : ev.paneId = paneId)
    (hp : ¬ (world.readerByPaneId paneId).phase.HasExited) :
    link = world.linkState.linkGeneration ∧ Allows world.history (link, .written frame none) := by
  have hnum := h.links.writer link hcarries.frameWriter
  have hunique : ∀ event', readEvent (.written frame none) = some event' → event'.paneId = paneId := by
    intro event' ho
    rw [← some.inj (hev.symm.trans ho), hpa]
  refine ⟨hnum, ⟨fun _ => ?_, fun _ hh => ?_, fun event' ho hkilled => ?_,
    fun event' ho hexit => ?_,
    fun _ _ he => nomatch written.inj he |>.2⟩⟩
  · rw [hnum]
    exact h.links.opened hcarries.isOpen
  · rw [hnum] at hh
    exact absurd (h.links.held hh) (by simp [hcarries.isPaused])
  · rw [hunique event' ho] at hkilled
    exact hcarries.isWanted (h.links.killed paneId hkilled)
  · rw [hunique event' ho] at hexit
    exact (h.readers paneId).not_exitWritten hp hexit

theorem recordEvent {link : Nat} {event : SupervisorEvent} (hcarries : world.linkState.CarriesEvent paneId link)
    (hev : frame.readEvent = some event) (hpa : event.paneId = paneId)
    (hp : ¬ (world.readerByPaneId paneId).phase.HasExited) {later : LinkState} (hna : world.linkState.Narrows later)
    {reader : PaneReader} (hrdr : ReaderOk paneId reader (world.history ++ [(link, .written frame none)])) :
    SupervisorInv ((({ world with linkState := later }).record link (.written frame none)).setReader paneId
      reader) := by
  obtain ⟨hnum, hallows⟩ := h.allows hcarries hev hpa hp
  refine setReader paneId ?_ hrdr fun j ho => (h.readers j).concat fun event' hotherEvent => ?_
  · exact (h.links.recordWritten hnum hallows nofun nofun).narrow hna
  · have : event' = event := some.inj (hotherEvent.symm.trans hev)
    rw [this, hpa]
    exact ho.symm

theorem narrowAndTurn (paneId : PaneUuid) {later : LinkState} (hna : world.linkState.Narrows later)
    {phase : ReaderPhase}
    (hunsent : phase.unsentBytes = (world.readerByPaneId paneId).phase.unsentBytes ∨ phase.unsentBytes = none)
    (hex : (world.readerByPaneId paneId).phase.HasExited → phase.HasExited) :
    SupervisorInv (({ world with linkState := later }).setReaderPhase paneId phase) :=
  setReader paneId (h.links.narrow hna) ((h.readers paneId).turnTo hunsent hex) fun j _ => h.readers j

theorem printOutput {bs : List UInt8} (hstep : world.printOutput paneId bs = some reached) : SupervisorInv reached := by
  have hrdr := h.readers paneId
  unfold SupervisorWorld.printOutput at hstep
  rcases hrd : world.readerByPaneId paneId with ⟨phase, printedBytes⟩
  rw [hrd] at hrdr hstep
  dsimp only at hstep
  split at hstep
  · cases hstep
    exact setReader paneId h.links (hrdr.print bs) fun j _ => h.readers j
  · cases hstep
    exact setReader paneId h.links (hrdr.discard bs) fun j _ => h.readers j
  · cases hstep

theorem printExit {status : PaneExitStatus}
    (hstep : world.printExit paneId status = some reached) : SupervisorInv reached := by
  unfold SupervisorWorld.printExit at hstep
  split at hstep
  · next hp =>
    cases hstep
    exact h.narrowAndTurn paneId (.refl _) (by rw [hp]; exact .inl rfl) (by rw [hp]; exact id)
  · cases hstep

theorem sendOutput {unsent : List UInt8} (hp : (world.readerByPaneId paneId).phase = .sendsOutput unsent)
    (isWritten : Bool) :
    SupervisorInv (world.sendOutput paneId unsent isWritten) := by
  unfold SupervisorWorld.sendOutput
  split
  · next hnil => exact h.narrowAndTurn paneId (.refl _) (by rw [hp, hnil]; exact .inl rfl) (by rw [hp]; exact nofun)
  · split
    · exact h.narrowAndTurn paneId (.refl _) (.inr rfl) (by rw [hp]; exact nofun)
    · next hwant =>
      have hna := world.linkState.narrows_writePart paneId unsent isWritten
      split
      · next sent link frame later hwr =>
        rw [hwr] at hna
        obtain ⟨hcarries, hev⟩ := LinkState.writeOutputPart_wrote (fun hcl => hwant (.inr hcl)) (congrArg Prod.fst hwr)
        have hrdr := h.readers paneId
        rcases hrd : world.readerByPaneId paneId with ⟨phase, printedBytes⟩
        rw [hrd] at hrdr hp
        dsimp only at hp
        subst hp
        have hwt : ReaderOk paneId ⟨.sendsOutput (unsent.drop sent), printedBytes⟩
            (world.history ++ [(link, .written frame none)]) := hrdr.output hev
        have hn := h.recordEvent hcarries hev rfl (by rw [hrd]; exact id) hna hwt
        rw [setReaderPhase]
        simpa only [record, hrd] using hn
      · next later hwr =>
        rw [hwr] at hna
        exact ⟨h.links.narrow hna, h.readers⟩

theorem continueReader {isWritten : Bool}
    (hstep : world.continueReader paneId isWritten = some reached) : SupervisorInv reached := by
  unfold SupervisorWorld.continueReader at hstep
  split at hstep
  · next hp =>
    cases hstep
    exact h.sendOutput hp isWritten
  · next status hp =>
    have hna := world.linkState.narrows_sendEvent paneId (.exited paneId status) isWritten
    dsimp only at hstep
    split at hstep
    · next hgaveUp =>
      cases hstep
      rw [applySend, hgaveUp]
      exact h.narrowAndTurn paneId hna (.inr rfl) (by rw [hp]; exact nofun)
    · next link frame hwrote =>
      cases hstep
      obtain ⟨hcarries, rfl⟩ := LinkState.sendEvent_wrote hwrote
      have hrdr := h.readers paneId
      rcases hrd : world.readerByPaneId paneId with ⟨phase, printedBytes⟩
      rw [hrd] at hrdr hp
      dsimp only at hp
      subst hp
      have hwt : ReaderOk paneId ⟨.recordsExit, printedBytes⟩
          (world.history ++ [(link, .written (.event (.exited paneId status)) none)]) := hrdr.exit rfl
      have hn := h.recordEvent hcarries rfl rfl (by rw [hrd]; exact id) hna hwt
      rw [applySend, hwrote, setReaderPhase]
      simpa only [record, hrd] using hn
    · next hwaits =>
      cases hstep
      rw [applySend, hwaits]
      exact ⟨h.links.narrow hna, h.readers⟩
  · next hp =>
    cases hstep
    exact h.narrowAndTurn paneId (world.linkState.narrows_recordEndedPane paneId) (by rw [hp]; exact .inl rfl)
      fun _ => trivial
  · cases hstep

theorem openLink (hstep : world.openLink = some reached) : SupervisorInv reached := by
  unfold SupervisorWorld.openLink at hstep
  split at hstep
  · cases hstep
    exact ⟨h.links.openLink world.connectionToken, h.readers⟩
  · cases hstep

theorem readers_received (link : Nat) (arrival : ReceivedRequest) (paneId : PaneUuid) :
    ReaderOk paneId (world.readerByPaneId paneId) (world.history ++ [(link, .received arrival)]) :=
  (h.readers paneId).concat nofun

theorem receive {frame : ReceivedFrame} (hstep : world.receive frame = some reached) : SupervisorInv reached := by
  unfold SupervisorWorld.receive at hstep
  split at hstep
  case h_2 => cases hstep
  case h_1 handshake hp =>
    have hsrv : world.servePhase.IsServing := by rw [hp]; trivial
    have hnew : ∀ arrival, (world.servedLinkGeneration, received arrival) ∈
        world.history ++ [(world.servedLinkGeneration, .received arrival)] :=
      fun arrival => mem_append_right _ (mem_singleton.2 rfl)
    dsimp only at hstep
    split at hstep
    · cases hstep
      exact ⟨h.links.turnTo rfl fun _ => hsrv, h.readers⟩
    · cases hstep
      refine ⟨?_, h.readers_received _ _⟩
      exact (h.links.recordReceived hp none false).turnToAnswer hsrv (hnew _) (fun _ hacc => nomatch hacc.1)
        fun hacc => nomatch hacc.1
    · next request =>
      split at hstep
      · next nextHandshake hverdict =>
        cases hstep
        have hli := h.links.recordReceived hp (some request) true
        refine ⟨{ hli with
          served := fun _ => h.links.served hsrv
          pending := fun otherRequest ho => some.inj ho ▸ hnew _
          carriesOut := fun _ _ _ ho => by cases ho; exact ⟨rfl, rfl⟩
          answers := fun _ _ _ _ => nofun
          closesEnded := fun _ _ _ _ _ => nofun
          resumes := ?_ }, h.readers_received _ _⟩
        -- the ResumeOutput just read ends what any PauseOutput before it held
        intro other arrival requestId ho
        cases ho
        change ¬ Held (world.history ++ [_]) world.linkState.linkGeneration
        rw [held_concat]
        rintro (⟨-, frame, otherRequest, he, -⟩ | ⟨-, hresume⟩)
        · cases he
        · exact hresume ⟨h.links.served hsrv, _, rfl, rfl, _, rfl⟩
      · next refusalError hverdict =>
        have hli := h.links.recordReceived hp (some request) false
        split at hstep
        · cases hstep
          exact ⟨hli, h.readers_received _ _⟩
        · cases hstep
          refine ⟨?_, h.readers_received _ _⟩
          exact hli.turnToAnswer hsrv (hnew _) (fun _ hacc => nomatch hacc.1) fun hacc => nomatch hacc.1

theorem carryOut {handshake : SupervisorHandshake} {arrival : ReceivedRequest} {request : SupervisorRequest}
    (hp : world.servePhase = .carriesOut handshake arrival request) {ended : List PaneUuid} {backend : SupervisorResult}
    (hstep : world.carryOut handshake arrival request ended backend = some reached) :
    SupervisorInv reached := by
  have hsrv : world.servePhase.IsServing := by rw [hp]; trivial
  have hserved := h.links.served hsrv
  have hrecv := h.links.pending arrival (by rw [hp]; rfl)
  obtain ⟨haccepted, hreq⟩ := h.links.carriesOut _ _ _ hp
  obtain ⟨requestId, requestKind⟩ := request
  have hacc : arrival.Accepts requestKind := ⟨haccepted, requestId, hreq⟩
  have hanswers : ∀ handshake arrival resp shuts, world.servePhase ≠ .answers handshake arrival resp shuts := by
    rw [hp]
    exact fun _ _ _ _ => nofun
  -- an answer that is neither a Kill's nor a PauseOutput's
  have hpl : ∀ {state}, LinkInv state world.servePhase world.servedLinkGeneration world.killThreads
      world.history world.arrivalCount → (∀ paneId, requestKind ≠ .kill paneId) → requestKind ≠ .pauseOutput →
      ∀ resp shuts, LinkInv state (.answers handshake arrival resp shuts)
        world.servedLinkGeneration world.killThreads world.history world.arrivalCount :=
    fun hli hkill hpause resp shuts => hli.turnToAnswer hsrv hrecv
      (fun paneId ho => hkill paneId (hacc.requestKind_eq ho))
      fun ho => absurd (hacc.requestKind_eq ho) hpause
  unfold SupervisorWorld.carryOut at hstep
  dsimp only at hstep
  split at hstep
  · split at hstep
    · next version hver =>
      cases hstep
      refine ⟨hpl (h.links.markLinkOpen ?_ version) nofun nofun _ _, h.readers⟩
      rw [← hserved]
      exact ⟨arrival, _, _, _, hrecv, hacc⟩
    · cases hstep
  · cases hstep
    exact ⟨hpl h.links nofun nofun _ _, h.readers⟩
  · cases hstep
    exact ⟨hpl h.links nofun nofun _ _, h.readers⟩
  · cases hstep
    exact ⟨hpl h.links nofun nofun _ _, h.readers⟩
  · cases hstep
    exact ⟨hpl h.links nofun nofun _ _, h.readers⟩
  · cases hstep
    have hturned : LinkInv world.linkState (.reads handshake) world.servedLinkGeneration world.killThreads world.history
        world.arrivalCount := h.links.turnTo rfl fun _ => hsrv
    refine ⟨{ hturned with kills := ?_ }, h.readers⟩
    intro kill hm
    rcases mem_append.1 hm with hm | hm
    · exact h.links.kills kill hm
    · rw [mem_singleton.1 hm]
      exact ⟨hrecv, hacc, fun hmd => absurd rfl hmd⟩
  · split at hstep
    · cases hstep
      exact ⟨h.links.turnToClosing hsrv hrecv hacc, h.readers⟩
    · cases hstep
  · cases hstep
    refine ⟨h.links.pauseEventOutput.turnToAnswer hsrv hrecv ?_ fun _ => rfl, h.readers⟩
    exact fun paneId ho => nomatch hacc.requestKind_eq ho
  · cases hstep
    have hh := h.links.resumes _ _ _ hp
    exact ⟨hpl (h.links.resumeEventOutput hh hanswers) nofun nofun _ _, h.readers⟩
  · cases hstep
    exact ⟨hpl h.links nofun nofun _ _, h.readers⟩
  · next paneId granted =>
    cases hstep
    refine ⟨?_, h.readers⟩
    exact (h.links.narrow (world.linkState.narrows_grantOutput paneId granted)).turnTo rfl fun _ => hsrv
  · cases hstep

end

section

variable (world : SupervisorWorld) (send : SendOutcome × LinkState) (answered : Option ReceivedRequest)

@[simp] theorem applySend_linkState : (world.applySend send answered).linkState = send.2 := by
  unfold applySend
  split <;> rfl

@[simp] theorem applySend_servePhase : (world.applySend send answered).servePhase = world.servePhase := by
  unfold applySend
  split <;> rfl

@[simp] theorem applySend_killThreads : (world.applySend send answered).killThreads = world.killThreads := by
  unfold applySend
  split <;> rfl

end

section

variable (h : SupervisorInv world)

include h

theorem applyResponse {generation : Nat} (resp : SupervisorResponse) (isWritten : Bool)
    (hrecv : (generation, received arrival) ∈ world.history)
    (hpause : arrival.Accepts .pauseOutput → world.linkState.isPaused = true ∧
      ∀ handshake other requestId, world.servePhase ≠ .carriesOut handshake other ⟨requestId, .resumeOutput⟩)
    (hkill : ∀ paneId, arrival.Accepts (.kill paneId) → paneId ∈ world.linkState.closingPaneIds) :
    SupervisorInv (world.applySend (world.linkState.sendResponse generation resp isWritten) (some arrival)) := by
  have hna := world.linkState.narrows_sendResponse generation resp isWritten
  unfold applySend
  dsimp only
  split
  · next link frame hwrote =>
    obtain ⟨hgen, hwtr, rfl⟩ := LinkState.sendResponse_wrote hwrote
    have hnum := h.links.writer link hwtr
    refine ⟨(h.links.recordWritten hnum ?_ ?_ ?_).narrow hna, fun paneId => (h.readers paneId).concat nofun⟩
    · refine ⟨fun hev => absurd rfl hev, fun hev => absurd rfl hev, nofun, nofun, ?_⟩
      intro frame other ho
      obtain ⟨-, hs⟩ := written.inj ho
      rw [← some.inj hs]
      show (link, received arrival) ∈ world.history
      rwa [hnum, hgen]
    · intro other ho
      rw [← some.inj ho]
      exact hpause
    · intro other paneId ho
      rw [← some.inj ho]
      exact hkill paneId
  · exact ⟨h.links.narrow hna, h.readers⟩

theorem turnServe {laterPhase : ServePhase} (hpending : laterPhase.pendingRequest = none)
    (hsrv : laterPhase.IsServing → world.servePhase.IsServing) :
    SupervisorInv { world with servePhase := laterPhase } :=
  ⟨h.links.turnTo hpending hsrv, h.readers⟩

theorem continueServe {ended : List PaneUuid} {backend : SupervisorResult} {isWritten : Bool}
    (hstep : world.continueServe ended backend isWritten = some reached) :
    SupervisorInv reached := by
  unfold SupervisorWorld.continueServe at hstep
  split at hstep
  · next hp => exact h.carryOut hp hstep
  · next handshake arrival requestId isMarked hp =>
    cases hstep
    have hacc := h.links.closesEnded _ _ _ _ _ hp
    refine ⟨h.links.turnToAnswer (by rw [hp]; trivial) (h.links.pending arrival (by rw [hp]; rfl)) ?_ ?_, h.readers⟩
    · exact fun paneId ho => nomatch hacc.requestKind_eq ho
    · exact fun ho => nomatch hacc.requestKind_eq ho
  · next handshake arrival requestId paneId ps hp =>
    cases hstep
    exact ⟨(h.links.markPaneClosing paneId).turnToClosing (by rw [hp]; trivial)
      (h.links.pending arrival (by rw [hp]; rfl)) (h.links.closesEnded _ _ _ _ _ hp), h.readers⟩
  · next handshake arrival requestId paneId ps hp =>
    cases hstep
    exact ⟨(h.links.narrow (world.linkState.narrows_removeEndedPane paneId)).turnToClosing (by rw [hp]; trivial)
      (h.links.pending arrival (by rw [hp]; rfl)) (h.links.closesEnded _ _ _ _ _ hp), h.readers⟩
  · next handshake arrival resp shuts hp =>
    obtain ⟨hkill, hpause⟩ := h.links.answers _ _ _ _ hp
    have hsent := h.applyResponse resp isWritten (h.links.pending arrival (by rw [hp]; rfl))
      (fun hacc => ⟨hpause hacc, by rw [hp]; exact nofun⟩) fun paneId hacc => absurd hacc (hkill paneId)
    have hsrv : (world.applySend (world.linkState.sendResponse world.servedLinkGeneration resp isWritten)
        (some arrival)).servePhase.IsServing := by
      rw [applySend_servePhase, hp]
      trivial
    dsimp only at hstep
    split at hstep
    · cases hstep
      refine hsent.turnServe ?_ fun _ => hsrv
      split <;> rfl
    · cases hstep
      exact hsent.turnServe rfl fun _ => hsrv
  · next shuts hp =>
    cases hstep
    have hcleared : SupervisorInv { world with linkState := world.linkState.clearLink } :=
      ⟨h.links.clearLink, h.readers⟩
    refine hcleared.turnServe ?_ ?_
    · split <;> rfl
    · split <;> exact nofun
  · next hp =>
    cases hstep
    have hmd : SupervisorInv { world with linkState := world.linkState.markClosing } :=
      ⟨h.links.narrow world.linkState.narrows_markClosing, h.readers⟩
    exact hmd.turnServe rfl nofun
  · cases hstep
  · cases hstep
  · cases hstep

theorem continueKill {killIndex : Nat} {closeResult : SupervisorResult} {isWritten : Bool}
    (hstep : world.continueKill killIndex closeResult isWritten = some reached) : SupervisorInv reached := by
  unfold SupervisorWorld.continueKill at hstep
  split at hstep
  · cases hstep
  · next kill hthr =>
    obtain ⟨hrecv, hacc, hmd⟩ := h.links.kills kill (mem_of_getElem? hthr)
    dsimp only at hstep
    split at hstep
    · cases hstep
      exact ⟨(h.links.markPaneClosing kill.paneId).advanceKill hthr _ (Finset.mem_insert_self _ _), h.readers⟩
    · next hp =>
      cases hstep
      refine ⟨(h.links.narrow (world.linkState.narrows_removeEndedPane kill.paneId)).advanceKill hthr _ ?_, h.readers⟩
      exact hmd (by rw [hp]; nofun)
    · next answerResult hp =>
      cases hstep
      have hcl := hmd (by rw [hp]; nofun)
      have hsent := h.applyResponse ⟨some kill.requestId, answerResult⟩ isWritten
        hrecv (fun ho => nomatch hacc.requestKind_eq ho)
        fun paneId ho => by
          rw [← SupervisorRequestKind.kill.inj (hacc.requestKind_eq ho)]
          exact hcl
      have hna := world.linkState.narrows_sendResponse kill.linkGeneration ⟨some kill.requestId, answerResult⟩ isWritten
      refine ⟨hsent.links.advanceKill (by rwa [applySend_killThreads]) _ ?_, hsent.readers⟩
      rwa [applySend_linkState, hna.closingPaneIds]
    · cases hstep

/-- **One step.** -/
theorem step {action : SupervisorAction} (hstep : world.step action = some reached) : SupervisorInv reached := by
  cases action with
  | printOutput paneId bytes => exact h.printOutput hstep
  | printExit paneId status => exact h.printExit hstep
  | continueReader paneId isWritten => exact h.continueReader hstep
  | openLink => exact h.openLink hstep
  | receive frame => exact h.receive hstep
  | continueServe ended backend isWritten => exact h.continueServe hstep
  | continueKill killIndex closeResult isWritten => exact h.continueKill hstep
  | giveUpIdle =>
    unfold SupervisorWorld.step at hstep
    dsimp only at hstep
    split at hstep
    · cases hstep
      exact h.turnServe rfl nofun
    · cases hstep

/-- **Every run.** -/
theorem run {actions : List SupervisorAction} (hrun : world.run actions = some reached) : SupervisorInv reached :=
  foldlM_invariant SupervisorInv (fun h hstep => h.step hstep) h hrun

end

end SupervisorInv

/-! ### The supervisor's promise -/

section

variable {world : SupervisorWorld}

variable {before after : List HistoryEntry}

section

variable (h : SupervisorInv world)

include h

theorem SupervisorInv.joinChannels_history :
    joinChannels Prod.fst world.history (world.linkState.linkGeneration + 1) = world.history :=
  joinChannels_eq h.links.sorted fun entry hm => Nat.lt_succ_of_le (h.links.bound entry hm)

theorem SupervisorInv.exit_last {entry : HistoryEntry} {paneId : PaneUuid} {status : PaneExitStatus}
    (hsp : world.history = before ++ entry :: after) (hexit : entry.2.readEvent = some (.exited paneId status)) :
    (∀ later ∈ after, ∀ ev, later.2.readEvent = some ev → ev.paneId ≠ paneId) ∧
      joinPaneOutput paneId before = (world.readerByPaneId paneId).printedBytes := by
  have haf : ∀ later ∈ after, ∀ ev, later.2.readEvent = some ev → ev.paneId ≠ paneId := by
    intro later hm ev hev hpa
    obtain ⟨mid, rest, rfl⟩ := append_of_mem hm
    have hallows := h.links.justified (before ++ entry :: mid) later rest (by rw [hsp]; simp)
    refine hallows.exited ev hev ⟨entry, by simp, status, ?_⟩
    rw [hpa]
    exact hexit
  refine ⟨haf, ?_⟩
  have hrdr := h.readers paneId
  have hp : (world.readerByPaneId paneId).phase.HasExited :=
    hrdr.exited ⟨entry, by rw [hsp]; simp, status, hexit⟩
  have hunsent : (world.readerByPaneId paneId).phase.unsentBytes = some [] := by
    generalize (world.readerByPaneId paneId).phase = phase at hp
    cases phase <;> first | rfl | exact hp.elim
  have hjoin : joinPaneOutput paneId world.history = joinPaneOutput paneId before := by
    have hnone : ∀ later ∈ after, readPaneOutput paneId later = [] :=
      fun later hm => readOutput_of_readEvent_ne (haf later hm)
    have he : readPaneOutput paneId entry = [] := by rw [readPaneOutput, hexit]
    rw [hsp, joinPaneOutput, flatMap_append, flatMap_cons, he, flatMap_eq_nil_iff.2 hnone]
    exact append_nil _
  rw [hrdr.unsent [] hunsent, append_nil, hjoin]

/-- Between the answer to a PauseOutput and an event on its link stands a ResumeOutput. -/
theorem SupervisorInv.resumed {mid : List HistoryEntry} {answer entry : HistoryEntry}
    (hsp : world.history = before ++ answer :: (mid ++ entry :: after)) (hans : IsPauseAnswer entry.1 answer)
    (hev : entry.2.readEvent ≠ none) :
    ∃ resume ∈ mid, IsResumeRequest entry.1 resume := by
  by_contra hnone
  have hallows := h.links.justified (before ++ answer :: mid) entry after (by rw [hsp]; simp)
  exact hallows.held hev ⟨before, answer, mid, rfl, hans, fun other hm hresume => hnone ⟨other, hm, hresume⟩⟩

theorem SupervisorInv.quiet_after_kill {link : Nat} {paneId : PaneUuid}
    (hsp : world.history = before ++ (link, .written frame (some arrival)) :: after)
    (hacc : arrival.Accepts (.kill paneId)) :
    ∀ later ∈ after, ∀ ev, later.2.readEvent = some ev → ev.paneId ≠ paneId := by
  intro later hm ev hev hpa
  obtain ⟨mid, rest, rfl⟩ := append_of_mem hm
  have hallows := h.links.justified (before ++ (link, .written frame (some arrival)) :: mid) later rest
    (by rw [hsp]; simp)
  exact hallows.killed ev hev ⟨link, frame, arrival, by simp, hpa ▸ hacc⟩

theorem SupervisorInv.answered_on_its_link {link : Nat} (hm : (link, written frame (some arrival)) ∈ world.history) :
    (link, received arrival) ∈ world.history ∧ ∀ m, (m, received arrival) ∈ world.history → m = link := by
  obtain ⟨before, after, hsp⟩ := append_of_mem hm
  have hallows := h.links.justified before _ after hsp
  have hrecv : (link, received arrival) ∈ world.history := by
    rw [hsp]
    exact mem_append_left _ (hallows.answered frame arrival rfl)
  exact ⟨hrecv, fun m ho => (h.links.arrivals ho hrecv rfl rfl rfl).1⟩

end

end

/-- **Pane output survives a server swap.** In every state the supervisor reaches, whatever the order of its readers'
output, of links and their requests, of kill threads and of failing writes:

* a pane's output on all links, joined in order, is a prefix of what the pane printed;
* its exit goes out once at most, after all of its bytes;
* no event goes out on a link before its Hello was accepted, and none after the answer to a PauseOutput until a
  ResumeOutput on that link;
* no event of a pane follows the answer to its Kill;
* an answer, a Kill's among them, is on the one link its request arrived on. -/
theorem paneOutput_survivesSwap (connectionToken : ConnectionToken) {actions : List SupervisorAction}
    {world : SupervisorWorld} (hrun : (initial connectionToken).run actions = some world) :
    (∀ paneId, joinPaneOutput paneId (joinChannels Prod.fst world.history (world.linkState.linkGeneration + 1)) <+:
        (world.readerByPaneId paneId).printedBytes) ∧
      (∀ (paneId : PaneUuid) (before : List HistoryEntry) (entry : HistoryEntry) (after : List HistoryEntry)
        (exitStatus : PaneExitStatus), world.history = before ++ entry :: after →
        entry.2.readEvent = some (.exited paneId exitStatus) →
          (∀ later ∈ after, ∀ event, later.2.readEvent = some event → event.paneId ≠ paneId) ∧
            joinPaneOutput paneId before = (world.readerByPaneId paneId).printedBytes) ∧
      (∀ (before : List HistoryEntry) (entry : HistoryEntry) (after : List HistoryEntry),
        world.history = before ++ entry :: after → entry.2.readEvent ≠ none → Opened before entry.1) ∧
      (∀ (before middle after : List HistoryEntry) (answer entry : HistoryEntry), world.history =
        before ++ answer :: (middle ++ entry :: after) →
        IsPauseAnswer entry.1 answer → entry.2.readEvent ≠ none → ∃ resume ∈ middle, IsResumeRequest entry.1 resume) ∧
      (∀ (before after : List HistoryEntry) (link : Nat) (frame : LinkFrame) (arrival : ReceivedRequest)
        (paneId : PaneUuid),
        world.history = before ++ (link, .written frame (some arrival)) :: after →
          arrival.Accepts (.kill paneId) →
            ∀ later ∈ after, ∀ event, later.2.readEvent = some event → event.paneId ≠ paneId) ∧
      (∀ (link : Nat) (frame : LinkFrame) (arrival : ReceivedRequest),
        (link, written frame (some arrival)) ∈ world.history →
          (link, received arrival) ∈ world.history ∧
            ∀ otherNumber, (otherNumber, received arrival) ∈ world.history → otherNumber = link) := by
  have h := (SupervisorInv.initial connectionToken).run hrun
  refine ⟨fun paneId => ?_, ?_, ?_, ?_, ?_, ?_⟩
  · rw [h.joinChannels_history]
    exact (h.readers paneId).written
  · intro paneId before entry after exitStatus hsplit hexit
    exact h.exit_last hsplit hexit
  · intro before entry after hsplit hevent
    exact (h.links.justified before entry after hsplit).opened hevent
  · intro before middle after answer entry hsplit hanswer hevent
    exact h.resumed hsplit hanswer hevent
  · intro before after link frame arrival paneId hsplit hacc
    exact h.quiet_after_kill hsplit hacc
  · intro link frame arrival hmem
    exact h.answered_on_its_link hmem

theorem length_swappedPaneId : (List.replicate 16 (7 : UInt8)).length = 16 := rfl

/-- A pane of the run below. -/
def swappedPaneId : PaneUuid := ⟨List.replicate 16 7, length_swappedPaneId⟩

/-- A pane prints six bytes; the write of the last four fails with its link, and the next link carries them. -/
def swapActions : List SupervisorAction :=
  let openAndHello := [.openLink, .receive (.request ⟨1, .hello 2 3 ⟨"secret"⟩⟩), .continueServe [] .done true,
    .continueServe [] .done true]
  openAndHello ++
    [.printOutput swappedPaneId [1, 2], .continueReader swappedPaneId true, .continueReader swappedPaneId true,
      .printOutput swappedPaneId [3, 4, 5, 6], .continueReader swappedPaneId false, .receive .faulted,
      .continueServe [] .done true] ++
    openAndHello ++ [.continueReader swappedPaneId true]

/-- The world the run ends in. -/
def swappedWorld : SupervisorWorld :=
  ((initial ⟨"secret"⟩).run swapActions).getD (.initial ⟨"secret"⟩)

theorem swapActions_run : (initial ⟨"secret"⟩).run swapActions = some swappedWorld := by
  rfl

theorem paneOutput_survivesSwap_swapped :
    joinPaneOutput swappedPaneId swappedWorld.history = [1, 2, 3, 4, 5, 6] ∧
      joinPaneOutput swappedPaneId (joinChannels Prod.fst swappedWorld.history
        (swappedWorld.linkState.linkGeneration + 1)) <+: (swappedWorld.readerByPaneId swappedPaneId).printedBytes :=
  ⟨by decide +kernel, (paneOutput_survivesSwap ⟨"secret"⟩ swapActions_run).1 swappedPaneId⟩

end Koshi.Daemon
