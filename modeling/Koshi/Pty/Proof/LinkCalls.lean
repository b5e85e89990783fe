import Mathlib.Tactic
import Koshi.Base.History
import Koshi.Pty.SupervisorLink

/-!
# Calls and their answers

What holds of the calls on a supervisor link, however they interleave: an id is given to one call, a call takes only the
answer that names its id, and once the link is closed no caller waits and no id is given.
-/

namespace Koshi.Pty

open Base Ipc List LinkWorld

variable {history : List LinkHistoryEntry} {requestKind : SupervisorRequestKind}

def CallPhase.requestId? : CallPhase → Option Nat
  | .writes requestId | .waits requestId | .leaves requestId _ | .insertsPane requestId _ => some requestId
  | .returned requestId _ => requestId
  | .looksUpPane | .registers | .ended => none

def LinkEntryAllowed (before : List LinkHistoryEntry) : LinkHistoryEntry → Prop
  | .registered requestId _ =>
    (∀ cause, .closed cause ∉ before) ∧ ∀ requestKind, .registered requestId requestKind ∉ before
  | .written requestId => ∃ requestKind, .registered requestId requestKind ∈ before
  | .handed requestId (.response answer) =>
    answer.requestId = some requestId ∧ .received answer ∈ before
  | .handed _ (.strayResponse answeredId) =>
    ∀ requestId requestKind, answeredId = some requestId → .registered requestId requestKind ∉ before
  | _ => True

/-- The request was written, and its caller was handed this result as the answer to it. -/
def IsAnswered (history : List LinkHistoryEntry) (requestKind : SupervisorRequestKind) (requestId : Nat)
    (result : SupervisorResult) : Prop :=
  .written requestId ∈ history ∧ IsExpectedResult requestKind result = true ∧
    ∃ answer, .handed requestId (.response answer) ∈ history ∧ answer.answerResult = .known result

def CallSound (history : List LinkHistoryEntry) (requestKind : SupervisorRequestKind) : CallPhase → Prop
  | .waits requestId => .written requestId ∈ history
  | .insertsPane requestId result => IsAnswered history requestKind requestId result
  | .returned requestId (.ok result) =>
    ∃ answeredId, requestId = some answeredId ∧ IsAnswered history requestKind answeredId result
  | _ => True

variable {requestId : Nat}

theorem IsAnswered.mono {later : List LinkHistoryEntry} {result : SupervisorResult}
    (hsub : ∀ entry ∈ history, entry ∈ later) (h : IsAnswered history requestKind requestId result) :
    IsAnswered later requestKind requestId result := by
  obtain ⟨hwt, hexp, answer, hhnd, hres⟩ := h
  exact ⟨hsub _ hwt, hexp, answer, hsub _ hhnd, hres⟩

theorem CallSound.mono {later : List LinkHistoryEntry} {phase : CallPhase} (hsub : ∀ entry ∈ history, entry ∈ later)
    (h : CallSound history requestKind phase) :
    CallSound later requestKind phase := by
  unfold CallSound at h ⊢
  split
  · exact hsub _ h
  · exact h.mono hsub
  · obtain ⟨answeredId, hid, hanswered⟩ := h
    exact ⟨answeredId, hid, hanswered.mono hsub⟩
  · trivial

structure CallsOk (world : LinkWorld) : Prop where
  justified : Justified LinkEntryAllowed world.history
  registeredBelow : ∀ requestId requestKind, .registered requestId requestKind ∈ world.history →
    requestId < world.linkBook.nextRequestId
  openBook : world.linkBook.linkCloseCause = none → ∀ cause, .closed cause ∉ world.history
  closedBook : world.linkBook.linkCloseCause ≠ none → world.linkBook.waitingRequestIds = []
  callRegistered : ∀ (callId : Nat) requestKind phase requestId,
    world.calls[callId]? = some ⟨requestKind, phase⟩ → phase.requestId? = some requestId →
    .registered requestId requestKind ∈ world.history
  callUnique : ∀ (callId otherNumber : Nat) requestKind kind' phase phase' requestId,
    world.calls[callId]? = some ⟨requestKind, phase⟩ → world.calls[otherNumber]? = some ⟨kind', phase'⟩ →
    phase.requestId? = some requestId → phase'.requestId? = some requestId → callId = otherNumber
  callSound : ∀ (callId : Nat) requestKind phase, world.calls[callId]? = some ⟨requestKind, phase⟩ →
    CallSound world.history requestKind phase
  answers : ∀ requestId answer', answer' ∈ world.answersByRequestId requestId →
    .handed requestId answer' ∈ world.history

theorem isAnswered_of_readAnswer {answer' : LinkAnswer} {result : SupervisorResult} (hwt : .written requestId ∈ history)
    (hhnd : .handed requestId answer' ∈ history) (hrd : readAnswer requestKind requestId answer' = .ok result) :
    IsAnswered history requestKind requestId result := by
  unfold readAnswer at hrd
  split at hrd
  · next otherResult hreceive =>
    split at hrd
    · next hexp =>
      cases hrd
      refine ⟨hwt, hexp, ?_⟩
      unfold receiveResult at hreceive
      split at hreceive
      · next answer =>
        refine ⟨answer, hhnd, ?_⟩
        split at hreceive
        · cases hreceive
        · next hres =>
          cases hreceive
          exact hres
        · cases hreceive
      · cases hreceive
    · cases hrd
  · cases hrd

/-- An answer goes to the caller whose request it names, or names no request and goes to all. -/
theorem LinkBook.deliver_spec {linkBook nextBook : LinkBook} {answer : AnswerFrame} {handed : List (Nat × LinkAnswer)}
    (hdlv : linkBook.deliverSupervisorResponse answer = (handed, nextBook)) :
    (∃ requestIds, nextBook = { linkBook with waitingRequestIds := requestIds } ∧
      (linkBook.waitingRequestIds = [] → requestIds = [])) ∧
    ∀ hnd ∈ handed,
      (hnd.2 = .response answer ∧ answer.requestId = some hnd.1) ∨
        (hnd.2 = .strayResponse answer.requestId ∧
          ∀ requestId, answer.requestId = some requestId → linkBook.nextRequestId ≤ requestId) := by
  have hstray : ∀ {hnd : Nat × LinkAnswer}, hnd ∈ linkBook.waitingRequestIds.map
      (fun requestId => (requestId, LinkAnswer.strayResponse answer.requestId)) →
      hnd.2 = .strayResponse answer.requestId := by
    intro hnd hhnd
    obtain ⟨requestId, -, rfl⟩ := List.mem_map.1 hhnd
    rfl
  unfold LinkBook.deliverSupervisorResponse at hdlv
  dsimp only at hdlv
  split at hdlv
  · next answeredId hanswered =>
    split at hdlv
    · cases hdlv
      refine ⟨⟨_, rfl, fun hnone => by rw [hnone, erase_nil]⟩, fun hnd hhnd => .inl ?_⟩
      rw [mem_singleton.1 hhnd]
      exact ⟨rfl, hanswered⟩
    · split at hdlv
      · cases hdlv
        exact ⟨⟨_, rfl, id⟩, fun hnd hhnd => nomatch hhnd⟩
      · next hunknown =>
        cases hdlv
        refine ⟨⟨_, rfl, fun _ => rfl⟩, fun hnd hhnd => .inr ⟨hstray hhnd, fun requestId hid => ?_⟩⟩
        cases hanswered.symm.trans hid
        exact Nat.le_of_not_lt hunknown
  · next hnone =>
    cases hdlv
    refine ⟨⟨_, rfl, fun _ => rfl⟩, fun hnd hhnd => .inr ⟨hstray hhnd, fun requestId hid => ?_⟩⟩
    exact nomatch hnone.symm.trans hid

namespace CallsOk

open LinkWorld

theorem openLink (isPrevious : Bool) (token : ConnectionToken)
    (requestedPaneIds earlierReportedPaneIds : List PaneUuid) :
    CallsOk (.openLink isPrevious token requestedPaneIds earlierReportedPaneIds) where
  justified := .nil _
  registeredBelow := nofun
  openBook := nofun
  closedBook := fun h => absurd rfl h
  callRegistered := by
    intro callId requestKind phase requestId hca hid
    rw [LinkWorld.openLink, List.getElem?_singleton] at hca
    split_ifs at hca
    cases hca
    cases hid
  callUnique := by
    intro callId number requestKind kind' phase phase' requestId hca _ hid
    rw [LinkWorld.openLink, List.getElem?_singleton] at hca
    split_ifs at hca
    cases hca
    cases hid
  callSound := by
    intro callId requestKind phase hca
    rw [LinkWorld.openLink, List.getElem?_singleton] at hca
    split_ifs at hca
    cases hca
    trivial
  answers := nofun

variable {world : LinkWorld} (h : CallsOk world)

variable {callId : Nat} {requestKind : SupervisorRequestKind} {reached : LinkWorld}

include h

theorem grow {entries : List LinkHistoryEntry} (hentries : ∀ before entry after, entries = before ++ entry :: after →
      LinkEntryAllowed (world.history ++ before) entry)
    (hpl : ∀ entry ∈ entries, (∀ requestId requestKind, entry ≠ .registered requestId requestKind) ∧
      ∀ cause, entry ≠ .closed cause) :
    CallsOk { world with history := world.history ++ entries } := by
  have hsub : ∀ entry ∈ world.history, entry ∈ world.history ++ entries := fun entry => mem_append_left entries
  refine { h with
    justified := h.justified.append hentries
    registeredBelow := ?_
    openBook := ?_
    callRegistered := fun callId requestKind phase requestId hca hid =>
      hsub _ (h.callRegistered callId requestKind phase requestId hca hid)
    callSound := fun callId requestKind phase hca => (h.callSound callId requestKind phase hca).mono hsub
    answers := fun requestId answer' hans => hsub _ (h.answers requestId answer' hans) }
  · intro requestId requestKind hm
    rcases mem_append.1 hm with hm | hm
    · exact h.registeredBelow requestId requestKind hm
    · exact absurd rfl ((hpl _ hm).1 requestId requestKind)
  · intro hop cause hm
    rcases mem_append.1 hm with hm | hm
    · exact h.openBook hop cause hm
    · exact absurd rfl ((hpl _ hm).2 cause)

theorem growOne {entry : LinkHistoryEntry} (hallow : LinkEntryAllowed world.history entry)
    (hpl : (∀ requestId requestKind, entry ≠ .registered requestId requestKind) ∧ ∀ cause, entry ≠ .closed cause) :
    CallsOk { world with history := world.history ++ [entry] } := by
  refine h.grow ?_ fun other ho => ?_
  · intro before other after hsp
    cases before with
    | nil =>
      cases hsp
      rwa [append_nil]
    | cons first before => exact absurd (congrArg List.length hsp) (by simp)
  · rw [mem_singleton.1 ho]
    exact hpl

theorem setPhase {phase nextPhase : CallPhase} (hca : world.calls[callId]? = some ⟨requestKind, phase⟩)
    (hid : ∀ requestId, nextPhase.requestId? = some requestId → phase.requestId? = some requestId)
    (hsn : CallSound world.history requestKind nextPhase) :
    CallsOk (world.setPhase callId requestKind nextPhase) := by
  have hlookup : ∀ {number kind' phase'},
      (world.setPhase callId requestKind nextPhase).calls[number]? = some ⟨kind', phase'⟩ →
      (number = callId ∧ kind' = requestKind ∧ phase' = nextPhase) ∨ world.calls[number]? = some ⟨kind', phase'⟩ := by
    intro number kind' phase' ho
    replace ho : (world.calls.set callId ⟨requestKind, nextPhase⟩)[number]? = _ := ho
    rw [List.getElem?_set] at ho
    split_ifs at ho with heq hlen
    · cases ho
      exact .inl ⟨heq.symm, rfl, rfl⟩
    · exact .inr ho
  -- a call after the step had its id before it
  have hb : ∀ {number : Nat} {kind' phase' requestId},
      (world.setPhase callId requestKind nextPhase).calls[number]? = some ⟨kind', phase'⟩ →
      phase'.requestId? = some requestId → ∃ oldPhase,
        world.calls[number]? = some ⟨kind', oldPhase⟩ ∧ oldPhase.requestId? = some requestId := by
    intro number kind' phase' requestId ho hotherId
    rcases hlookup ho with ⟨rfl, rfl, rfl⟩ | ho
    · exact ⟨phase, hca, hid requestId hotherId⟩
    · exact ⟨phase', ho, hotherId⟩
  refine { h with
    callRegistered := ?_
    callUnique := ?_
    callSound := ?_ }
  · intro number kind' phase' requestId ho hotherId
    obtain ⟨oldPhase, her, hearlierId⟩ := hb ho hotherId
    exact h.callRegistered number kind' oldPhase requestId her hearlierId
  · intro firstNumber secondNumber firstKind secondKind firstPhase secondPhase requestId hf hse hidA hidB
    obtain ⟨_, hf, hidA⟩ := hb hf hidA
    obtain ⟨_, hse, hidB⟩ := hb hse hidB
    exact h.callUnique _ _ _ _ _ _ requestId hf hse hidA hidB
  · intro number kind' phase' ho
    rcases hlookup ho with ⟨rfl, rfl, rfl⟩ | ho
    · exact hsn
    · exact h.callSound number kind' phase' ho

theorem setBook {linkBook : LinkBook} (hn : linkBook.nextRequestId = world.linkBook.nextRequestId)
    (hcause : linkBook.linkCloseCause = world.linkBook.linkCloseCause)
    (hwaiting : world.linkBook.waitingRequestIds = [] → linkBook.waitingRequestIds = []) :
    CallsOk { world with linkBook } := by
  refine { h with
    registeredBelow := ?_
    openBook := ?_
    closedBook := ?_ }
  · intro requestId requestKind hm
    show requestId < linkBook.nextRequestId
    rw [hn]
    exact h.registeredBelow requestId requestKind hm
  · intro hop
    exact h.openBook (hcause.symm.trans hop)
  · intro hcz
    exact hwaiting (h.closedBook fun hop => hcz (hcause.trans hop))

theorem addCall {phase : CallPhase} (hid : phase.requestId? = none) (hsn : CallSound world.history requestKind phase) :
    CallsOk { world with calls := world.calls ++ [⟨requestKind, phase⟩] } := by
  have hlookup : ∀ {number : Nat} {kind' phase'},
      (world.calls ++ [⟨requestKind, phase⟩])[number]? = some ⟨kind', phase'⟩ →
      (kind' = requestKind ∧ phase' = phase) ∨ world.calls[number]? = some ⟨kind', phase'⟩ := by
    intro number kind' phase' ho
    rw [List.getElem?_append] at ho
    split_ifs at ho
    · exact .inr ho
    · rw [List.getElem?_singleton] at ho
      split_ifs at ho
      cases ho
      exact .inl ⟨rfl, rfl⟩
  have hb : ∀ {number : Nat} {kind' phase' requestId},
      (world.calls ++ [⟨requestKind, phase⟩])[number]? = some ⟨kind', phase'⟩ →
      phase'.requestId? = some requestId → world.calls[number]? = some ⟨kind', phase'⟩ := by
    intro number kind' phase' requestId ho hotherId
    rcases hlookup ho with ⟨rfl, rfl⟩ | ho
    · exact nomatch hid.symm.trans hotherId
    · exact ho
  refine { h with
    callRegistered := fun number kind' phase' requestId ho hotherId =>
      h.callRegistered number kind' phase' requestId (hb ho hotherId) hotherId
    callUnique := fun _ _ _ _ _ _ requestId hf hse hidA hidB =>
      h.callUnique _ _ _ _ _ _ requestId (hb hf hidA) (hb hse hidB) hidA hidB
    callSound := ?_ }
  intro number kind' phase' ho
  rcases hlookup ho with ⟨rfl, rfl⟩ | ho
  · exact hsn
  · exact h.callSound number kind' phase' ho

/-! ### The steps -/

theorem startCall (hstep : world.startCall requestKind = some reached) : CallsOk reached := by
  unfold LinkWorld.startCall at hstep
  split at hstep
  · split at hstep
    · cases hstep
      by_cases hpa : findNeededPane requestKind = none
      · rw [if_pos hpa]
        have hadded : CallsOk { world with calls := world.calls ++ [⟨requestKind, .registers⟩] } :=
            h.addCall rfl trivial
        exact { hadded with }
      · rw [if_neg hpa]
        have hadded : CallsOk { world with calls := world.calls ++ [⟨requestKind, .looksUpPane⟩] } :=
          h.addCall rfl trivial
        exact { hadded with }
    · cases hstep
  · cases hstep

theorem lookUpPane (hca : world.calls[callId]? = some ⟨requestKind, .looksUpPane⟩) :
    CallsOk (world.lookUpPane callId requestKind) := by
  have hregistered : CallsOk (world.setPhase callId requestKind .registers) :=
    h.setPhase hca nofun trivial
  unfold LinkWorld.lookUpPane
  split
  · exact hregistered
  · next paneId _ =>
    split
    · split
      · next killedId _ =>
        have hkilled : CallsOk { world.setPhase callId (.kill killedId) .registers with
            history := world.history ++ [.killed paneId] } :=
          hregistered.growOne trivial ⟨nofun, nofun⟩
        exact hkilled.setBook rfl rfl id
      · exact hregistered
    · split
      · exact h.setPhase hca nofun trivial
      · exact h.setPhase hca nofun trivial

theorem register {linkBook : LinkBook} (hca : world.calls[callId]? = some ⟨requestKind, .registers⟩)
    (hreg : world.linkBook.registerRequest requestKind = some (requestId, linkBook)) :
    CallsOk { world.setPhase callId requestKind (.writes requestId) with
      linkBook
      history := world.history ++ [.registered requestId requestKind] } := by
  unfold LinkBook.registerRequest at hreg
  split at hreg
  · next hop =>
    dsimp only at hreg
    cases hreg
    have hsub : ∀ entry ∈ world.history, entry ∈ world.history ++
        [.registered world.linkBook.nextRequestId requestKind] :=
      fun entry => mem_append_left _
    have hlookup : ∀ {number : Nat} {kind' phase'},
        (world.calls.set callId ⟨requestKind, .writes world.linkBook.nextRequestId⟩)[number]? = some ⟨kind', phase'⟩ →
        (number = callId ∧ kind' = requestKind ∧ phase' = .writes world.linkBook.nextRequestId) ∨
          world.calls[number]? = some ⟨kind', phase'⟩ := by
      intro number kind' phase' ho
      rw [List.getElem?_set] at ho
      split_ifs at ho with heq hlen
      · cases ho
        exact .inl ⟨heq.symm, rfl, rfl⟩
      · exact .inr ho
    -- the new id is above every id given so far
    have hnew : ∀ {number : Nat} {kind' phase'},
        world.calls[number]? = some ⟨kind', phase'⟩ →
        phase'.requestId? ≠ some world.linkBook.nextRequestId := by
      intro number kind' phase' ho hid
      have hm := h.callRegistered number kind' phase' _ ho hid
      exact absurd (h.registeredBelow _ kind' hm) (Nat.lt_irrefl _)
    refine {
      justified := h.justified.concat ⟨h.openBook hop, fun kind' hm => ?_⟩
      registeredBelow := ?_
      openBook := ?_
      closedBook := fun hcz => absurd hop hcz
      callRegistered := ?_
      callUnique := ?_
      callSound := ?_
      answers := fun j answer' hans => hsub _ (h.answers j answer' hans) }
    · exact absurd (h.registeredBelow _ kind' hm) (Nat.lt_irrefl _)
    · intro j kind' hm
      rcases mem_append.1 hm with hm | hm
      · exact Nat.lt_succ_of_lt (h.registeredBelow j kind' hm)
      · cases mem_singleton.1 hm
        exact Nat.lt_succ_self _
    · intro _ cause hm
      rcases mem_append.1 hm with hm | hm
      · exact h.openBook hop cause hm
      · exact nomatch mem_singleton.1 hm
    · intro number kind' phase' j ho hid
      rcases hlookup ho with ⟨rfl, rfl, rfl⟩ | ho
      · cases hid
        exact mem_append_right _ (mem_singleton.2 rfl)
      · exact hsub _ (h.callRegistered number kind' phase' j ho hid)
    · intro firstNumber secondNumber firstKind secondKind firstPhase secondPhase j hf hse hidA hidB
      rcases hlookup hf with ⟨rfl, rfl, rfl⟩ | hf
      · cases hidA
        rcases hlookup hse with ⟨rfl, rfl, rfl⟩ | hse
        · rfl
        · exact absurd hidB (hnew hse)
      · rcases hlookup hse with ⟨-, -, hp⟩ | hse
        · rw [hp] at hidB
          cases hidB
          exact absurd hidA (hnew hf)
        · exact h.callUnique _ _ _ _ _ _ j hf hse hidA hidB
    · intro number kind' phase' ho
      rcases hlookup ho with ⟨rfl, rfl, rfl⟩ | ho
      · trivial
      · exact (h.callSound number kind' phase' ho).mono hsub
  · cases hreg

theorem takeAnswer {answer' : LinkAnswer} {linkAnswers : List LinkAnswer}
    (hanswers : world.answersByRequestId requestId = answer' :: linkAnswers) {nextPhase : CallPhase}
    (hca : world.calls[callId]? = some ⟨requestKind, .waits requestId⟩) (hid : nextPhase.requestId? = some requestId)
    (hsn : CallSound world.history requestKind nextPhase) :
    CallsOk (({ world with
      answersByRequestId := Function.update world.answersByRequestId requestId linkAnswers } : LinkWorld).setPhase
        callId requestKind nextPhase) := by
  have htk : CallsOk { world with
      answersByRequestId := Function.update world.answersByRequestId requestId linkAnswers } := by
    refine { h with answers := fun j otherAnswer hm => h.answers j otherAnswer ?_ }
    replace hm : otherAnswer ∈ Function.update world.answersByRequestId requestId linkAnswers j := hm
    rw [Function.update_apply] at hm
    split_ifs at hm with heq
    · rw [heq, hanswers]
      exact mem_cons_of_mem answer' hm
    · exact hm
  exact htk.setPhase hca (fun j ho => hid.symm.trans ho) hsn

theorem continueCall {wr isTimedOut : Bool}
    (hstep : world.continueCall callId wr isTimedOut = some reached) : CallsOk reached := by
  unfold LinkWorld.continueCall at hstep
  split at hstep
  · cases hstep
  · next requestKind hca =>
    cases hstep
    exact h.lookUpPane hca
  · next requestKind hca =>
    split at hstep
    · cases hstep
      unfold giveUp
      split
      · exact h.setPhase hca nofun trivial
      · exact h.setPhase hca nofun trivial
    · next requestId linkBook hregister =>
      cases hstep
      exact h.register hca hregister
  · next requestKind requestId hca =>
    have hreg := h.callRegistered callId requestKind _ requestId hca rfl
    split at hstep
    · cases hstep
      have hwt : CallsOk { world with history := world.history ++ [.written requestId] } :=
        h.growOne ⟨requestKind, hreg⟩ ⟨nofun, nofun⟩
      refine hwt.setPhase hca ?_ ?_
      · split
        · exact fun _ hid => hid
        · exact nofun
      · split
        · exact mem_append_right _ (mem_singleton.2 rfl)
        · trivial
    · split at hstep
      · cases hstep
        exact h.setPhase hca (fun _ hid => hid) trivial
      · cases hstep
        exact h.setPhase hca nofun trivial
  · next requestKind requestId ptyError hca =>
    cases hstep
    have hreturned : CallsOk (world.setPhase callId requestKind (.returned (some requestId) (.error ptyError))) :=
      h.setPhase hca (fun _ hid => hid) trivial
    refine hreturned.setBook rfl rfl fun hnone => ?_
    replace hnone : world.linkBook.waitingRequestIds = [] := hnone
    rw [LinkBook.removeWaiting, hnone, erase_nil]
  · next requestKind requestId hca =>
    have hwt : .written requestId ∈ world.history := h.callSound callId requestKind _ hca
    split at hstep
    · next answer' answers hanswers =>
      have hhnd := h.answers requestId answer' (by rw [hanswers]; exact mem_cons_self)
      dsimp only at hstep
      split at hstep
      · next result hrd =>
        cases hstep
        exact h.takeAnswer hanswers hca rfl (isAnswered_of_readAnswer hwt hhnd hrd)
      · next requestKind _ callResult _ =>
        cases hstep
        refine h.takeAnswer hanswers hca rfl ?_
        cases hrd : readAnswer requestKind requestId answer' with
        | ok result =>
          exact ⟨requestId, rfl, isAnswered_of_readAnswer hwt hhnd hrd⟩
        | error ptyError => trivial
    · split at hstep
      · cases hstep
        exact h.setPhase hca (fun _ hid => hid) trivial
      · split at hstep
        · cases hstep
          exact h.setPhase hca (fun _ hid => hid) trivial
        · cases hstep
  · next requestKind requestId result hca =>
    have hanswered : IsAnswered world.history requestKind requestId result :=
      h.callSound callId requestKind _ hca
    split at hstep
    · next paneId =>
      split at hstep
      · cases hstep
        have hreturned : CallsOk (world.setPhase callId (.spawn paneId) (.returned (some requestId) (.ok result))) :=
          h.setPhase hca (fun _ hid => hid) ⟨requestId, rfl, hanswered⟩
        have hsw : CallsOk { world.setPhase callId (.spawn paneId)
            (.returned (some requestId) (.ok result)) with
            history := world.history ++ [.spawned paneId] } :=
          hreturned.growOne trivial ⟨nofun, nofun⟩
        exact hsw.setBook rfl rfl id
      · cases hstep
        exact h.setPhase hca (fun _ hid => hid) trivial
    · cases hstep
  · cases hstep
  · cases hstep

theorem callFromConnect (requestKind : SupervisorRequestKind) (connectPhase : LinkConnectPhase) :
    CallsOk (world.callFromConnect requestKind connectPhase) := by
  have hadded : CallsOk { world with calls := world.calls ++ [⟨requestKind, .registers⟩] } := h.addCall rfl trivial
  exact { hadded with }

theorem continueConnect (hstep : world.continueConnect = some reached) : CallsOk reached := by
  unfold LinkWorld.continueConnect at hstep
  split at hstep
  · split at hstep
    · cases hstep
      exact h.callFromConnect _ _
    · split at hstep
      · cases hstep
        exact openLink _ _ _ _
      · cases hstep
        exact { h with }
    · cases hstep
  · split at hstep
    · cases hstep
      exact { h with }
    · cases hstep
      exact { h with }
    · cases hstep
  · cases hstep
    exact h.callFromConnect _ _
  · split at hstep
    · cases hstep
      exact { h with }
    · cases hstep
  · unfold settlePanes at hstep
    split at hstep
    · cases hstep
    · cases hstep
      exact { h.setBook rfl rfl id with }
  · cases hstep
    exact h.callFromConnect _ _
  · split at hstep
    · cases hstep
      exact { h with }
    · cases hstep
      exact { h with }
    · cases hstep
  · cases hstep
    exact { h with }
  · next paneId missing _ =>
    cases hstep
    have hreported : CallsOk { world with history := world.history ++ [.reported paneId unobservedExit] } :=
      h.growOne trivial ⟨nofun, nofun⟩
    exact { hreported with }
  · split at hstep
    · cases hstep
      exact { h.setBook rfl rfl id with }
    · cases hstep
      exact { h with }
  · cases hstep
  · cases hstep

theorem receiveResponse {answer : AnswerFrame}
    (hstep : world.receiveResponse answer = some reached) : CallsOk reached := by
  unfold LinkWorld.receiveResponse at hstep
  split at hstep
  · cases hdlv : world.linkBook.deliverSupervisorResponse answer with
    | mk handed nextBook =>
      rw [hdlv] at hstep
      cases hstep
      obtain ⟨⟨requestIds, rfl, hnone⟩, hhnd⟩ := LinkBook.deliver_spec hdlv
      have hallow : ∀ before entry after,
          (.received answer :: handed.map fun hnd => .handed hnd.1 hnd.2 : List LinkHistoryEntry) =
            before ++ entry :: after → LinkEntryAllowed (world.history ++ before) entry := by
        intro before entry after hsp
        cases before with
        | nil =>
          cases hsp
          trivial
        | cons first before =>
          obtain ⟨rfl, hr⟩ := List.cons.inj hsp
          have he : entry ∈ handed.map fun hnd => LinkHistoryEntry.handed hnd.1 hnd.2 := by
            rw [hr]
            exact mem_append_right _ mem_cons_self
          have hb : ∀ other ∈ before, ∀ requestId requestKind, other ≠ .registered requestId requestKind := by
            intro other ho requestId requestKind heq
            have hm : other ∈ handed.map fun hnd => LinkHistoryEntry.handed hnd.1 hnd.2 := by
              rw [hr]
              exact mem_append_left _ ho
            obtain ⟨hnd, -, rfl⟩ := List.mem_map.1 hm
            exact nomatch heq
          obtain ⟨⟨handedId, answer'⟩, hm, rfl⟩ := List.mem_map.1 he
          rcases hhnd _ hm with ⟨rfl, hid⟩ | ⟨rfl, hunknown⟩
          · exact ⟨hid, mem_append_right _ mem_cons_self⟩
          · intro requestId requestKind hid hreg
            rcases mem_append.1 hreg with hreg | hreg
            · have := h.registeredBelow requestId requestKind hreg
              have := hunknown requestId hid
              omega
            · rcases mem_cons.1 hreg with heq | hreg
              · exact nomatch heq
              · exact hb _ hreg requestId requestKind rfl
      have hgrown := h.grow hallow fun entry he => by
        rcases mem_cons.1 he with rfl | he
        · exact ⟨nofun, nofun⟩
        · obtain ⟨hnd, -, rfl⟩ := List.mem_map.1 he
          exact ⟨nofun, nofun⟩
      have hbook : CallsOk { world with
          linkBook := { world.linkBook with waitingRequestIds := requestIds }
          history := world.history ++ .received answer ::
            handed.map fun hnd => .handed hnd.1 hnd.2 } := hgrown.setBook rfl rfl hnone
      refine { hbook with answers := fun requestId answer' hans => ?_ }
      rcases mem_append.1 hans with hans | hans
      · exact mem_append_left _ (h.answers requestId answer' hans)
      · obtain ⟨⟨handedId, otherAnswer⟩, hm, hso⟩ := mem_filterMap.1 hans
        dsimp only at hso
        split_ifs at hso with heq
        cases hso
        rw [← heq]
        refine mem_append_right _ (mem_cons_of_mem _ ?_)
        exact List.mem_map_of_mem hm
  · cases hstep

theorem receiveOutput {paneId : PaneUuid} {isAccepted : Bool}
    (hstep : world.receiveOutput paneId isAccepted = some reached) : CallsOk reached := by
  have hev : CallsOk { world with history := world.history ++ [.event paneId] } :=
    h.growOne trivial ⟨nofun, nofun⟩
  unfold LinkWorld.receiveOutput at hstep
  split at hstep
  · split at hstep
    · cases hstep
      have hrefused : CallsOk { world with history := world.history ++ [.event paneId] ++ [.refusedOutput paneId] } :=
        hev.growOne trivial ⟨nofun, nofun⟩
      rw [append_assoc] at hrefused
      exact { hrefused with }
    · cases hstep
      exact hev
  · cases hstep

theorem receiveExit {paneId : PaneUuid} {exitStatus : PaneExitStatus}
    (hstep : world.receiveExit paneId exitStatus = some reached) : CallsOk reached := by
  unfold LinkWorld.receiveExit at hstep
  split at hstep
  · cases hstep
    have hev : CallsOk { world with history := world.history ++ [.event paneId] } :=
      h.growOne trivial ⟨nofun, nofun⟩
    have hrecorded : CallsOk { world with
        linkBook := world.linkBook.recordExit paneId exitStatus
        history := world.history ++ [.event paneId] } := hev.setBook rfl rfl id
    exact { hrecorded with }
  · cases hstep

theorem continueReader (hstep : world.continueReader = some reached) : CallsOk reached := by
  unfold LinkWorld.continueReader at hstep
  split at hstep
  · next paneId exitStatus _ =>
    split at hstep
    · cases hstep
      have hreported : CallsOk { world with history := world.history ++ [.reported paneId exitStatus] } :=
        h.growOne trivial ⟨nofun, nofun⟩
      exact { hreported with }
    · cases hstep
      exact { h with }
  · next paneId lost _ =>
    cases hstep
    have hreported : CallsOk { world with history := world.history ++ [.reported paneId unobservedExit] } :=
      h.growOne trivial ⟨nofun, nofun⟩
    exact { hreported with }
  · cases hstep
    exact { h with }
  · cases hstep

theorem closeLink {cause : LinkCloseCause} {lost : List PaneUuid}
    (hstep : world.closeLink cause lost = some reached) : CallsOk reached := by
  unfold LinkWorld.closeLink at hstep
  split at hstep
  · split at hstep
    · cases hstep
      have hsub : ∀ entry ∈ world.history, entry ∈ world.history ++ [.closed cause] :=
        fun entry => mem_append_left _
      refine {
        justified := h.justified.concat trivial
        registeredBelow := fun requestId requestKind hm => ?_
        openBook := nofun
        closedBook := fun _ => rfl
        callRegistered := fun callId requestKind phase requestId hca hid =>
          hsub _ (h.callRegistered callId requestKind phase requestId hca hid)
        callUnique := h.callUnique
        callSound := fun callId requestKind phase hca => (h.callSound callId requestKind phase hca).mono hsub
        answers := fun requestId answer' hans => hsub _ (h.answers requestId answer' hans) }
      rcases mem_append.1 hm with hm | hm
      · exact h.registeredBelow requestId requestKind hm
      · exact nomatch mem_singleton.1 hm
    · cases hstep
  · cases hstep

theorem step {action : LinkAction} (hstep : world.step action = some reached) : CallsOk reached := by
  cases action with
  | startCall requestKind => exact h.startCall hstep
  | continueCall callId written isTimedOut => exact h.continueCall hstep
  | continueConnect => exact h.continueConnect hstep
  | receiveResponse answer => exact h.receiveResponse hstep
  | receiveOutput paneId isAccepted => exact h.receiveOutput hstep
  | receiveExit paneId exitStatus => exact h.receiveExit hstep
  | continueReader => exact h.continueReader hstep
  | closeLink cause lostPaneIds => exact h.closeLink hstep

/-- **The calls stay in order, however they interleave.** -/
theorem run {actions : List LinkAction} (hrun : world.run actions = some reached) : CallsOk reached :=
  foldlM_invariant CallsOk (fun h hstep => h.step hstep) h hrun

end CallsOk

end Koshi.Pty
