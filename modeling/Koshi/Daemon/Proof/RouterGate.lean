import Mathlib.Logic.Relation
import Koshi.Daemon.RouterGate

/-!
# The router leaves no request behind

A request handed over is in one place, the queue or the list of those that wait, while its connection waits for the
answer. So a gate that closes with no connection open closes on an empty queue, and a restart begins once every request
is answered.
-/

namespace Koshi.Daemon

open Base List RouterWorld Relation

variable {α : Type} {w later : RouterWorld α} {connectionId : Nat}

def RouterEvent.findAsker : RouterEvent α → Option Nat
  | .request connectionId _ => some connectionId
  | _ => none

/-- The connections whose requests the dispatcher holds: those queued, then those that wait. -/
def RouterWorld.listHeld (w : RouterWorld α) : List Nat :=
  w.events.filterMap RouterEvent.findAsker ++ w.waiting.filterMap id

/-! ### One connection -/

/-- The requests held are those of the connections that wait for an answer, each held once. -/
def Holds (connections : OrdMap Nat (ConnectionThread α)) (held : List Nat) : Prop :=
  held.Nodup ∧ ∀ connectionId, connectionId ∈ held ↔ connections.get? connectionId = some .asked

section Holds

variable {connections : OrdMap Nat (ConnectionThread α)} {held : List Nat} {thread next : ConnectionThread α}

theorem size_modify (f : ConnectionThread α → ConnectionThread α) :
    (connections.modify connectionId f).size = connections.size := length_map _

theorem Holds.perm (h : Holds connections held) {held' : List Nat} (hperm : held.Perm held') :
    Holds connections held' :=
  ⟨hperm.nodup_iff.1 h.1, fun id => hperm.mem_iff.symm.trans (h.2 id)⟩

theorem Holds.not_mem (h : Holds connections held) (ht : connections.get? connectionId = some thread)
    (hne : thread ≠ .asked) : connectionId ∉ held := fun hm =>
  hne (Option.some_inj.1 (ht.symm.trans ((h.2 connectionId).1 hm)))

theorem Holds.keep (h : Holds connections held) (ht : connections.get? connectionId = some thread)
    (hne : thread ≠ .asked) (hnext : next ≠ .asked) : Holds (connections.modify connectionId fun _ => next) held := by
  refine ⟨h.1, fun id => ?_⟩
  rw [OrdMap.get?_modify, ht]
  split_ifs with heq
  · rw [heq]
    exact iff_of_false (h.not_mem ht hne) fun hsome => hnext (Option.some_inj.1 hsome)
  · exact h.2 id

theorem Holds.ask (h : Holds connections held) (ht : connections.get? connectionId = some thread)
    (hne : thread ≠ .asked) : Holds (connections.modify connectionId fun _ => .asked) (connectionId :: held) := by
  refine ⟨nodup_cons.2 ⟨h.not_mem ht hne, h.1⟩, fun id => ?_⟩
  rw [OrdMap.get?_modify, ht, mem_cons]
  split_ifs with heq
  · exact iff_of_true (.inl heq) rfl
  · rw [h.2 id, or_iff_right heq]

theorem Holds.answer (h : Holds connections (connectionId :: held)) (hnext : next ≠ .asked) :
    Holds (connections.modify connectionId fun _ => next) held := by
  obtain ⟨hnot, hnd⟩ := nodup_cons.1 h.1
  refine ⟨hnd, fun id => ?_⟩
  rw [OrdMap.get?_modify, (h.2 connectionId).1 mem_cons_self]
  split_ifs with heq
  · rw [heq]
    exact iff_of_false hnot fun hsome => hnext (Option.some_inj.1 hsome)
  · rw [← h.2 id, mem_cons, or_iff_right heq]

theorem Holds.insert (h : Holds connections held) (hnew : connections.get? connectionId = none)
    (hne : thread ≠ .asked) :
    Holds (connections.insert connectionId thread) held := by
  refine ⟨h.1, fun id => ?_⟩
  rw [h.2 id, OrdMap.get?_insert]
  split_ifs with heq
  · rw [heq, hnew]
    exact iff_of_false (by simp) fun hsome => hne (Option.some_inj.1 hsome)
  · rfl

theorem Holds.erase (h : Holds connections held) (ht : connections.get? connectionId = some thread)
    (hne : thread ≠ .asked) : Holds (connections.erase connectionId) held := by
  refine ⟨h.1, fun id => ?_⟩
  rw [h.2 id, OrdMap.get?_erase]
  split_ifs with heq
  · rw [heq, ht]
    exact iff_of_false (fun hsome => hne (Option.some_inj.1 hsome)) (by simp)
  · rfl

end Holds

/-! ### The whole router -/

namespace RouterWorld

/-- What the intake and the requests held are in each phase of the dispatcher. -/
def PhaseOk (w : RouterWorld α) : Prop :=
  match w.phase with
  | .serving | .idleTimedOut => w.gate.intake = .open
  | .draining => w.gate.intake = .restarting ∧ w.isRestartPending = true ∧ w.waiting = []
  | .restarting => w.gate.intake = .restarting ∧ w.listHeld = []
  | .handingOver | .ended .restart => w.gate.intake = .closed ∧ w.listHeld = []
  | .ended .idle => w.connections.size = 0
  | .ended .childReaperFailed => True

structure Sound (w : RouterWorld α) : Prop where
  count_eq : w.gate.openConnectionCount = w.connections.size
  holds : Holds w.connections w.listHeld
  phaseOk : w.PhaseOk

theorem sound_start (isSessionLost : Bool) : (start isSessionLost : RouterWorld α).Sound :=
  ⟨rfl, ⟨nodup_nil, fun _ => iff_of_false not_mem_nil nofun⟩, rfl⟩

/-- A phase holds on with the same intake, waiting list and pending restart, when no request is held that was not. -/
theorem PhaseOk.congr (h : w.PhaseOk) (hrun : w.IsRunning) (hphase : later.phase = w.phase)
    (hintake : later.gate.intake = w.gate.intake) (hpending : w.isRestartPending = true → later.isRestartPending = true)
    (hwaits : w.waiting = [] → w.phase = .draining → later.waiting = [])
    (hheld : w.gate.intake ≠ .open → w.listHeld = [] → later.listHeld = []) : later.PhaseOk := by
  unfold PhaseOk at h ⊢
  rw [hphase, hintake]
  cases hp : w.phase with
  | serving | idleTimedOut =>
    rw [hp] at h
    exact h
  | draining =>
    rw [hp] at h
    exact ⟨h.1, hpending h.2.1, hwaits h.2.2 hp⟩
  | restarting | handingOver =>
    rw [hp] at h
    exact ⟨h.1, hheld (by rw [h.1]; nofun) h.2⟩
  | ended routerExit => exact absurd hp (hrun routerExit)

theorem askDispatcher_handedOver {gate : RouterGateState} {requestKind : RouterRequestKind α}
    (h : gate.askDispatcher requestKind = .handedOver) : gate.intake = .open := by
  unfold RouterGateState.askDispatcher at h
  cases hintake : gate.intake with
  | «open» => rfl
  | restarting =>
    rw [hintake] at h
    cases requestKind <;> cases h
  | closed =>
    rw [hintake] at h
    cases h

theorem serveRouterRequest_waits {lookup : Option (RouterResult α)} {result : RouterResult α}
    {requestKind : RouterRequestKind α} {isRestartPending : Bool}
    (h : serveRouterRequest isRestartPending lookup result requestKind = none) : isRestartPending = false := by
  cases isRestartPending with
  | false => rfl
  | true => cases requestKind <;> cases h

theorem filterMap_erase_none (waiting : List (Option Nat)) :
    (waiting.erase none).filterMap id = waiting.filterMap id := by
  induction waiting with
  | nil => rfl
  | cons waiter waiting ih =>
    cases waiter with
    | none => rfl
    | some i => rw [erase_cons_tail (by simp), filterMap_cons, filterMap_cons, ih]

section Step

variable (h : w.Sound) (hrun : w.IsRunning)

include h hrun

theorem Sound.endConnection {thread : ConnectionThread α} (ht : w.connections.get? connectionId = some thread)
    (hne : thread ≠ .asked) : (w.endConnection connectionId).Sound := by
  refine ⟨?_, h.holds.erase ht hne, h.phaseOk.congr hrun rfl rfl id (fun hw _ => hw) fun _ hheld => hheld⟩
  have hsize := w.connections.size_erase ht
  have hcount := h.count_eq
  simp only [RouterWorld.endConnection, RouterGateState.dropConnection]
  omega

theorem Sound.setThread {thread next : ConnectionThread α} (ht : w.connections.get? connectionId = some thread)
    (hne : thread ≠ .asked) (hnext : next ≠ .asked) :
    (w.setThread connectionId next).Sound :=
  ⟨h.count_eq.trans (size_modify _).symm, h.holds.keep ht hne hnext,
    h.phaseOk.congr hrun rfl rfl id (fun hw _ => hw) fun _ hheld => hheld⟩

/-- A step that leaves the connections and the requests held alone. -/
theorem Sound.same (hgate : later.gate = w.gate) (hconnections : later.connections = w.connections)
    (hheld : later.listHeld = w.listHeld) (hphase : later.phase = w.phase)
    (hpending : w.isRestartPending = true → later.isRestartPending = true)
    (hwaits : w.waiting = [] → w.phase = .draining → later.waiting = []) : later.Sound :=
  ⟨by rw [hgate, hconnections]; exact h.count_eq, by rw [hconnections, hheld]; exact h.holds,
    h.phaseOk.congr hrun hphase (by rw [hgate]) hpending hwaits fun _ hnil => hheld.trans hnil⟩

theorem Sound.report {ev : RouterEvent α} (hev : ev.findAsker = none) :
    ({ w with events := w.events ++ [ev] } : RouterWorld α).Sound :=
  h.same hrun rfl rfl (by simp [listHeld, hev]) rfl id fun hw _ => hw

theorem Sound.handOver (ht : w.connections.get? connectionId = some .reading) (hopen : w.gate.intake = .open)
    (requestKind : RouterRequestKind α) : ({ w.setThread connectionId .asked with
      events := w.events ++ [.request connectionId requestKind] } : RouterWorld α).Sound := by
  refine ⟨h.count_eq.trans (size_modify _).symm, (h.holds.ask ht nofun).perm ?_,
    h.phaseOk.congr hrun rfl rfl id (fun hw _ => hw) fun hne => absurd hopen hne⟩
  simp only [listHeld, RouterWorld.setThread, filterMap_append, filterMap_cons, filterMap_nil, RouterEvent.findAsker,
    append_assoc, singleton_append]
  exact perm_middle.symm

theorem Sound.threadStep (hstep : ThreadStep w later) : later.Sound := by
  cases hstep with
  | @opens i gate hnew hgate =>
    unfold RouterGateState.admitConnection at hgate
    split_ifs at hgate
    cases hgate
    have hsize := (w.connections.perm_insert .reading hnew).length_eq
    exact ⟨(congrArg (· + 1) h.count_eq).trans hsize.symm, h.holds.insert hnew nofun,
      h.phaseOk.congr hrun rfl rfl id (fun hw _ => hw) fun _ hheld => hheld⟩
  | ends ht hne => exact h.endConnection hrun ht hne
  | ask ht requestKind =>
    unfold RouterWorld.askDispatcher
    cases hasked : w.gate.askDispatcher requestKind with
    | handedOver => exact h.handOver hrun ht (askDispatcher_handedOver hasked) requestKind
    | answered result => exact h.setThread hrun ht (fun heq => by cases heq) (fun heq => by cases heq)
    | unanswered => exact h.endConnection hrun ht (fun heq => by cases heq)
  | @write i result ht =>
    have hset : (w.setThread i .reading).Sound :=
      h.setThread hrun ht (fun heq => by cases heq) (fun heq => by cases heq)
    cases result with
    | restarting => exact hset.report hrun rfl
    | _ => exact hset
  | @report ev hev =>
    refine h.report hrun ?_
    cases ev with
    | request i requestKind => exact absurd rfl (hev i requestKind)
    | _ => rfl

/-! ### The dispatcher -/

theorem Sound.serveRequest {requestKind : RouterRequestKind α} {events : List (RouterEvent α)}
    (hevs : w.events = .request connectionId requestKind :: events) (lookup : Option (RouterResult α))
    (result : RouterResult α) :
    ({ w with events }.serveRouterEvent lookup result (.request connectionId requestKind)).Sound := by
  have hheld : w.listHeld = connectionId :: (events.filterMap RouterEvent.findAsker ++ w.waiting.filterMap id) := by
    rw [listHeld, hevs]
    rfl
  have hne : w.listHeld ≠ [] := by rw [hheld]; exact cons_ne_nil _ _
  have hholds := h.holds
  rw [hheld] at hholds
  unfold RouterWorld.serveRouterEvent
  dsimp only
  cases hserve : serveRouterRequest w.isRestartPending lookup result requestKind with
  | some answer =>
    exact ⟨h.count_eq.trans (size_modify _).symm, hholds.answer (fun heq => by cases heq),
      h.phaseOk.congr hrun rfl rfl id (fun hw _ => hw) fun _ hnil => absurd hnil hne⟩
  | none =>
    have hpending := serveRouterRequest_waits hserve
    refine ⟨h.count_eq, hholds.perm ?_, h.phaseOk.congr hrun rfl rfl id (fun _ hdrains => ?_) fun _ hnil =>
      absurd hnil hne⟩
    · simp only [listHeld, filterMap_append, filterMap_cons, filterMap_nil, id]
      rw [← append_assoc]
      exact (perm_append_singleton _ _).symm
    · have hphase := h.phaseOk
      unfold PhaseOk at hphase
      rw [hdrains] at hphase
      cases hpending.symm.trans hphase.2.1

theorem Sound.serve {ev : RouterEvent α} {events : List (RouterEvent α)} (hevs : w.events = ev :: events)
    (lookup : Option (RouterResult α))
    (result : RouterResult α) : ({ w with events }.serveRouterEvent lookup result ev).Sound := by
  cases ev with
  | request i requestKind => exact h.serveRequest hrun hevs lookup result
  | restartDue => exact h.same hrun rfl rfl (by rw [listHeld, listHeld, hevs]; rfl) rfl (fun _ => rfl) fun hw _ => hw
  | admission isLocate =>
    rw [serveRouterEvent]
    split_ifs with hwaits
    · refine h.same hrun rfl rfl
        (by rw [listHeld, listHeld, hevs, filterMap_append]; exact congrArg _ (append_nil _)) rfl id fun _ hdrains => ?_
      have hphase := h.phaseOk
      unfold PhaseOk at hphase
      rw [hdrains] at hphase
      rw [hphase.2.1] at hwaits
      cases isLocate <;> cases hwaits
    · exact h.same hrun rfl rfl (by rw [listHeld, listHeld, hevs]; rfl) rfl id fun hw _ => hw
  | report => exact h.same hrun rfl rfl (by rw [listHeld, listHeld, hevs]; rfl) rfl id fun hw _ => hw

omit hrun in
theorem Sound.advance (hphase : w.phase = .serving) (hwaits : some connectionId ∈ w.waiting)
    (result : RouterResult α) : ({ w.setThread connectionId (.answered result) with
      waiting := w.waiting.erase (some connectionId) } : RouterWorld α).Sound := by
  have hperm : w.listHeld.Perm
      (connectionId :: (w.events.filterMap RouterEvent.findAsker ++
        (w.waiting.erase (some connectionId)).filterMap id)) :=
    (((perm_cons_erase hwaits).filterMap id).append_left _).trans perm_middle
  refine ⟨h.count_eq.trans (size_modify _).symm, (h.holds.perm hperm).answer (fun heq => by cases heq), ?_⟩
  have hopen := h.phaseOk
  unfold PhaseOk at hopen ⊢
  rw [hphase] at hopen
  dsimp only [RouterWorld.setThread]
  rw [hphase]
  exact hopen

theorem Sound.dispatcherStep (hstep : DispatcherStep w later) : later.Sound := by
  have hphase' := h.phaseOk
  unfold PhaseOk at hphase'
  cases hstep with
  | advance hphase hwaits result => exact h.advance hphase hwaits result
  | advanceRemote hphase =>
    exact h.same hrun rfl rfl (by rw [listHeld, listHeld, filterMap_erase_none]) rfl id fun hw _ => by rw [hw]; rfl
  | listSessions isSessionListed => exact h.same hrun rfl rfl rfl rfl id fun hw _ => hw
  | refuse hphase hpending hwaits => exact ⟨h.count_eq, h.holds, rfl, hpending, hwaits⟩
  | serve hevs hphase lookup result => exact h.serve hrun hevs lookup result
  | drained hphase hevs =>
    rw [hphase] at hphase'
    exact ⟨h.count_eq, h.holds, hphase'.1, by simp [listHeld, hevs, hphase'.2.2]⟩
  | timeOut hphase _ hwaits _ hevs =>
    rw [hphase] at hphase'
    exact ⟨h.count_eq, h.holds, hphase'⟩
  | closeIdle hphase =>
    rw [hphase] at hphase'
    by_cases hcnt : w.gate.openConnectionCount > 0
    · have hclose : w.gate.closeIfNoConnectionIsOpen = (false, w.gate) := if_pos hcnt
      rw [hclose]
      exact ⟨h.count_eq, h.holds, hphase'⟩
    · have hclose : w.gate.closeIfNoConnectionIsOpen = (true, w.gate.closeIntake) := if_neg hcnt
      rw [hclose]
      exact ⟨h.count_eq, h.holds, h.count_eq.symm.trans (Nat.eq_zero_of_not_pos hcnt)⟩
  | reapFails hphase => exact ⟨h.count_eq, h.holds, trivial⟩
  | closeOnceConnectionsEnd hphase =>
    rw [hphase] at hphase'
    exact ⟨h.count_eq, h.holds, rfl, hphase'.2⟩
  | handOver hphase =>
    rw [hphase] at hphase'
    exact ⟨h.count_eq, h.holds, hphase'⟩
  | serveOn hphase => exact ⟨h.count_eq, h.holds, rfl⟩

end Step

theorem sound_run {isSessionLost : Bool} (hrun : ReflTransGen RouterStep (start isSessionLost) w) : w.Sound := by
  induction hrun with
  | refl => exact sound_start isSessionLost
  | tail _ hstep h =>
    rcases hstep.2 with hthread | hdispatcher
    · exact h.threadStep hstep.1 hthread
    · exact h.dispatcherStep hstep.1 hdispatcher

/-! ### A pending restart -/

theorem waiting_threadStep (hstep : ThreadStep w later) :
    later.waiting = w.waiting ∧ later.isRestartPending = w.isRestartPending := by
  cases hstep with
  | ask ht requestKind =>
    unfold RouterWorld.askDispatcher
    split <;> exact ⟨rfl, rfl⟩
  | @write i result ht => cases result <;> exact ⟨rfl, rfl⟩
  | _ => exact ⟨rfl, rfl⟩

theorem waiting_serveEvent (hpending : w.isRestartPending = true) (lookup : Option (RouterResult α))
    (result : RouterResult α) (ev : RouterEvent α) :
    (w.serveRouterEvent lookup result ev).waiting = w.waiting ∧
      (w.serveRouterEvent lookup result ev).isRestartPending = true := by
  cases ev with
  | request i requestKind =>
    unfold RouterWorld.serveRouterEvent
    dsimp only
    cases hserve : serveRouterRequest w.isRestartPending lookup result requestKind with
    | some answer => exact ⟨rfl, hpending⟩
    | none => cases hpending.symm.trans (serveRouterRequest_waits hserve)
  | restartDue => exact ⟨rfl, rfl⟩
  | admission isLocate =>
    rw [RouterWorld.serveRouterEvent, hpending, if_neg (by simp)]
    exact ⟨rfl, hpending⟩
  | report => exact ⟨rfl, hpending⟩

/-- While a restart is pending, a step lets no request join those that wait, and only the restart takes it back. -/
theorem waiting_dispatcherStep (hpending : w.isRestartPending = true) (hstep : DispatcherStep w later) :
    later.waiting.Sublist w.waiting ∧ (later.isRestartPending = true ∨ later.phase = .restarting) := by
  cases hstep with
  | advance hphase hwaits result => exact ⟨erase_sublist, .inl hpending⟩
  | advanceRemote hphase => exact ⟨erase_sublist, .inl hpending⟩
  | @serve ev events hevs hphase lookup result =>
    have hpending' : ({ w with events } : RouterWorld α).isRestartPending = true := hpending
    obtain ⟨hsame, hstill⟩ := waiting_serveEvent hpending' lookup result ev
    exact ⟨by rw [hsame], .inl hstill⟩
  | drained hphase hevs => exact ⟨.refl _, .inr rfl⟩
  | _ => exact ⟨.refl _, .inl hpending⟩

end RouterWorld

/-- **The router leaves no request behind.** In every order of the connections' threads and the dispatcher's steps, the
connections that wait for an answer are those whose request is queued or waits, each request in one place. When the
router goes idle no connection is open, and from the moment it restarts no connection waits for an answer. -/
theorem routerGate_answersAll (isSessionListed : Bool) {w : RouterWorld α}
    (hrun : ReflTransGen RouterStep (start isSessionListed) w) :
    w.gate.openConnectionCount = w.connections.size ∧
    w.listHeld.Nodup ∧
    (∀ connectionId, connectionId ∈ w.listHeld ↔ w.connections.get? connectionId = some .asked) ∧
    (w.phase = .ended .idle → ∀ connectionId, w.connections.get? connectionId = none) ∧
    (w.phase = .restarting ∨ w.phase = .handingOver ∨ w.phase = .ended .restart →
      ∀ connectionId, w.connections.get? connectionId ≠ some .asked) := by
  have hsound := sound_run hrun
  have hphase' := hsound.phaseOk
  unfold PhaseOk at hphase'
  refine ⟨hsound.count_eq, hsound.holds.1, hsound.holds.2, fun hphase => ?_, fun hphase i hasked => ?_⟩
  · rw [hphase] at hphase'
    exact w.connections.size_eq_zero_iff.1 hphase'
  · have hheld : w.listHeld = [] := by
      rcases hphase with hphase | hphase | hphase
      all_goals
        rw [hphase] at hphase'
        exact hphase'.2
    have hm := (hsound.holds.2 i).2 hasked
    rw [hheld] at hm
    exact not_mem_nil hm

/-- One connection asks for a restart, and the router drains for it. -/
theorem routerGate_answersAll_restart : ∃ w : RouterWorld Unit, w.phase = .restarting ∧
    ∀ connectionId, w.connections.get? connectionId ≠ some .asked := by
  obtain ⟨w, hrun, hphase⟩ : ∃ w : RouterWorld Unit, ReflTransGen RouterStep (start true) w ∧ w.phase = .restarting :=
    ⟨_, ReflTransGen.refl
      |>.tail ⟨fun _ => nofun, .inl (@ThreadStep.opens Unit _ 0 _ rfl rfl)⟩
      |>.tail ⟨fun _ => nofun, .inl (@ThreadStep.ask Unit _ 0 rfl .restart)⟩
      |>.tail ⟨fun _ => nofun, .inr (.serve rfl (.inr ⟨rfl, by decide⟩) none .restarting)⟩
      |>.tail ⟨fun _ => nofun, .inl (@ThreadStep.write Unit _ 0 .restarting rfl)⟩
      |>.tail ⟨fun _ => nofun, .inr (.serve rfl (.inr ⟨rfl, by decide⟩) none .restarting)⟩
      |>.tail ⟨fun _ => nofun, .inr (.refuse rfl rfl rfl)⟩
      |>.tail ⟨fun _ => nofun, .inr (.drained rfl rfl)⟩, rfl⟩
  exact ⟨w, hphase, (routerGate_answersAll true hrun).2.2.2.2 (.inl hphase)⟩

/-- **No request postpones a pending restart.** Once a restart is pending, the requests that wait are some of those that
waited then, until the router gives up its loop for the restart. -/
theorem routerRestart_notPostponed {w later : RouterWorld α} (hpending : w.isRestartPending = true)
    (hrun : ReflTransGen RouterStep w later) :
    later.waiting.Sublist w.waiting ∨ ∃ between, ReflTransGen RouterStep w between ∧ between.phase = .restarting ∧
      ReflTransGen RouterStep between later := by
  suffices h : later.waiting.Sublist w.waiting ∧ later.isRestartPending = true ∨
      ∃ between, ReflTransGen RouterStep w between ∧ between.phase = .restarting ∧
        ReflTransGen RouterStep between later from h.imp_left And.left
  induction hrun with
  | refl => exact .inl ⟨.refl _, hpending⟩
  | tail hrun hstep ih =>
    rcases ih with ⟨hsub, hstill⟩ | ⟨between, hb, hphase, hrest⟩
    · rcases hstep.2 with hthread | hdispatcher
      · obtain ⟨hsame, hkept⟩ := waiting_threadStep hthread
        exact .inl ⟨by rw [hsame]; exact hsub, hkept.trans hstill⟩
      · obtain ⟨hshorter, hnext | hphase⟩ := waiting_dispatcherStep hstill hdispatcher
        · exact .inl ⟨hshorter.trans hsub, hnext⟩
        · exact .inr ⟨_, hrun.tail hstep, hphase, .refl⟩
    · exact .inr ⟨between, hb, hphase, hrest.tail hstep⟩

/-- A remote attach that comes while another waits for the restart. -/
def locatingWorld : RouterWorld Unit :=
  { start false with waiting := [none], events := [.admission true], isRestartPending := true }

/-- The attach is served, and does not join the one that waits. -/
theorem routerRestart_notPostponed_locate : ∃ later, RouterStep locatingWorld later ∧
    later = { locatingWorld with events := [] }.serveRouterEvent none .restarting (.admission true) ∧
    (later.waiting.Sublist locatingWorld.waiting ∨ ∃ between, ReflTransGen RouterStep locatingWorld between ∧
      between.phase = .restarting ∧ ReflTransGen RouterStep between later) := by
  have hstep : RouterStep locatingWorld
      ({ locatingWorld with events := [] }.serveRouterEvent none .restarting (.admission true)) :=
    ⟨fun _ => by simp [locatingWorld, start], .inr (.serve rfl (.inr ⟨rfl, by decide⟩) none .restarting)⟩
  exact ⟨_, hstep, rfl, routerRestart_notPostponed rfl (.single hstep)⟩

end Koshi.Daemon
