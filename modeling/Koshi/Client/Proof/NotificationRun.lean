import Koshi.Client.Proof.NotificationHistory
import Koshi.Core.Proof.Notification

/-!
# The notification history over any run

The operations on a history either only show or drop entries, or are arrivals. Each kind has one lemma, and the run
follows by induction over the operations.
-/

namespace Koshi.Client

open Koshi.Core List Option Function NotificationToastQueue NotificationQueue

/-- What can happen to a viewer's history. -/
inductive HistoryOperation where
  | post (severity : NotificationSeverity) (text : List Char) (postCount createdAt : Nat) (shows : Bool)
  | takeQueue (sessionId : SessionId) (queue : NotificationQueue) (shows : Bool)
  | takePost (revision : Nat) (postedEntry : NotificationEntry) (shows : Bool)
  | dismiss (notificationId : NotificationId)
  | clear
  | selectAdjacent (isNewer : Bool)
  | select (notificationId : NotificationId)
  | openCenter (shouldReduceMotion : Bool)
  | closeCenter (shouldReduceMotion : Bool)
  | removeCenter
  | scroll (scrollRowOffset : Nat)
  | advance (now : Nat) (timing : ToastTiming) (isPaused : Bool)
  | withdraw (toastNumber : Nat)

/-- The entries the session sends in an operation, taken or not. -/
def HistoryOperation.listReceivedEntries : HistoryOperation → List NotificationEntry
  | .takeQueue _ queue _ => queue.queuedEntries
  | .takePost _ postedEntry _ => [postedEntry]
  | _ => []

def HistoryOperation.bringsEntries : HistoryOperation → Bool
  | .post .. | .takeQueue .. | .takePost .. => true
  | _ => false

namespace NotificationHistory

variable {history next : NotificationHistory} {isSessionLocal : Bool} {arrivals : List NotificationEntry}
  {fits : NotificationId × NotificationSeverity → Prop} {arrived entry : NotificationEntry}

section Steps

variable (slide : Nat → Nat → Nat → Nat → Nat)

def apply (history : NotificationHistory) : HistoryOperation → NotificationHistory
  | .post severity text postCount createdAt shows =>
    history.postCoreEntry severity text postCount createdAt shows
  | .takeQueue sessionId queue shows => (history.takeSessionQueue sessionId queue shows).1
  | .takePost revision postedEntry shows => (history.takeSessionPost revision postedEntry shows).1
  | .dismiss notificationId => history.dismissMergedEntry notificationId
  | .clear => history.clearMergedEntries
  | .selectAdjacent isNewer => (history.selectAdjacentEntry isNewer).1
  | .select notificationId => history.selectEntry notificationId
  | .openCenter shouldReduceMotion => history.openNotificationCenter shouldReduceMotion
  | .closeCenter shouldReduceMotion => history.closeNotificationCenter shouldReduceMotion
  | .removeCenter => history.removeNotificationCenter
  | .scroll scrollRowOffset => history.setNotificationCenterScrollRowOffset scrollRowOffset
  | .advance now timing isPaused =>
    history.advanceNotificationClocks slide now timing isPaused
  | .withdraw toastNumber => history.requestToastWithdraw toastNumber

def runOperations (clientId : ClientId) (epoch : NotificationEpoch) (isSessionLocal : Bool)
    (ops : List HistoryOperation) : NotificationHistory :=
  ops.foldl (apply slide) ((fromClientId clientId epoch).setSessionLocal isSessionLocal)

end Steps

/-! ### Showing and dropping entries -/

/-- What an operation keeps that takes no entry. -/
structure Shrinks (history next : NotificationHistory) : Prop where
  merged : next.mergedEntries.Sublist history.mergedEntries
  clientQueue : next.clientQueue = history.clientQueue
  sessionQueueMark : next.sessionQueueMark = history.sessionQueueMark
  isSessionLocal : next.isSessionLocal = history.isSessionLocal
  entries : EntriesSound next
  previews : ∀ {fits : NotificationId × NotificationSeverity → Prop},
    PreviewsSound fits (fun _ => False) history.mergedEntries history.notificationToast →
      PreviewsSound fits (fun _ => False) next.mergedEntries next.notificationToast

theorem Shrinks.refl (h : EntriesSound history) : Shrinks history history :=
  ⟨List.Sublist.refl _, rfl, rfl, rfl, h, id⟩

theorem shrinks_dismiss (h : EntriesSound history) (noteId : NotificationId) :
    Shrinks history (history.dismissMergedEntry noteId) := by
  unfold dismissMergedEntry
  rcases hidx : history.findMergedEntryIndex noteId with _ | index
  · exact .refl h
  obtain ⟨entry, hg, hid⟩ := findMergedEntryIndex_eq_some hidx
  obtain ⟨next, hrm, hmg, hsn, hs, ht, -⟩ := removeMergedEntryAt_spec h hg
  dsimp only
  rw [hrm]
  refine ⟨?_, hs.clientQueue, hs.sessionQueueMark, hs.isSessionLocal, ?_, fun hpv => ?_⟩
  · rw [hmg]
    exact eraseIdx_sublist ..
  · exact ⟨hsn.nodup, hsn.bounded, hsn.unread, hsn.unreadOpen, hsn.selected, hsn.selects⟩
  · simp only [hmg, ht]
    rw [eraseIdx_eq_filter h.nodup hg, hid]
    exact hpv.remove noteId

theorem shrinks_clear : Shrinks history history.clearMergedEntries := by
  refine ⟨nil_sublist _, rfl, rfl, rfl, ⟨nodup_nil, Nat.zero_le _, Nat.zero_le _, fun _ => rfl, ?_, ?_⟩, ?_⟩
  · intro center hm noteId hsel
    obtain ⟨_, -, rfl⟩ := map_eq_some_iff.mp hm
    cases hsel
  · intro _ _ _ hne
    exact absurd rfl hne
  · intro _ _
    exact sound_clearPreviews

theorem shrinks_select (h : EntriesSound history) {noteId : NotificationId} (hh : noteId ∈ history.listMergedIds) :
    Shrinks history (history.setSelectedNotificationId (some noteId)) := by
  have hsn := h.select hh
  have hs := history.sameQueues_setSelectedId (some noteId)
  obtain ⟨revision, heq⟩ := history.setSelectedId_eq (some noteId)
  rw [heq] at hsn hs ⊢
  exact ⟨List.Sublist.refl _, rfl, rfl, rfl, hsn, id⟩

theorem findAdjacentEntry_held {isNewer : Bool} {noteId : NotificationId}
    (h : history.findAdjacentEntry isNewer = some noteId) : noteId ∈ history.listMergedIds := by
  unfold findAdjacentEntry at h
  simp only [bind_eq_bind, bind_eq_some_iff, Option.pure_def, Option.some.injEq] at h
  obtain ⟨_, -, _, -, _, -, nextEntry, hn, rfl⟩ := h
  refine List.mem_map_of_mem ?_
  unfold findEntryBeside at hn
  split at hn
  · exact mem_of_getElem? hn
  · split at hn
    · cases hn
    · exact mem_of_getElem? hn

section

variable (h : EntriesSound history)

include h

theorem shrinks_selectAdjacent (isNewer : Bool) : Shrinks history (history.selectAdjacentEntry isNewer).1 := by
  unfold selectAdjacentEntry
  rcases hfo : history.findAdjacentEntry isNewer with _ | noteId
  · exact .refl h
  · exact shrinks_select h (findAdjacentEntry_held hfo)

theorem shrinks_selectEntry (noteId : NotificationId) : Shrinks history (history.selectEntry noteId) := by
  unfold selectEntry
  split
  · rename_i hh
    rw [Bool.and_eq_true, isSome_iff_exists] at hh
    obtain ⟨-, index, hidx⟩ := hh
    obtain ⟨entry, hg, rfl⟩ := findMergedEntryIndex_eq_some hidx
    exact shrinks_select h (List.mem_map_of_mem (mem_of_getElem? hg))
  · exact .refl h

theorem shrinks_open (shouldReduceMotion : Bool) :
    Shrinks history (history.openNotificationCenter shouldReduceMotion) := by
  unfold openNotificationCenter
  split
  · exact .refl h
  refine ⟨List.Sublist.refl _, rfl, rfl, rfl, ⟨h.nodup, h.bounded, Nat.zero_le _, fun _ => rfl, ?_, ?_⟩, ?_⟩
  · rintro _ ⟨⟩ noteId hsel
    obtain ⟨entry, hl, rfl⟩ := map_eq_some_iff.mp hsel
    exact List.mem_map_of_mem (mem_of_getLast? hl)
  · rintro _ ⟨⟩ _ hne
    rw [isSome_map, List.getLast?_isSome]
    exact hne
  · intro _ _
    exact sound_clearPreviews

theorem shrinks_center {center : Option NotificationCenterState} (revision : Nat)
    (hcenter : ∀ centerState ∈ center, ∃ before ∈ history.notificationCenter,
      centerState.selectedNotificationId = before.selectedNotificationId ∧
        (centerState.slide.isClosing = false → before.slide.isClosing = false)) :
    Shrinks history { history with notificationCenter := center, revision } := by
  refine ⟨List.Sublist.refl _, rfl, rfl, rfl, ⟨h.nodup, h.bounded, h.unread, ?_, ?_, ?_⟩, id⟩
  · intro hop
    unfold isNotificationCenterOpen findOpenCenterState at hop
    obtain ⟨centerState, hfo⟩ := isSome_iff_exists.mp hop
    obtain ⟨hm, hnotClosing⟩ := filter_eq_some_iff.mp hfo
    obtain ⟨before, hb, -, hcl⟩ := hcenter centerState hm
    refine h.unreadOpen ?_
    unfold isNotificationCenterOpen findOpenCenterState
    rw [hb]
    simp [Option.filter, hcl (by simpa using hnotClosing)]
  · intro centerState hm noteId hsel
    obtain ⟨before, hb, hs, -⟩ := hcenter centerState hm
    exact h.selected before hb noteId (hs ▸ hsel)
  · intro centerState hm hnotClosing hne
    obtain ⟨before, hb, hs, hcl⟩ := hcenter centerState hm
    rw [hs]
    exact h.selects before hb (hcl hnotClosing) hne

theorem shrinks_close (shouldReduceMotion : Bool) :
    Shrinks history (history.closeNotificationCenter shouldReduceMotion) := by
  unfold closeNotificationCenter
  rcases hfo : history.findOpenCenterState with _ | center
  · exact .refl h
  obtain ⟨hm, -⟩ := filter_eq_some_iff.mp hfo
  refine shrinks_center h _ fun next hn => ?_
  split at hn
  · cases hn
  · cases hn
    exact ⟨center, hm, rfl, fun hfalse => absurd hfalse (by simp [NotificationCenterSlide.fromStart])⟩

theorem shrinks_removeCenter : Shrinks history history.removeNotificationCenter := by
  unfold removeNotificationCenter
  split
  · refine shrinks_center h _ ?_
    rintro _ ⟨⟩
  · exact .refl h

theorem shrinks_scroll (rowOffset : Nat) :
    Shrinks history (history.setNotificationCenterScrollRowOffset rowOffset) := by
  unfold setNotificationCenterScrollRowOffset
  rcases hfo : history.findOpenCenterState with _ | center
  · exact .refl h
  obtain ⟨hm, -⟩ := filter_eq_some_iff.mp hfo
  dsimp only
  split
  · refine shrinks_center h _ ?_
    rintro _ ⟨⟩
    exact ⟨center, hm, rfl, id⟩
  · exact .refl h

end

variable {toast : NotificationToastQueue}

theorem shrinks_toast (h : EntriesSound history) (revision : Nat)
    (ht : ∀ {fits : NotificationId × NotificationSeverity → Prop},
      PreviewsSound fits (fun _ => False) history.mergedEntries history.notificationToast →
        PreviewsSound fits (fun _ => False) history.mergedEntries toast) :
    Shrinks history { history with notificationToast := toast, revision } :=
  ⟨List.Sublist.refl _, rfl, rfl, rfl, ⟨h.nodup, h.bounded, h.unread, h.unreadOpen, h.selected, h.selects⟩, ht⟩

theorem shrinks_withdraw (h : EntriesSound history) (toastNumber : Nat) :
    Shrinks history (history.requestToastWithdraw toastNumber) := by
  unfold requestToastWithdraw
  split
  · exact shrinks_toast h history.revision NotificationToastQueue.Sound.requestWithdraw
  · exact .refl h

theorem Shrinks.trans {last : NotificationHistory} (hf : Shrinks history next)
    (hse : Shrinks next last) : Shrinks history last :=
  ⟨hse.merged.trans hf.merged, hse.clientQueue.trans hf.clientQueue,
    hse.sessionQueueMark.trans hf.sessionQueueMark, hse.isSessionLocal.trans hf.isSessionLocal,
    hse.entries, fun hpv => hse.previews (hf.previews hpv)⟩

theorem shrinks_advance (slide : Nat → Nat → Nat → Nat → Nat) (h : EntriesSound history) (now : Nat)
    (timing : ToastTiming) (isPaused : Bool) :
    Shrinks history (history.advanceNotificationClocks slide now timing isPaused) := by
  have ht : ∀ revision, Shrinks history { history with
      notificationToast := (history.notificationToast.advance now timing isPaused).1
      revision } :=
    fun revision => shrinks_toast h revision fun hpv =>
      NotificationToastQueue.Sound.advance hpv now timing isPaused
  unfold advanceNotificationClocks
  dsimp only
  split
  · exact ht _
  · rename_i center hcenter
    split
    · refine (ht history.revision).trans (shrinks_center (ht history.revision).entries _ ?_)
      rintro _ ⟨⟩
    · refine (ht history.revision).trans (shrinks_center (ht history.revision).entries _ ?_)
      rintro _ ⟨⟩
      refine ⟨center, hcenter, rfl, fun hcl => ?_⟩
      unfold advanceSlide at hcl
      split at hcl <;> exact hcl

/-! ### The invariant of a run -/

/-- No own entry has the severity and text of a session entry from koshi. -/
def NoOwnCopies (entries : List NotificationEntry) : Prop :=
  ∀ own ∈ entries, ∀ held ∈ entries, isSessionEntry own = false → isSessionEntry held = true → held.source = .core →
    ¬(own.severity = held.severity ∧ own.text = held.text)

/-- The own entries come from the viewer's own queue. -/
structure OwnSound (history : NotificationHistory) : Prop where
  owner : ∃ clientId, history.clientQueue.owner = .client clientId
  newest : ∀ newestEntry ∈ history.clientQueue.queuedEntries.getLast?, isSessionEntry newestEntry = false
  sequences : ∀ own ∈ history.mergedEntries, isSessionEntry own = false →
    own.notificationId.sequence < history.clientQueue.nextSequence

/-- Each id has one severity: that of its entries as the session sent them, in the history and in the summaries. -/
def SeveritySound (arrivals : List NotificationEntry) (history : NotificationHistory) : Prop :=
  ∃ ranks : NotificationId → NotificationSeverity,
    (∀ received ∈ arrivals, isSessionEntry received = true → received.severity = ranks received.notificationId) ∧
    PreviewsSound (fun member => member.2 = ranks member.1) (fun _ => False) history.mergedEntries
      history.notificationToast ∧
    (∀ entry ∈ history.mergedEntries, entry.severity = ranks entry.notificationId) ∧
    ∀ newest ∈ history.clientQueue.queuedEntries.getLast?, newest.severity = ranks newest.notificationId

/-- What holds in every state of a run. -/
structure RunSound (isSessionLocal : Bool) (history : NotificationHistory) : Prop where
  isLocal : history.isSessionLocal = isSessionLocal
  entries : EntriesSound history
  previews : PreviewsSound (fun _ => True) (fun _ => False) history.mergedEntries history.notificationToast
  mark : ∀ mark ∈ history.sessionQueueMark, ∃ sessionId, mark.owner = .session sessionId
  own : OwnSound history
  noOwnCopies : isSessionLocal = true → NoOwnCopies history.mergedEntries

theorem NoOwnCopies.sublist {entries kept : List NotificationEntry} (h : NoOwnCopies entries)
    (hk : kept.Sublist entries) :
    NoOwnCopies kept :=
  fun own hown held hh => h own (hk.subset hown) held (hk.subset hh)

theorem RunSound.shrinks (h : RunSound isSessionLocal history)
    (hshrinks : Shrinks history next) : RunSound isSessionLocal next where
  isLocal := hshrinks.isSessionLocal.trans h.isLocal
  entries := hshrinks.entries
  previews := hshrinks.previews h.previews
  mark := by
    rw [hshrinks.sessionQueueMark]
    exact h.mark
  own := by
    refine ⟨?_, ?_, fun own hm => ?_⟩
    · rw [hshrinks.clientQueue]
      exact h.own.owner
    · rw [hshrinks.clientQueue]
      exact h.own.newest
    · rw [hshrinks.clientQueue]
      exact h.own.sequences own (hshrinks.merged.subset hm)
  noOwnCopies hlocal := (h.noOwnCopies hlocal).sublist hshrinks.merged

theorem SeveritySound.shrinks (h : SeveritySound arrivals history) (hshrinks : Shrinks history next) :
    SeveritySound arrivals next := by
  obtain ⟨ranks, hrecv, hpv, hentries, hnw⟩ := h
  refine ⟨ranks, hrecv, hshrinks.previews hpv, fun entry hm => hentries entry (hshrinks.merged.subset hm), ?_⟩
  rw [hshrinks.clientQueue]
  exact hnw

/-! ### Arrivals in a run -/

/-- The entries after an arrival: it, and entries that were there before and are not replaced by it. -/
theorem Arrives.mem (h : Arrives fits arrived history next) (hm : entry ∈ next.mergedEntries) :
    entry = arrived ∨ entry ∈ history.listKeptEntries arrived ∧ entry ∈ history.mergedEntries := by
  rw [h.merged, mem_append, mem_singleton] at hm
  rcases hm with hk | rfl
  · have hin := (keepRoom_sublist _).subset hk
    exact .inr ⟨hin, filter_sublist.subset ((keepUnreplaced_sublist ..).subset hin)⟩
  · exact .inl rfl

theorem noOwnCopies_arrive_session {arrived : NotificationEntry} (h : Arrives fits arrived history next)
    (hsess : isSessionEntry arrived = true) (hlocal : history.isSessionLocal = true)
    (hcopies : NoOwnCopies history.mergedEntries) :
    NoOwnCopies next.mergedEntries := by
  intro own hown held hh hownOwn hheldOwn hcore
  rcases h.mem hown with rfl | ⟨hownKept, hown⟩
  · rw [hsess] at hownOwn
    cases hownOwn
  rcases h.mem hh with rfl | ⟨-, hh⟩
  · rintro ⟨hsev, htext⟩
    unfold listKeptEntries keepUnreplaced at hownKept
    rw [hlocal, hsess, hcore] at hownKept
    simp only [Bool.and_self, decide_true, if_true, mem_filter, Bool.not_eq_true'] at hownKept
    have hreplaced : isReplacedBy held own = true := by
      have hsr : own.source = .core := by cases own.source; rfl
      simp [isReplacedBy, isCoreNotice, hownOwn, hsev, htext, hsr]
    rw [hreplaced] at hownKept
    cases hownKept.2
  · exact hcopies own hown held hh hownOwn hheldOwn hcore

theorem noOwnCopies_arrive_own {arrived : NotificationEntry} (h : Arrives fits arrived history next)
    (hown : isSessionEntry arrived = false) (hnone : history.isHeldBySession arrived.severity arrived.text = false)
    (hcopies : NoOwnCopies history.mergedEntries) : NoOwnCopies next.mergedEntries := by
  intro own hm held hh hownOwn hheldOwn hcore
  rcases h.mem hh with rfl | ⟨-, hh⟩
  · rw [hown] at hheldOwn
    cases hheldOwn
  rcases h.mem hm with rfl | ⟨-, hm⟩
  · rintro ⟨hsev, htext⟩
    have hnotHeld := List.any_eq_false.mp hnone held hh
    simp [isCoreNotice, hheldOwn, hcore, hsev, htext] at hnotHeld
  · exact hcopies own hm held hh hownOwn hheldOwn hcore

theorem arrives_takeReceived {fits : NotificationId × NotificationSeverity → Prop} {history : NotificationHistory}
    {entry : NotificationEntry} (h : EntriesSound history)
    (hpv : PreviewsSound fits (fun _ => False) history.mergedEntries history.notificationToast)
    (hft : fits (entry.notificationId, entry.severity)) (shows : Bool) :
    Arrives fits (sanitizeReceivedEntry entry) history
      (history.takeArrival (sanitizeReceivedEntry entry) (history.findMergedEntryIndex entry.notificationId) shows) :=
  @arrives_takeArrival _ _ (sanitizeReceivedEntry entry) h hpv hft shows

theorem OwnSound.arriveSession {arrived : NotificationEntry} (hown : OwnSound history)
    (h : Arrives fits arrived history next) (hsess : isSessionEntry arrived = true) : OwnSound next := by
  refine ⟨?_, ?_, fun own hm howner => ?_⟩
  · rw [h.same.clientQueue]
    exact hown.owner
  · rw [h.same.clientQueue]
    exact hown.newest
  · rw [h.same.clientQueue]
    rcases h.mem hm with rfl | ⟨-, hm⟩
    · rw [hsess] at howner
      cases howner
    · exact hown.sequences own hm howner

theorem takeInvariant_runSound (isSessionLocal : Bool) (taken : List NotificationEntry) :
    TakeInvariant taken (RunSound isSessionLocal) where
  book _ _ h :=
    ⟨h.isLocal, ⟨h.entries.nodup, h.entries.bounded, h.entries.unread, h.entries.unreadOpen, h.entries.selected,
    h.entries.selects⟩, h.previews, h.mark, ⟨h.own.owner, h.own.newest, h.own.sequences⟩, h.noOwnCopies⟩
  mark mark hsess h := by
    refine ⟨h.isLocal, ⟨h.entries.nodup, h.entries.bounded, h.entries.unread, h.entries.unreadOpen, h.entries.selected,
      h.entries.selects⟩, h.previews, ?_, ⟨h.own.owner, h.own.newest, h.own.sequences⟩, h.noOwnCopies⟩
    rintro _ ⟨⟩
    exact hsess
  arrive entry shows _ hsess h := by
    have har := @arrives_takeReceived _ _ entry h.entries h.previews trivial shows
    refine ⟨har.same.isSessionLocal.trans h.isLocal, har.sound, har.previews, ?_,
      h.own.arriveSession har hsess, fun hlocal => ?_⟩
    · rw [har.same.sessionQueueMark]
      exact h.mark
    · exact noOwnCopies_arrive_session har hsess (h.isLocal.trans hlocal) (h.noOwnCopies hlocal)

/-- So does the one severity of each id, while the entries taken are among those received. -/
theorem takeInvariant_severitySound (isSessionLocal : Bool) {taken : List NotificationEntry}
    (htk : ∀ entry ∈ taken, entry ∈ arrivals) :
    TakeInvariant taken fun history => RunSound isSessionLocal history ∧ SeveritySound arrivals history where
  book droppedEntryCount revision h :=
    ⟨(takeInvariant_runSound isSessionLocal taken).book droppedEntryCount revision h.1, h.2⟩
  mark mark hsess h := ⟨(takeInvariant_runSound isSessionLocal taken).mark mark hsess h.1, h.2⟩
  arrive entry shows hm hsess h := by
    refine ⟨(takeInvariant_runSound isSessionLocal taken).arrive entry shows hm hsess h.1, ?_⟩
    obtain ⟨ranks, hrecv, hpv, hentries, hnw⟩ := h.2
    have hft := hrecv entry (htk entry hm) hsess
    have har := arrives_takeReceived h.1.entries hpv hft shows
    refine ⟨ranks, hrecv, har.previews, fun other ho => ?_, ?_⟩
    · rcases har.mem ho with rfl | ⟨-, ho⟩
      · exact hft
      · exact hentries other ho
    · rw [har.same.clientQueue]
      exact hnw

/-! ### Own posts -/

theorem isSessionEntry_eq_false {clientId : ClientId}
    (h : entry.notificationId.owner = .client clientId) : isSessionEntry entry = false := by
  simp [isSessionEntry, h]

theorem OwnSound.postedEntry (hown : OwnSound history) (severity : NotificationSeverity) (text : List Char)
    (posts createdAt : Nat) :
    isSessionEntry (history.clientQueue.postCoreEntry severity text posts createdAt).2 = false ∧
      history.clientQueue.nextSequence ≤
        (history.clientQueue.postCoreEntry severity text posts createdAt).1.nextSequence := by
  obtain ⟨clientId, howner⟩ := hown.owner
  have hl := @getLast?_postCoreEntry history.clientQueue severity text posts createdAt
  rw [nextSequence_of_getLast? hl]
  rcases history.clientQueue.postCoreEntry_cases severity text posts createdAt with
    ⟨newest, hnw, -, hrepeat⟩ | ⟨-, hnew⟩
  · rw [hrepeat, nextSequence_of_getLast? hnw]
    exact ⟨hown.newest newest hnw, le_refl _⟩
  · rw [hnew]
    exact ⟨isSessionEntry_eq_false howner, Nat.le_succ _⟩

theorem runSound_post (h : RunSound isSessionLocal history) (severity : NotificationSeverity) (text : List Char)
    (posts createdAt : Nat) (shows : Bool) :
    RunSound isSessionLocal (history.postCoreEntry severity text posts createdAt shows) := by
  unfold postCoreEntry
  split
  · exact h
  rename_i hpost
  obtain ⟨hps, hseq⟩ := h.own.postedEntry severity text posts createdAt
  have hl := @getLast?_postCoreEntry history.clientQueue severity text posts createdAt
  have hown := (@owner_postCoreEntry history.clientQueue severity text posts createdAt).1
  obtain ⟨hsev, htext⟩ :=
    @severity_postCoreEntry history.clientQueue severity text posts createdAt
  generalize history.clientQueue.postCoreEntry severity text posts createdAt = posted at *
  have hentries : EntriesSound { history with clientQueue := posted.1 } := ⟨h.entries.nodup, h.entries.bounded,
    h.entries.unread, h.entries.unreadOpen, h.entries.selected, h.entries.selects⟩
  have har := @arrives_takeArrival _ _ posted.2 hentries h.previews trivial shows
  refine ⟨har.same.isSessionLocal.trans h.isLocal, har.sound, har.previews, ?_,
    ⟨?_, ?_, fun own hm hisOwn => ?_⟩, fun hlocal => ?_⟩
  · rw [har.same.sessionQueueMark]
    exact h.mark
  · rw [har.same.clientQueue, hown]
    exact h.own.owner
  · rw [har.same.clientQueue, hl]
    rintro _ ⟨⟩
    exact hps
  · rw [har.same.clientQueue]
    rcases har.mem hm with rfl | ⟨-, hm⟩
    · rw [nextSequence_of_getLast? hl]
      exact Nat.lt_succ_self _
    · exact lt_of_lt_of_le (h.own.sequences own hm hisOwn) hseq
  · refine noOwnCopies_arrive_own har hps ?_ (h.noOwnCopies hlocal)
    rw [hsev, htext]
    rw [h.isLocal, hlocal, Bool.true_and, Bool.not_eq_true] at hpost
    exact hpost

theorem OwnSound.ne_newId (hown : OwnSound history) (hm : entry ∈ history.mergedEntries) :
    entry.notificationId ≠
      ⟨history.clientQueue.owner, history.clientQueue.epoch, history.clientQueue.nextSequence⟩ := by
  intro hs
  obtain ⟨clientId, howner⟩ := hown.owner
  have hisOwn : isSessionEntry entry = false :=
    isSessionEntry_eq_false ((congrArg NotificationId.owner hs).trans howner)
  have hlt := hown.sequences entry hm hisOwn
  rw [hs] at hlt
  exact lt_irrefl _ hlt

theorem SeveritySound.postedEntry (h : SeveritySound arrivals history) (hown : OwnSound history)
    (severity : NotificationSeverity) (text : List Char) (posts createdAt : Nat) :
    ∃ ranks : NotificationId → NotificationSeverity,
      (∀ received ∈ arrivals, isSessionEntry received = true → received.severity = ranks received.notificationId) ∧
      PreviewsSound (fun member => member.2 = ranks member.1) (fun _ => False) history.mergedEntries
        history.notificationToast ∧
      (∀ entry ∈ history.mergedEntries, entry.severity = ranks entry.notificationId) ∧
      (history.clientQueue.postCoreEntry severity text posts createdAt).2.severity =
        ranks (history.clientQueue.postCoreEntry severity text posts createdAt).2.notificationId := by
  obtain ⟨ranks, hrecv, hpv, hentries, hnw⟩ := h
  obtain ⟨clientId, howner⟩ := hown.owner
  rcases history.clientQueue.postCoreEntry_cases severity text posts createdAt with
    ⟨newest, hl, -, hrepeat⟩ | ⟨-, hnew⟩
  · rw [hrepeat]
    exact ⟨ranks, hrecv, hpv, hentries, hnw newest hl⟩
  rw [hnew]
  have ho : ∀ noteId, noteId ∈ history.listMergedIds →
      update ranks ⟨history.clientQueue.owner, history.clientQueue.epoch, history.clientQueue.nextSequence⟩
        severity noteId = ranks noteId := by
    intro noteId hm
    obtain ⟨entry, hin, rfl⟩ := List.mem_map.mp hm
    exact update_of_ne (hown.ne_newId hin) ..
  refine ⟨update ranks
    ⟨history.clientQueue.owner, history.clientQueue.epoch, history.clientQueue.nextSequence⟩ severity, ?_, ?_, ?_, ?_⟩
  · intro received hm hsess
    rw [hrecv received hm hsess, update_of_ne]
    intro hs
    rw [isSessionEntry_eq_false ((congrArg NotificationId.owner hs).trans howner)] at hsess
    cases hsess
  · refine NotificationToastQueue.Sound.mono hpv (fun _ => id) fun member hok => ⟨hok.1, ?_⟩
    exact hok.2.trans (ho member.1 (hok.1.resolve_left id)).symm
  · intro entry hm
    rw [ho entry.notificationId (List.mem_map_of_mem hm)]
    exact hentries entry hm
  · show severity = update ranks _ severity
      ⟨history.clientQueue.owner, history.clientQueue.epoch, history.clientQueue.nextSequence⟩
    rw [update_self]

theorem severitySound_post (h : SeveritySound arrivals history) (hrun : RunSound isSessionLocal history)
    (severity : NotificationSeverity) (text : List Char) (posts createdAt : Nat) (shows : Bool) :
    SeveritySound arrivals (history.postCoreEntry severity text posts createdAt shows) := by
  unfold postCoreEntry
  split
  · exact h
  obtain ⟨ranks, hrecv, hpv, hentries, hps⟩ := h.postedEntry hrun.own severity text posts createdAt
  have hl := @getLast?_postCoreEntry history.clientQueue severity text posts createdAt
  generalize history.clientQueue.postCoreEntry severity text posts createdAt = posted at *
  have hsn : EntriesSound { history with clientQueue := posted.1 } := ⟨hrun.entries.nodup, hrun.entries.bounded,
    hrun.entries.unread, hrun.entries.unreadOpen, hrun.entries.selected, hrun.entries.selects⟩
  have har := @arrives_takeArrival _ _ posted.2 hsn hpv hps shows
  refine ⟨ranks, hrecv, har.previews, fun entry hm => ?_, ?_⟩
  · rcases har.mem hm with rfl | ⟨-, hm⟩
    · exact hps
    · exact hentries entry hm
  · rw [har.same.clientQueue, hl]
    rintro _ ⟨⟩
    exact hps

/-! ### Runs -/

section Runs

variable {slide : Nat → Nat → Nat → Nat → Nat}

theorem shrinks_apply {history : NotificationHistory} (h : EntriesSound history) {op : HistoryOperation}
    (hbrings : op.bringsEntries = false) : Shrinks history (history.apply slide op) := by
  cases op with
  | post severity text postCount createdAt shows => cases hbrings
  | takeQueue sessionId queue shows => cases hbrings
  | takePost revision postedEntry shows => cases hbrings
  | dismiss notificationId => exact shrinks_dismiss h notificationId
  | clear => exact shrinks_clear
  | selectAdjacent isNewer => exact shrinks_selectAdjacent h isNewer
  | select notificationId => exact shrinks_selectEntry h notificationId
  | openCenter shouldReduceMotion => exact shrinks_open h shouldReduceMotion
  | closeCenter shouldReduceMotion => exact shrinks_close h shouldReduceMotion
  | removeCenter => exact shrinks_removeCenter h
  | scroll rowOffset => exact shrinks_scroll h rowOffset
  | advance now timing isPaused =>
    exact shrinks_advance slide h now timing isPaused
  | withdraw toastNumber => exact shrinks_withdraw h toastNumber

theorem runSound_apply {isSessionLocal : Bool} {history : NotificationHistory} (h : RunSound isSessionLocal history)
    (op : HistoryOperation) : RunSound isSessionLocal (history.apply slide op) := by
  cases op with
  | post severity text postCount createdAt shows =>
    exact runSound_post h severity text postCount createdAt shows
  | takeQueue sessionId queue shows =>
    exact (takeInvariant_runSound isSessionLocal _).sessionQueue h sessionId shows
  | takePost revision postedEntry shows =>
    exact (takeInvariant_runSound isSessionLocal _).sessionPost h h.mark revision shows
  | _ => exact h.shrinks (shrinks_apply h.entries rfl)

variable {received : List NotificationEntry}

theorem severitySound_apply {history : NotificationHistory} (h : SeveritySound received history) {isSessionLocal : Bool}
    (hrun : RunSound isSessionLocal history) (op : HistoryOperation)
    (hrecv : ∀ entry ∈ op.listReceivedEntries, entry ∈ received) :
    SeveritySound received (history.apply slide op) := by
  cases op with
  | post severity text postCount createdAt shows =>
    exact severitySound_post h hrun severity text postCount createdAt shows
  | takeQueue sessionId queue shows =>
    exact ((takeInvariant_severitySound isSessionLocal hrecv).sessionQueue ⟨hrun, h⟩ sessionId shows).2
  | takePost revision postedEntry shows =>
    exact ((takeInvariant_severitySound isSessionLocal hrecv).sessionPost ⟨hrun, h⟩ hrun.mark revision shows).2
  | _ => exact h.shrinks (shrinks_apply hrun.entries rfl)

theorem runSound_start (clientId : ClientId) (epoch : NotificationEpoch) (isSessionLocal : Bool) :
    RunSound isSessionLocal ((fromClientId clientId epoch).setSessionLocal isSessionLocal) := by
  refine ⟨rfl, ⟨nodup_nil, Nat.zero_le _, Nat.zero_le _, fun _ => rfl, ?_, ?_⟩, sound_default, ?_,
    ⟨⟨clientId, rfl⟩, ?_, ?_⟩, ?_⟩
  · rintro _ ⟨⟩
  · rintro _ ⟨⟩
  · rintro _ ⟨⟩
  · rintro _ ⟨⟩
  · rintro _ ⟨⟩
  · rintro - _ ⟨⟩

theorem runSound_runOperations (clientId : ClientId) (epoch : NotificationEpoch) (isSessionLocal : Bool)
    (ops : List HistoryOperation) :
    RunSound isSessionLocal (runOperations slide clientId epoch isSessionLocal ops) := by
  induction ops using List.reverseRecOn with
  | nil => exact runSound_start clientId epoch isSessionLocal
  | append_singleton ops op ih =>
    unfold runOperations at ih ⊢
    rw [foldl_concat]
    exact runSound_apply ih op

/-- No id comes twice from the session with two severities. -/
def HasOneSeverityPerId (ops : List HistoryOperation) : Prop :=
  ∀ first ∈ ops.flatMap (·.listReceivedEntries), ∀ second ∈ ops.flatMap (·.listReceivedEntries),
    first.notificationId = second.notificationId → first.severity = second.severity

theorem severitySound_start {arrivals : List NotificationEntry}
    (hsevs : ∀ first ∈ arrivals, ∀ second ∈ arrivals,
      first.notificationId = second.notificationId → first.severity = second.severity)
    (clientId : ClientId) (epoch : NotificationEpoch) (isSessionLocal : Bool) :
    SeveritySound arrivals ((fromClientId clientId epoch).setSessionLocal isSessionLocal) := by
  refine ⟨fun noteId =>
    ((arrivals.find? fun received => received.notificationId = noteId).map (·.severity)).getD .info,
    fun received hm _ => ?_, sound_default, ?_, ?_⟩
  · show received.severity = ((arrivals.find? fun other =>
      other.notificationId = received.notificationId).map (·.severity)).getD .info
    rcases hfo : arrivals.find? fun other => other.notificationId = received.notificationId with _ | first
    · exact absurd (decide_eq_true rfl) (List.find?_eq_none.mp hfo received hm)
    · have hs : first.notificationId = received.notificationId := by
        simpa using List.find?_some hfo
      rw [hfo]
      exact (hsevs first (List.mem_of_find?_eq_some hfo) received hm hs).symm
  · rintro _ ⟨⟩
  · rintro _ ⟨⟩

theorem severitySound_runOperations {ops : List HistoryOperation}
    (hsevs : ∀ first ∈ received, ∀ second ∈ received,
      first.notificationId = second.notificationId → first.severity = second.severity)
    (hrecv : ∀ op ∈ ops, ∀ entry ∈ op.listReceivedEntries, entry ∈ received) (clientId : ClientId)
    (epoch : NotificationEpoch) (isSessionLocal : Bool) :
    SeveritySound received (runOperations slide clientId epoch isSessionLocal ops) := by
  induction ops using List.reverseRecOn with
  | nil => exact severitySound_start hsevs clientId epoch isSessionLocal
  | append_singleton ops op ih =>
    have hrun := @runSound_runOperations slide clientId epoch isSessionLocal ops
    have hb := ih fun other hm => hrecv other (mem_append_left _ hm)
    unfold runOperations at hrun hb ⊢
    rw [foldl_concat]
    exact severitySound_apply hb hrun op (hrecv op (mem_append_right _ mem_cons_self))

end Runs

/-! ### The history and its toast -/

/-- The members of a summary, shown or waiting. -/
def IsSummary (toast : NotificationToastQueue) (members : SummaryMembers) : Prop :=
  (∃ shownToast, toast.shownToast = some shownToast ∧ shownToast.preview = .summary members) ∨
    toast.waitingSummary = some members

/-- What a viewer shows agrees with the entries it holds. -/
structure Consistent (history : NotificationHistory) : Prop where
  uniqueIds : (history.mergedEntries.map (·.notificationId)).Nodup
  unread : history.unreadEntryCount ≤ history.mergedEntries.length
  unreadWhileOpen : history.isNotificationCenterOpen = true → history.unreadEntryCount = 0
  selection : ∀ center, history.findOpenCenterState = some center →
    ((∃ entry ∈ history.mergedEntries, center.selectedNotificationId = some entry.notificationId) ↔
      history.mergedEntries ≠ [])
  uniquePreviews : history.notificationToast.listPreviewedIds.Nodup
  shownEntry : ∀ shownToast entry, history.notificationToast.shownToast = some shownToast →
    shownToast.preview = .entry entry → isWithdrawn shownToast = true ∨ entry ∈ history.mergedEntries
  waitingEntries : ∀ entry ∈ history.notificationToast.waitingEntries, entry ∈ history.mergedEntries
  summaries : ∀ members, IsSummary history.notificationToast members →
    members ≠ [] ∧ ∀ member ∈ members, ∃ entry ∈ history.mergedEntries, entry.notificationId = member.1
  nothingWaits : history.notificationToast.shownToast = none →
    history.notificationToast.waitingEntries = [] ∧ history.notificationToast.waitingSummary = none
  waitingCount : history.notificationToast.waitingEntries.length ≤ 3

theorem IsSummary.sound {entryOk : NotificationEntry → Prop} {memOk : NotificationId × NotificationSeverity → Prop}
    {ms : SummaryMembers} (h : IsSummary toast ms) (hsn : toast.Sound entryOk memOk) :
    ms ≠ [] ∧ ∀ member ∈ ms, memOk member := by
  rcases h with ⟨shown, hsh, hpv⟩ | hwaiting
  · have hpreviewSound := hsn.shown shown hsh
    unfold NotificationToastQueue.PreviewSound at hpreviewSound
    rw [hpv] at hpreviewSound
    exact hpreviewSound
  · exact hsn.summary ms hwaiting

theorem RunSound.consistent (h : RunSound isSessionLocal history) : Consistent history where
  uniqueIds := h.entries.nodup
  unread := h.entries.unread
  unreadWhileOpen := h.entries.unreadOpen
  selection := by
    intro center hfo
    obtain ⟨hm, hnotClosing⟩ := filter_eq_some_iff.mp hfo
    constructor
    · rintro ⟨entry, hin, -⟩ hnil
      rw [hnil] at hin
      cases hin
    · intro hne
      obtain ⟨noteId, hsel⟩ :=
        isSome_iff_exists.mp (h.entries.selects center hm (by simpa using hnotClosing) hne)
      obtain ⟨entry, hin, rfl⟩ := List.mem_map.mp (h.entries.selected center hm noteId hsel)
      exact ⟨entry, hin, hsel⟩
  uniquePreviews := h.previews.previewed
  shownEntry := by
    intro toast entry hsh hpv
    have hsn := h.previews.shown toast hsh
    unfold NotificationToastQueue.PreviewSound at hsn
    rw [hpv] at hsn
    exact hsn.imp_right fun hok => hok.resolve_left id
  waitingEntries entry hm := (h.previews.entries entry hm).resolve_left id
  summaries := by
    intro ms hsum
    obtain ⟨hne, hmembers⟩ := hsum.sound h.previews
    refine ⟨hne, fun member hm => ?_⟩
    obtain ⟨entry, hin, hs⟩ := List.mem_map.mp ((hmembers member hm).1.resolve_left id)
    exact ⟨entry, hin, hs⟩
  nothingWaits := h.previews.nothingWaits
  waitingCount := h.previews.count

variable {error : NotificationTakeError}

theorem takeSessionQueue_refused {sessionId : SessionId} {queue : NotificationQueue} {shows : Bool}
    (h : history.takeSessionQueue sessionId queue shows = (next, .error error)) : next = history := by
  unfold takeSessionQueue at h
  split at h
  · cases h
    rfl
  split at h
  · cases h
    rfl
  split at h
  · split at h <;> cases h
  · cases h

theorem takeSessionPost_refused {revision : Nat} {postedEntry : NotificationEntry} {shows : Bool}
    (h : history.takeSessionPost revision postedEntry shows = (next, .error error)) : next = history := by
  unfold takeSessionPost at h
  split at h
  · cases h
    rfl
  split at h
  · cases h
    rfl
  split at h
  · cases h
  dsimp only at h
  split at h <;> cases h

/-- **The history and its toast over any run.** What the viewer shows agrees with what it holds; a summary counts held
entries, each at the severity the entry has while the session gives each id one severity; in a local session no own
entry repeats a session entry; a refused queue or post changes nothing. -/
theorem notificationHistory_consistent (slide : Nat → Nat → Nat → Nat → Nat) (clientId : ClientId)
    (epoch : NotificationEpoch) (isSessionLocal : Bool) (operations : List HistoryOperation) :
    Consistent (runOperations slide clientId epoch isSessionLocal operations) ∧
      (HasOneSeverityPerId operations → ∀ members,
        IsSummary (runOperations slide clientId epoch isSessionLocal operations).notificationToast
            members → ∀ member ∈ members,
          ∃ entry ∈ (runOperations slide clientId epoch isSessionLocal operations).mergedEntries,
            entry.notificationId = member.1 ∧ entry.severity = member.2) ∧
      (isSessionLocal = true →
        NoOwnCopies (runOperations slide clientId epoch isSessionLocal operations).mergedEntries) ∧
      (∀ sessionId queue shows next error,
        (runOperations slide clientId epoch isSessionLocal operations).takeSessionQueue sessionId queue
            shows = (next, .error error) →
          next = runOperations slide clientId epoch isSessionLocal operations) ∧
      (∀ revision postedEntry shows next error,
        (runOperations slide clientId epoch isSessionLocal operations).takeSessionPost revision postedEntry
            shows = (next, .error error) →
          next = runOperations slide clientId epoch isSessionLocal operations) := by
  have hrun := @runSound_runOperations slide clientId epoch isSessionLocal operations
  refine ⟨hrun.consistent, ?_, hrun.noOwnCopies, ?_, ?_⟩
  · intro hsevs members hsummary member hmem
    obtain ⟨ranks, -, hpreviews, hentries, -⟩ := @severitySound_runOperations slide _ operations
      hsevs (fun operation hoperation entry hentry => mem_flatMap_of_mem hoperation hentry) clientId epoch
      isSessionLocal
    obtain ⟨hheld, hsev⟩ := (hsummary.sound hpreviews).2 member hmem
    obtain ⟨entry, hin, hsame⟩ := List.mem_map.mp (hheld.resolve_left id)
    refine ⟨entry, hin, hsame, ?_⟩
    rw [hentries entry hin, hsame]
    exact hsev.symm
  · intro sessionId queue shows next error hrefused
    exact takeSessionQueue_refused hrefused
  · intro revision postedEntry shows next error hrefused
    exact takeSessionPost_refused hrefused

def sampleSessionEntry (sequence repeatCount : Nat) (severity : NotificationSeverity) : NotificationEntry :=
  ⟨⟨.session ⟨0⟩, ⟨0⟩, sequence⟩, .core, severity, [], 0, repeatCount⟩

/-- Five entries arrive one by one, and the fifth comes again as an error. -/
def severityChangeOperations : List HistoryOperation :=
  [.takeQueue ⟨0⟩ (.fromOwner (.session ⟨0⟩) ⟨0⟩) true, .takePost 1 (sampleSessionEntry 0 1 .info) true,
    .takePost 2 (sampleSessionEntry 1 1 .info) true, .takePost 3 (sampleSessionEntry 2 1 .info) true,
    .takePost 4 (sampleSessionEntry 3 1 .info) true, .takePost 5 (sampleSessionEntry 4 1 .info) true,
    .takePost 6 (sampleSessionEntry 4 2 .error) true]

/-- The summary still counts the entry at its first severity. -/
theorem summary_keeps_first_severity :
    (runOperations (fun _ _ _ _ => 0) ⟨0⟩ ⟨1⟩ false severityChangeOperations).notificationToast.waitingSummary =
        some [((sampleSessionEntry 4 2 .error).notificationId, .info)] ∧
      (runOperations (fun _ _ _ _ => 0) ⟨0⟩ ⟨1⟩ false severityChangeOperations).mergedEntries.getLast? =
        some (sampleSessionEntry 4 2 .error) := by
  decide

end NotificationHistory

end Koshi.Client
