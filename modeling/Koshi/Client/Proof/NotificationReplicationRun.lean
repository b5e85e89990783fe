import Koshi.Client.Proof.NotificationQueueLoop

/-!
# Runs of a viewer

Along a run the viewer's mark names the state of the queue last taken, so what is stale changes nothing and what is new
is taken once. The dropped count is what was posted and is not held exactly when every repeat found its entry still
held.
-/

namespace Koshi.Client

open Koshi.Core List Option NotificationSession
open NotificationQueue (IsNewer)

/-- The mark a viewer keeps of a state of the session's queue. -/
def NotificationSession.markAfter (session : NotificationSession) (postCount : Nat) : SessionQueueMark :=
  ⟨.session session.sessionId, session.epoch, (session.queueAfter postCount).revision,
    (session.queueAfter postCount).queuedEntries.getLast?.map NotificationHistory.markEntry⟩

namespace ViewerRun

open NotificationHistory

variable {session : NotificationSession} {run : ViewerRun} {postCount events' returns : Nat}

variable {entry : NotificationEntry}

theorem isTakeable_queueAfter (hm : entry ∈ (session.queueAfter postCount).queuedEntries) :
    IsTakeable (.session session.sessionId) session.epoch entry := by
  obtain ⟨hsn, hown, hepoch⟩ := session.sound_queueAfter postCount
  obtain ⟨hentryOwn, hentryEpoch⟩ := hsn.ids entry hm
  rw [hown] at hentryOwn
  refine ⟨by simp [isSessionEntry, hentryOwn], hentryOwn, hentryEpoch.trans hepoch, ?_⟩
  unfold sanitizeReceivedEntry
  rw [hsn.texts entry hm]

structure Follows (session : NotificationSession) (events' returns : Nat) (run : ViewerRun) : Prop where
  tracks : Tracks (.session session.sessionId) session.epoch (countPosted (run.listTakenQueue session).getLast?) returns
    run.arrived run.history
  mark : run.history.sessionQueueMark = run.taken.map session.markAfter
  taken : ∀ postCount ∈ run.taken, postCount ≤ session.posts.length
  takenEntries : ∀ entry ∈ run.takenEntries, entry ∈ run.arrived ∧ isSessionEntry entry = true
  queued : ∀ entry ∈ run.listTakenQueue session, entry ∈ run.arrived
  bounded : run.history.clientQueue.nextSequence + returns ≤ events'

theorem countPostedEntries_eq : run.countPostedEntries session = countPosted (run.listTakenQueue session).getLast? := by
  unfold countPostedEntries listTakenQueue
  rcases run.taken with _ | postCount
  · rfl
  · rfl

theorem countPosted_listTakenQueue_le (h : Follows session events' returns run) :
    countPosted (run.listTakenQueue session).getLast? ≤ session.posts.length := by
  rcases htk : run.taken with _ | postCount
  · simp [listTakenQueue, htk, countPosted]
  · have hle := h.taken postCount htk
    have hseq := nextSequence_queueAfter_le hle
    rw [← countPostedEntries_eq]
    simp only [countPostedEntries, htk, map_some, getD_some]
    omega

/-! ### Copies -/

/-- A copy is passed over when its state is older, and else its entries are gone through. -/
theorem takeSessionQueue_eq (hmark : run.history.sessionQueueMark = run.taken.map session.markAfter) (postCount : Nat)
    (shows : Bool) :
    ∃ previews,
      (run.history.takeSessionQueue session.sessionId (session.queueAfter postCount) shows).1 =
        if run.taken.any fun taken => (session.queueAfter postCount).revision < (session.queueAfter taken).revision then
          run.history
        else run.history.takeQueuedEntries (session.queueAfter postCount)
          ((run.listTakenQueue session).getLast?.map markEntry) previews := by
  refine ⟨shows && !(run.history.sessionQueueMark.all fun mark =>
    mark.owner ≠ (session.queueAfter postCount).owner), ?_⟩
  obtain ⟨-, hown, hepoch⟩ := session.sound_queueAfter postCount
  unfold takeSessionQueue
  rw [session.validateQueuedEntries_queueAfter]
  rw [if_neg (by rw [hown]; exact fun hne => hne rfl)]
  rcases htk : run.taken with _ | taken
  · rw [htk] at hmark
    have hnone : run.history.findMarkOf (session.queueAfter postCount) = none := by
      unfold findMarkOf
      rw [hmark]
      rfl
    rw [hnone]
    simp only [any_none, Bool.false_eq_true, if_false]
    unfold listTakenQueue
    rw [htk]
    rfl
  · rw [htk] at hmark
    have hso : run.history.findMarkOf (session.queueAfter postCount) = some (session.markAfter taken) := by
      unfold findMarkOf
      rw [hmark]
      refine filter_eq_some_iff.mpr ⟨rfl, ?_⟩
      rw [hown, hepoch]
      simp [markAfter]
    rw [hso]
    simp only [any_some, decide_eq_true_eq]
    unfold listTakenQueue
    rw [htk]
    dsimp only [map_some, getD_some]
    show (if (session.queueAfter postCount).revision < (session.queueAfter taken).revision then _ else _ :
      NotificationHistory × Except NotificationTakeError Unit).1 = _
    by_cases hlt : (session.queueAfter postCount).revision < (session.queueAfter taken).revision
    · rw [if_pos hlt, if_pos hlt]
    · rw [if_neg hlt, if_neg hlt]
      rfl

theorem withMark_eq {history : NotificationHistory} {mark : SessionQueueMark}
    (h : history.sessionQueueMark = some mark) :
    { history with sessionQueueMark := some mark } = history := by
  rw [← h]

theorem Follows.takeCopy_stale (h : Follows session events' returns run) (hbelow : session.IsUnsaturated)
    (hft : session.posts.length ≤ maxU64) (hstale : run.isStale postCount = true) (shows : Bool) :
    run.takeCopy session postCount shows = run := by
  obtain ⟨previews, hq⟩ := takeSessionQueue_eq h.mark postCount shows
  obtain ⟨taken, htk, hle⟩ : ∃ taken, run.taken = some taken ∧ postCount ≤ taken := by
    simpa [isStale, Option.any_eq_true] using hstale
  have hps := countPosted_listTakenQueue_le h
  have hhistory : (run.history.takeSessionQueue session.sessionId (session.queueAfter postCount)
      shows).1 = run.history := by
    rw [hq]
    split
    · rfl
    rename_i hrev
    rw [htk] at hrev
    -- only the newest state itself has its revision
    obtain rfl : postCount = taken := by
      by_contra hne
      refine hrev ?_
      have hlr := isLater_queueAfter hbelow (lt_of_le_of_ne hle hne) (h.taken taken htk)
      simpa using hlr.revision
    have hlist : run.listTakenQueue session = (session.queueAfter postCount).queuedEntries := by
      simp [listTakenQueue, htk]
    obtain ⟨hsn, hown, hepoch⟩ := session.sound_queueAfter postCount
    unfold takeQueuedEntries
    rw [foldl_takeQueuedEntry_old rfl (expectedSequence_eq (by omega)) (fun entry hm => (isTakeable_queueAfter hm).text)
      (fun entry hm => by rw [hlist]; exact hsn.not_isNewer hm)]
    rw [hown, hepoch, hlist]
    refine withMark_eq ?_
    rw [h.mark, htk]
    rfl
  unfold takeCopy
  rw [if_pos hstale, hhistory]

theorem eq_of_sequence {entries : List NotificationEntry}
    (hrising : entries.Pairwise fun fst second => fst.notificationId.sequence < second.notificationId.sequence)
    {fst second : NotificationEntry} (hf : fst ∈ entries) (hse : second ∈ entries)
    (hs : fst.notificationId.sequence = second.notificationId.sequence) : fst = second := by
  obtain ⟨i₀, hfstIndex, rfl⟩ := getElem_of_mem hf
  obtain ⟨secondIndex, hsndIndex, rfl⟩ := getElem_of_mem hse
  rw [pairwise_iff_getElem] at hrising
  rcases lt_trichotomy i₀ secondIndex with hlt | rfl | hlt
  · have hseq := hrising i₀ secondIndex hfstIndex hsndIndex hlt
    omega
  · rfl
  · have hseq := hrising secondIndex i₀ hsndIndex hfstIndex hlt
    omega

theorem repeats_iff {taken : Nat} (hlr : IsLater (session.queueAfter taken) (session.queueAfter postCount))
    (hm : entry ∈ (session.queueAfter postCount).queuedEntries) :
    (IsNewer (session.queueAfter taken).queuedEntries.getLast? entry ∧
        entry.notificationId.sequence + 1 = countPosted (session.queueAfter taken).queuedEntries.getLast?) ↔
      ∃ newest ∈ (session.queueAfter taken).queuedEntries.getLast?,
        entry.notificationId = newest.notificationId ∧ entry ≠ newest := by
  have htake := isTakeable_queueAfter hm
  constructor
  · rintro ⟨hnewer, hseq⟩
    rcases hnw : (session.queueAfter taken).queuedEntries.getLast? with _ | newest
    · rw [hnw] at hseq
      cases hseq
    · rw [hnw] at hnewer hseq
      have hkey := hnewer newest rfl
      have hs : entry.notificationId.sequence + 1 = newest.notificationId.sequence + 1 := hseq
      have hnewestTakeable := isTakeable_queueAfter (mem_of_getLast? hnw)
      refine ⟨newest, rfl, ?_, ?_⟩
      · rcases hid : entry.notificationId with ⟨own, epoch, seq⟩
        rcases hnewestId : newest.notificationId with ⟨newestOwn, newestEpoch, newestSequence⟩
        have hown := htake.owner.trans hnewestTakeable.owner.symm
        have hepoch := htake.epoch.trans hnewestTakeable.epoch.symm
        rw [hid, hnewestId] at hown hepoch hs
        have hseq : seq = newestSequence := Nat.succ.inj hs
        rw [show own = newestOwn from hown, show epoch = newestEpoch from hepoch, hseq]
      · rintro rfl
        omega
  · rintro ⟨newest, hnw, hid, hne⟩
    have hin := mem_of_getLast? hnw
    have hnot : entry ∉ (session.queueAfter taken).queuedEntries := fun hold =>
      hne (eq_of_sequence (session.sound_queueAfter taken).1.rising hold hin (by rw [hid]))
    refine ⟨(isNewer_iff_not_mem hlr hm).mpr hnot, ?_⟩
    rw [show (session.queueAfter taken).queuedEntries.getLast? = some newest from hnw, hid]
    rfl

theorem sequence_lt_of_mem (hps : postCount ≤ session.posts.length)
    (hm : entry ∈ (session.queueAfter postCount).queuedEntries) :
    entry.notificationId.sequence < session.posts.length := by
  have hlt := (session.sound_queueAfter postCount).1.sequence_lt_nextSequence hm
  have hle := nextSequence_queueAfter_le hps
  omega

section

variable (h : Follows session events' returns run)

include h

theorem Follows.takeEntries (hbelow : session.IsUnsaturated) (hft : session.posts.length + events' < maxU64)
    (hps : postCount ≤ session.posts.length) (hnew : run.isStale postCount = false) (shows previews : Bool) :
    ∃ returns' loop,
      (session.queueAfter postCount).queuedEntries.foldl (takeQueuedEntry previews)
        ⟨run.history, (run.listTakenQueue session).getLast?.map markEntry,
          expectedSequence ((run.listTakenQueue session).getLast?.map markEntry)⟩ = loop ∧
      LoopTracks (.session session.sessionId) session.epoch (session.queueAfter postCount).queuedEntries.getLast?
        returns'
        (((session.queueAfter postCount).queuedEntries.filter fun entry => entry ∉ run.listTakenQueue session).foldl
          arrive run.arrived) loop ∧
      loop.history.clientQueue = run.history.clientQueue ∧
      returns ≤ returns' ∧ returns' ≤ returns + 1 ∧
      (returns' = returns ↔ run.RepeatsHeld session (.copy postCount shows)) := by
  have hc := countPosted_listTakenQueue_le h
  have hbounded := h.bounded
  have hst : LoopTracks (.session session.sessionId) session.epoch (run.listTakenQueue session).getLast? returns
      run.arrived ⟨run.history, (run.listTakenQueue session).getLast?.map markEntry,
        expectedSequence ((run.listTakenQueue session).getLast?.map markEntry)⟩ :=
    ⟨h.tracks, rfl, expectedSequence_eq (by omega)⟩
  obtain ⟨hsn, -, -⟩ := session.sound_queueAfter postCount
  have hsequences : ∀ entry ∈ (session.queueAfter postCount).queuedEntries,
      entry.notificationId.sequence + 1 + run.history.clientQueue.nextSequence + returns < maxU64 := by
    intro entry hm
    have hlt := sequence_lt_of_mem hps hm
    omega
  refine Exists.imp (fun returns' hn => ⟨_, rfl, hn⟩) ?_
  simp only [RepeatsHeld, hnew, Bool.false_eq_true, false_or]
  rcases htk : run.taken with _ | taken
  · have hlist : run.listTakenQueue session = [] := by simp [listTakenQueue, htk]
    rw [hlist] at hst ⊢
    have hall := hst.takeAll (fun entry hm => isTakeable_queueAfter hm) hsn.rising
      (fun entry _ => Nat.zero_le _) (fun entry hm => le_of_lt (hsequences entry hm)) previews
    rw [List.getLast?_nil, or_none] at hall
    have hfilter : ((session.queueAfter postCount).queuedEntries.filter fun entry =>
        entry ∉ ([] : List NotificationEntry)) = (session.queueAfter postCount).queuedEntries :=
      filter_eq_self.mpr fun entry _ => by simp
    rw [hfilter]
    refine ⟨returns, hall.1, hall.2, le_refl _, Nat.le_succ _, iff_of_true rfl ?_⟩
    intro entry _ newest hnw
    cases hnw
  · have hlist : run.listTakenQueue session = (session.queueAfter taken).queuedEntries := by simp [listTakenQueue, htk]
    have hlt : taken < postCount := by simpa [isStale, htk] using hnew
    have hlr := isLater_queueAfter hbelow hlt hps
    rw [hlist] at hst ⊢
    obtain ⟨returns', hn, hq, hle, hbo, hiff⟩ := hst.takeLater
      (fun entry hm => isTakeable_queueAfter hm) hsn.rising hlr.newest hsequences previews
    have hfilter : ((session.queueAfter postCount).queuedEntries.filter fun entry =>
          entry ∉ (session.queueAfter taken).queuedEntries) = (session.queueAfter postCount).queuedEntries.filter
        (isNewEntry ((session.queueAfter taken).queuedEntries.getLast?.map markEntry)) := by
      refine filter_congr fun entry hm => ?_
      rw [Bool.eq_iff_iff, decide_eq_true_iff, isNewEntry_iff]
      exact (isNewer_iff_not_mem hlr hm).symm
    rw [hfilter]
    refine ⟨returns', hn, hq, hle, hbo, hiff.trans ?_⟩
    refine forall₂_congr fun entry hm => ?_
    have hrepeats := repeats_iff hlr hm
    constructor
    · intro hh newest hnw hid hne
      obtain ⟨hnewer, hseq⟩ := hrepeats.mpr ⟨newest, hnw, hid, hne⟩
      exact hh hnewer hseq
    · intro hh hnewer hseq
      obtain ⟨newest, hnw, hid, hne⟩ := hrepeats.mp ⟨hnewer, hseq⟩
      exact hh newest hnw hid hne

theorem Follows.takeCopy_new (hbelow : session.IsUnsaturated) (hft : session.posts.length + events' < maxU64)
    (hps : postCount ≤ session.posts.length) (hnew : run.isStale postCount = false) (shows : Bool) :
    ∃ returns',
      Follows session (events' + 1) returns' (run.takeCopy session postCount shows) ∧
      returns ≤ returns' ∧
      (returns' = returns ↔ run.RepeatsHeld session (.copy postCount shows)) := by
  obtain ⟨previews, hq⟩ := takeSessionQueue_eq h.mark postCount shows
  obtain ⟨returns', loop, hloop, htracks, hcl, hle, hbo, hiff⟩ :=
    h.takeEntries hbelow hft hps hnew shows previews
  obtain ⟨hsn, hown, hepoch⟩ := session.sound_queueAfter postCount
  refine ⟨returns', ?_, hle, hiff⟩
  have hrev : ¬(run.taken.any fun taken =>
      decide ((session.queueAfter postCount).revision < (session.queueAfter taken).revision)) = true := by
    rcases htk : run.taken with _ | taken
    · simp
    · have hlt : taken < postCount := by simpa [isStale, htk] using hnew
      have hlr := isLater_queueAfter hbelow hlt hps
      have hrising := hlr.revision
      simp only [any_some, decide_eq_true_eq]
      omega
  rw [if_neg hrev] at hq
  have hhistory : (run.history.takeSessionQueue session.sessionId (session.queueAfter postCount) shows).1 =
      { loop.history with sessionQueueMark := some (session.markAfter postCount) } := by
    rw [hq]
    unfold takeQueuedEntries
    dsimp only
    rw [hloop, hown, hepoch, htracks.mergedThrough]
    rfl
  have harrived : ∀ entry ∈ (session.queueAfter postCount).queuedEntries,
      entry ∈ (((session.queueAfter postCount).queuedEntries.filter fun entry =>
        entry ∉ run.listTakenQueue session).foldl arrive run.arrived) := by
    intro entry hm
    by_cases hold : entry ∈ run.listTakenQueue session
    · refine mem_foldl_arrive_of_ne (h.queued entry hold) fun other ho hs => ?_
      obtain ⟨hotherMem, hotherNew⟩ := mem_filter.mp ho
      have heq := eq_of_sequence hsn.rising hm hotherMem (by rw [hs])
      rw [← heq] at hotherNew
      exact of_decide_eq_true hotherNew hold
    · exact mem_foldl_arrive (hsn.rising.filter _) (mem_filter.mpr ⟨hm, decide_eq_true hold⟩)
  have hbounded := h.bounded
  unfold takeCopy
  rw [if_neg (by rw [hnew]; exact Bool.false_ne_true), hhistory]
  refine ⟨htracks.tracks.withMark ⟨session.sessionId, rfl⟩, rfl, ?_,
    fun entry hm => ⟨harrived entry hm, (isTakeable_queueAfter hm).session⟩, harrived, ?_⟩
  · rintro _ ⟨⟩
    exact hps
  · show loop.history.clientQueue.nextSequence + returns' ≤ events' + 1
    rw [hcl]
    omega

/-! ### Posts -/

/-- The post of a state that was taken before, or before the first copy, changes nothing. -/
theorem Follows.takePost_stale (hbelow : session.IsUnsaturated)
    (hstale : (run.taken.isNone || run.isStale postCount) = true) (shows : Bool) :
    run.takePost session postCount shows = run := by
  unfold takePost
  dsimp only
  split
  · rfl
  rename_i postedEntry hl
  rw [if_pos hstale]
  suffices hhistory : (run.history.takeSessionPost (session.queueAfter postCount).revision postedEntry
      shows).1 = run.history by rw [hhistory]
  have hmark := h.mark
  unfold takeSessionPost
  rcases htk : run.taken with _ | taken
  · rw [htk] at hmark
    rw [hmark]
    rfl
  · rw [htk] at hmark
    rw [hmark]
    have hle : postCount ≤ taken := by simpa [isStale, htk] using hstale
    have hrev : (session.queueAfter postCount).revision ≤ (session.queueAfter taken).revision := by
      rcases Nat.lt_or_eq_of_le hle with hlt | rfl
      · exact le_of_lt (isLater_queueAfter hbelow hlt (h.taken taken htk)).revision
      · exact le_refl _
    dsimp only [map_some]
    split
    · rfl
    · rw [if_pos (show (session.queueAfter postCount).revision ≤ (session.markAfter taken).revision from hrev)]

end

theorem isStale_succ {taken : Nat} (htk : run.taken = some taken) : run.isStale (taken + 1) = false := by
  simp [isStale, htk]

section

variable (h : Follows session events' returns run)

include h

theorem Follows.takePost_new {taken : Nat} (hbelow : session.IsUnsaturated)
    (hft : session.posts.length + events' < maxU64) (htk : run.taken = some taken)
    (hps : taken + 1 ≤ session.posts.length) (shows : Bool) :
    ∃ returns',
      Follows session (events' + 1) returns' (run.takePost session (taken + 1) shows) ∧
      returns ≤ returns' ∧
      (returns' = returns ↔ run.RepeatsHeld session (.post (taken + 1) shows)) := by
  have hlr := isLater_succ hbelow hps
  obtain ⟨postedEntry, hl, hnewer, hentries⟩ := newest_succ hbelow hps
  have hm := mem_of_getLast? hl
  have htake := isTakeable_queueAfter hm
  have hlist : run.listTakenQueue session = (session.queueAfter taken).queuedEntries := by simp [listTakenQueue, htk]
  have hc := countPosted_listTakenQueue_le h
  have hbounded := h.bounded
  have hlt := sequence_lt_of_mem hps hm
  have hstale : (run.taken.isNone || run.isStale (taken + 1)) = false := by simp [isStale_succ htk, htk]
  have htracks := @Tracks.withMark _ _ _ _ _ _ h.tracks (session.markAfter (taken + 1)) ⟨session.sessionId, rfl⟩
  rw [hlist] at htracks hc
  obtain ⟨next, hn, hnextTracks, hs⟩ := htracks.take htake.session htake.owner htake.epoch
    (countPosted_le_of_isNewer hnewer) htake.text (by
      show _ + run.history.clientQueue.nextSequence + _ ≤ _
      omega) shows
  have hhistory : (run.history.takeSessionPost (session.queueAfter (taken + 1)).revision postedEntry
      shows).1 = next := by
    have hmark := h.mark
    rw [htk] at hmark
    have hrev := hlr.revision
    have hisNew : isNewEntry (session.markAfter taken).mergedThrough postedEntry = true := isNewEntry_iff.mpr hnewer
    unfold takeSessionPost
    rw [hmark]
    dsimp only [map_some]
    rw [if_neg (by
      rintro (hne | hne)
      · exact hne htake.owner
      · exact hne htake.epoch),
      if_neg (show ¬(session.queueAfter (taken + 1)).revision ≤ (session.markAfter taken).revision from
        not_le_of_gt hrev)]
    rw [if_pos hisNew, if_pos hisNew, htake.text, ← hn]
    have hmd : ({ session.markAfter taken with
        revision := (session.queueAfter (taken + 1)).revision
        mergedThrough := some ⟨postedEntry.notificationId.sequence, postedEntry.repeatCount⟩ } : SessionQueueMark) =
          session.markAfter (taken + 1) := by
      unfold markAfter
      rw [hl]
      rfl
    have hexp : expectedSequence (session.markAfter taken).mergedThrough =
        countPosted (session.queueAfter taken).queuedEntries.getLast? := expectedSequence_eq (by omega)
    rw [hmd, hexp]
  unfold takePost
  dsimp only
  rw [hl]
  dsimp only
  rw [if_neg (by rw [hstale]; exact Bool.false_ne_true), hhistory]
  generalize hrets : (returns + if postedEntry.notificationId.sequence + 1 =
      countPosted (session.queueAfter taken).queuedEntries.getLast? ∧ postedEntry.notificationId ∉
        listMergedIds { run.history with sessionQueueMark := some (session.markAfter (taken + 1)) } then 1 else 0) =
    returns' at hnextTracks
  have hrets : (returns + if postedEntry.notificationId.sequence + 1 =
      countPosted (session.queueAfter taken).queuedEntries.getLast? ∧ postedEntry.notificationId ∉
        run.history.listMergedIds then 1 else 0) = returns' := hrets
  have hbo : returns ≤ returns' ∧ returns' ≤ returns + 1 := by
    rw [← hrets]
    split <;> omega
  refine ⟨returns', ⟨?_, ?_, ?_, ?_, ?_, ?_⟩, hbo.1, ?_⟩
  · have hps : countPosted (session.queueAfter (taken + 1)).queuedEntries.getLast? =
        postedEntry.notificationId.sequence + 1 := by
      rw [hl]
      rfl
    show Tracks _ _ (countPosted (session.queueAfter (taken + 1)).queuedEntries.getLast?) _ _ _
    rw [hps]
    exact hnextTracks
  · exact hs.sessionQueueMark
  · rintro _ ⟨⟩
    exact hps
  · intro entry hin
    rcases mem_arrive.mp hin with ⟨hin, hne⟩ | rfl
    · obtain ⟨harrived, hsess⟩ := h.takenEntries entry hin
      exact ⟨mem_arrive.mpr (.inl ⟨harrived, hne⟩), hsess⟩
    · exact ⟨mem_arrive.mpr (.inr rfl), htake.session⟩
  · intro entry hin
    have hin : entry ∈ (session.queueAfter (taken + 1)).queuedEntries := hin
    by_cases hid : entry.notificationId = postedEntry.notificationId
    · have heq := eq_of_sequence (session.sound_queueAfter (taken + 1)).1.rising hin hm (by rw [hid])
      exact mem_arrive.mpr (.inr heq)
    · rcases hentries entry hin with hold | rfl
      · rw [← hlist] at hold
        exact mem_arrive.mpr (.inl ⟨h.queued entry hold, hid⟩)
      · exact absurd rfl hid
  · show next.clientQueue.nextSequence + _ ≤ events' + 1
    rw [hs.clientQueue]
    show run.history.clientQueue.nextSequence + _ ≤ events' + 1
    omega
  · have hrepeats := repeats_iff hlr hm
    rw [← hrets]
    simp only [Nat.add_eq_left, ite_eq_right_iff, Nat.one_ne_zero, imp_false, not_and_or, not_not, RepeatsHeld]
    rw [isStale_succ htk, hlist]
    constructor
    · intro hh
      refine .inr fun entry hin newest hnw hid hne => ?_
      obtain ⟨hentryNewer, hseq⟩ := (repeats_iff hlr hin).mpr ⟨newest, hnw, hid, hne⟩
      rcases hentries entry hin with hold | rfl
      · exact absurd hentryNewer ((session.sound_queueAfter taken).1.not_isNewer hold)
      · exact hh.resolve_left fun hne => hne hseq
    · rintro (hfalse | hh)
      · cases hfalse
      · by_cases hseq : postedEntry.notificationId.sequence + 1 =
            countPosted (session.queueAfter taken).queuedEntries.getLast?
        · obtain ⟨newest, hnw, hid, hne⟩ := hrepeats.mp ⟨hnewer, hseq⟩
          exact .inr (hh postedEntry hm newest hnw hid hne)
        · exact .inl hseq

/-! ### Runs -/

theorem Follows.later {laterCount : Nat} (hle : events' ≤ laterCount) : Follows session laterCount returns run :=
  ⟨h.tracks, h.mark, h.taken, h.takenEntries, h.queued, le_trans h.bounded hle⟩

theorem Follows.postOwn (post : NotificationQueue.Post) (shows : Bool) :
    ∃ returns', Follows session (events' + 1) returns' (run.postOwn post shows) ∧
      returns ≤ returns' ∧
      (returns' = returns ↔ run.RepeatsHeld session (.own post shows)) := by
  obtain ⟨returns', htracks, hiff, hle, hbo, hmark, -⟩ := h.tracks.post post shows
  obtain ⟨hown, -⟩ := h.tracks.sound.own.postedEntry post.severity post.text post.postCount post.createdAt
  have hbounded := h.bounded
  have harrived : ∀ entry ∈ run.arrived, isSessionEntry entry = true → entry ∈ (run.postOwn post shows).arrived := by
    intro entry hm hsess
    refine mem_arrive.mpr (.inl ⟨hm, fun hs => ?_⟩)
    unfold isSessionEntry at hsess hown
    rw [hs, hown] at hsess
    cases hsess
  refine ⟨returns', ⟨htracks, hmark.trans h.mark, h.taken, fun entry hm => ?_, fun entry hm => ?_, ?_⟩, hle, hiff⟩
  · obtain ⟨hin, hsess⟩ := h.takenEntries entry hm
    exact ⟨harrived entry hin hsess, hsess⟩
  · refine harrived entry (h.queued entry hm) ?_
    rcases htk : run.taken with _ | taken
    · have hnone : run.listTakenQueue session = [] := by simp [listTakenQueue, htk]
      have hm : entry ∈ run.listTakenQueue session := hm
      rw [hnone] at hm
      cases hm
    · have hso : run.listTakenQueue session = (session.queueAfter taken).queuedEntries := by simp [listTakenQueue, htk]
      have hm : entry ∈ run.listTakenQueue session := hm
      rw [hso] at hm
      exact (isTakeable_queueAfter hm).session
  · exact le_trans hbo (by omega)

end

section Runs

variable {slide : Nat → Nat → Nat → Nat → Nat}

theorem Follows.apply (h : Follows session events' returns run) (hbelow : session.IsUnsaturated)
    (hft : session.posts.length + events' < maxU64) {ev : ViewerEvent} (hallow : run.Allows session ev) :
    ∃ returns',
      Follows session (events' + 1) returns' (run.apply session slide ev) ∧
      returns ≤ returns' ∧ (returns' = returns ↔ run.RepeatsHeld session ev) := by
  cases ev with
  | copy postCount showsToasts =>
    rcases hstale : run.isStale postCount with _ | _
    · exact h.takeCopy_new hbelow hft hallow hstale showsToasts
    · refine ⟨returns, ?_, le_refl _, iff_of_true rfl (.inl hstale)⟩
      show Follows session (events' + 1) returns (run.takeCopy session postCount showsToasts)
      rw [h.takeCopy_stale hbelow (by omega) hstale]
      exact h.later (Nat.le_succ _)
  | post postCount showsToasts =>
    obtain ⟨hpos, hps, hn⟩ := hallow
    rcases htk : run.taken with _ | taken
    · refine ⟨returns, ?_, le_refl _, iff_of_true rfl (.inr ?_)⟩
      · show Follows session (events' + 1) returns (run.takePost session postCount showsToasts)
        rw [h.takePost_stale hbelow (by simp [htk])]
        exact h.later (Nat.le_succ _)
      · intro entry _ newest hnw
        simp [listTakenQueue, htk] at hnw
    · have hle := hn taken htk
      rcases hstale : run.isStale postCount with _ | _
      · have hlt : taken < postCount := by simpa [isStale, htk] using hstale
        obtain rfl : postCount = taken + 1 := by omega
        exact h.takePost_new hbelow hft htk hps showsToasts
      · refine ⟨returns, ?_, le_refl _, iff_of_true rfl (.inl hstale)⟩
        show Follows session (events' + 1) returns (run.takePost session postCount showsToasts)
        rw [h.takePost_stale hbelow (by simp [hstale])]
        exact h.later (Nat.le_succ _)
  | own post showsToasts => exact h.postOwn post showsToasts
  | shows op =>
    obtain ⟨htracks, hshrinks⟩ := @Tracks.shows _ _ _ _ _ _ slide h.tracks op hallow
    refine ⟨returns, ⟨htracks, hshrinks.sessionQueueMark.trans h.mark, h.taken, h.takenEntries, h.queued, ?_⟩,
      le_refl _, iff_of_true rfl trivial⟩
    have hbounded := h.bounded
    show (run.history.apply slide op).clientQueue.nextSequence + returns ≤ events' + 1
    rw [hshrinks.clientQueue]
    omega

/-- A run of events. No entry came back exactly when each repeat found its entry held. -/
theorem Follows.runEvents {events : List ViewerEvent} (h : Follows session events' returns run)
    (hbelow : session.IsUnsaturated) (hft : session.posts.length + events' + events.length ≤ maxU64)
    (hallow : run.AllowsAll session slide events) :
    ∃ lastEvents lastCount,
      Follows session lastEvents lastCount (run.runEvents session slide events) ∧
      returns ≤ lastCount ∧
      (lastCount = returns ↔ run.AllRepeatsHeld session slide events) := by
  induction events generalizing run events' returns with
  | nil => exact ⟨events', returns, h, le_refl _, iff_of_true rfl trivial⟩
  | cons ev events ih =>
    rw [length_cons] at hft
    obtain ⟨hev, hevs⟩ := hallow
    obtain ⟨returns', hn, hle, hiff⟩ :=
      @Follows.apply _ _ _ _ slide h hbelow (by omega) ev hev
    obtain ⟨lastEvents, lastCount, hl, hlastLe, hlastIff⟩ := ih hn (by omega) hevs
    refine ⟨lastEvents, lastCount, hl, le_trans hle hlastLe, ?_⟩
    show _ ↔ run.RepeatsHeld session ev ∧ AllRepeatsHeld session slide _ events
    rw [← hiff, ← hlastIff]
    omega

theorem follows_start (session : NotificationSession) (clientId : ClientId) (epoch : NotificationEpoch) :
    Follows session 0 0 (start clientId epoch) := by
  refine ⟨⟨runSound_start clientId epoch false, drop_nil.symm, nodup_nil, ?_, ?_, rfl⟩, rfl, ?_, ?_, ?_, le_refl _⟩
  · rintro _ ⟨⟩
  · rintro _ ⟨⟩
  · rintro _ ⟨⟩
  · rintro _ ⟨⟩
  · rintro _ ⟨⟩

theorem Follows.replicates_iff (h : Follows session events' returns run) (hbelow : session.IsUnsaturated)
    (hft : session.posts.length ≤ maxU64) : run.Replicates session ↔ returns = 0 := by
  have hdp := h.tracks.dropped
  constructor
  · intro hreplicates
    have hc := hreplicates.dropped
    rw [countPostedEntries_eq] at hc
    omega
  · rintro rfl
    refine ⟨h.tracks.sound.entries.nodup, h.tracks.sound.entries.bounded, h.tracks.held, fun entry hm => ?_,
      fun postCount shows hstale => ?_, ?_⟩
    · have hin := (h.takenEntries entry hm).1
      rw [← take_append_drop (run.arrived.length - 256) run.arrived, mem_append] at hin
      rw [h.tracks.held]
      exact hin.symm
    · rw [h.takeCopy_stale hbelow hft hstale, h.takePost_stale hbelow (by simp [hstale])]
      exact ⟨rfl, rfl⟩
    · rw [countPostedEntries_eq]
      exact hdp

/-- **A viewer's history agrees with its session exactly when every repeat finds its entry still held.** -/
theorem replicates_iff_allRepeatsHeld (session : NotificationSession) (clientId : ClientId) (epoch : NotificationEpoch)
    (slide : Nat → Nat → Nat → Nat → Nat) (events : List ViewerEvent) (hbelow : session.IsUnsaturated)
    (hfits : session.posts.length + events.length < 2 ^ 64)
    (hallowed : (start clientId epoch).AllowsAll session slide events) :
    ((start clientId epoch).runEvents session slide events).Replicates session ↔
      (start clientId epoch).AllRepeatsHeld session slide events := by
  have hmax : maxU64 = 2 ^ 64 - 1 := rfl
  obtain ⟨events', returns, hlast, -, hiff⟩ :=
    (follows_start session clientId epoch).runEvents hbelow (by omega) hallowed
  rw [hlast.replicates_iff hbelow (by omega)]
  exact hiff

end Runs

/-! ### An evicted entry that comes back -/

def noticePost (severity : NotificationSeverity) : NotificationQueue.Post := ⟨severity, [], 1, 0, Nat.zero_lt_one⟩

/-- A session that posts one notice, and posts it again. -/
def repeatingSession : NotificationSession := ⟨⟨1⟩, ⟨1⟩, [noticePost .error, noticePost .error]⟩

/-- A session has no state after that of all its posts. -/
theorem isUnsaturated_of_le
    (h : ∀ postCount ≤ session.posts.length, ∀ entry ∈ (session.queueAfter postCount).queuedEntries,
    entry.repeatCount < maxU32) : session.IsUnsaturated := by
  intro postCount
  have hlast : session.queueAfter postCount = session.queueAfter (min postCount session.posts.length) := by
    unfold queueAfter
    rw [← take_take, take_length]
  rw [hlast]
  exact h _ (Nat.min_le_right ..)

theorem isUnsaturated_repeatingSession : repeatingSession.IsUnsaturated := isUnsaturated_of_le (by decide)

/-- A session that repeats a notice and posts another one. -/
def mixedSession : NotificationSession := ⟨⟨1⟩, ⟨1⟩, [noticePost .error, noticePost .error, noticePost .info]⟩

/-- A copy, an own post, a copy with the repeat of a held entry, an older copy and the last post alone. -/
def mixedEvents : List ViewerEvent :=
  [.copy 1 true, .own (noticePost .warning) true, .copy 2 true, .copy 1 true, .post 3 true]

theorem replicates_mixedRun :
    ((start ⟨1⟩ ⟨1⟩).runEvents mixedSession (fun _ _ _ _ => 0) mixedEvents).Replicates mixedSession := by
  refine (replicates_iff_allRepeatsHeld mixedSession ⟨1⟩ ⟨1⟩ _ _ (isUnsaturated_of_le (by decide)) (by decide)
    ?_).mpr ?_
  · refine ⟨?_, trivial, ?_, ?_, ?_, trivial⟩ <;> unfold Allows <;> decide
  · refine ⟨?_, ?_, ?_, ?_, ?_, trivial⟩ <;> unfold RepeatsHeld <;> decide

/-- Notices of two severities in turn, so that none repeats the one before. -/
def alternatingPost (index : Nat) : ViewerEvent := .own (noticePost (if index % 2 = 0 then .info else .warning)) false

/-- The viewer takes the notice, posts as many of its own as the history has room for, and takes the notice again. -/
def evictingEvents : List ViewerEvent :=
  (.copy 1 false :: (List.range 256).map alternatingPost) ++ [.copy 2 false]

theorem Follows.arrived_postOwn (h : Follows session events' returns run) {post : NotificationQueue.Post}
    (hnew : run.history.clientQueue.findRepeatedEntry post.severity
      (sanitizeTextToByteCount post.text maxNotificationTextByteCount) = none) (shows : Bool) :
    (run.postOwn post shows).arrived = run.arrived ++
      [run.history.clientQueue.newEntry post.severity post.text post.postCount post.createdAt] := by
  obtain ⟨hown, -⟩ := h.tracks.sound.own.postedEntry post.severity post.text post.postCount post.createdAt
  unfold ViewerRun.postOwn
  rcases run.history.clientQueue.postCoreEntry_cases post.severity post.text post.postCount post.createdAt with
    ⟨newest, hnw, hnotice, -⟩ | ⟨-, hps⟩
  · rw [show run.history.clientQueue.findRepeatedEntry post.severity _ = some newest from
      filter_eq_some_iff.mpr ⟨hnw, hnotice⟩] at hnew
    cases hnew
  rw [hps] at hown ⊢
  unfold arrive
  rw [filter_of_not_mem]
  intro hm
  obtain ⟨entry, hin, hid⟩ := List.mem_map.mp hm
  have hisOwn : isSessionEntry entry = false := by
    unfold isSessionEntry at hown ⊢
    rw [hid]
    exact hown
  have hlt := h.tracks.ownIds entry hin hisOwn
  rw [hid] at hlt
  exact lt_irrefl _ hlt

/-- The run after the first copy and own posts in turn. -/
def evictingRun (count : Nat) : ViewerRun :=
  (start ⟨1⟩ ⟨1⟩).runEvents repeatingSession (fun _ _ _ _ => 0)
    (.copy 1 false :: (List.range count).map alternatingPost)

theorem follows_evictingRun (count : Nat) :
    (∃ returns, Follows repeatingSession (count + 1) returns (evictingRun count)) ∧
      (evictingRun count).taken = some 1 ∧
      (∃ fst own, (evictingRun count).arrived = fst :: own ∧ own.length = count ∧
        ∀ entry ∈ own, isSessionEntry entry = false) ∧
      ∀ newest ∈ (evictingRun count).history.clientQueue.queuedEntries.getLast?,
        newest.severity ≠ if count % 2 = 0 then .info else .warning := by
  induction count with
  | zero =>
    obtain ⟨returns, hfw, -, -⟩ := @Follows.apply _ _ _ _ (fun _ _ _ _ => 0)
      (follows_start repeatingSession ⟨1⟩ ⟨1⟩) isUnsaturated_repeatingSession (by decide) (.copy 1 false)
        (Nat.le_succ 1)
    exact ⟨⟨returns, hfw⟩, rfl, ⟨_, [], rfl, rfl, by simp⟩, by decide⟩
  | succ count ih =>
    obtain ⟨⟨returns, hfw⟩, htk, ⟨fst, own, harrived, hlen, howns⟩, hnw⟩ := ih
    have hstep : evictingRun (count + 1) =
        (evictingRun count).postOwn (noticePost (if count % 2 = 0 then .info else .warning)) false := by
      unfold evictingRun ViewerRun.runEvents
      rw [range_succ, map_append, ← cons_append, List.foldl_append]
      rfl
    rw [hstep]
    generalize hsev : (if count % 2 = 0 then NotificationSeverity.info else .warning) = severity at hnw ⊢
    have hrepeated : (evictingRun count).history.clientQueue.findRepeatedEntry (noticePost severity).severity
        (sanitizeTextToByteCount (noticePost severity).text maxNotificationTextByteCount) = none := by
      refine filter_eq_none_iff.mpr fun newest hm hnotice => hnw newest hm ?_
      simp only [isCoreNotice, Bool.and_eq_true, decide_eq_true_eq] at hnotice
      exact hnotice.1.2
    obtain ⟨returns', hn, -, -⟩ := hfw.postOwn (noticePost severity) false
    obtain ⟨_, -, -, -, -, -, haf⟩ := hfw.tracks.post (noticePost severity) false
    have hnewOwn : isSessionEntry ((evictingRun count).history.clientQueue.newEntry severity [] 1 0) = false := by
      obtain ⟨clientId, hown⟩ := hfw.tracks.sound.own.owner
      exact isSessionEntry_eq_false hown
    refine ⟨⟨returns', hn⟩, htk,
      ⟨fst, own ++ [(evictingRun count).history.clientQueue.newEntry severity [] 1 0], ?_, ?_, fun entry hm => ?_⟩, ?_⟩
    · rw [hfw.arrived_postOwn hrepeated, harrived]
      rfl
    · rw [length_append, hlen]
      rfl
    · rcases mem_append.mp hm with hm | hm
      · exact howns entry hm
      · rw [mem_singleton.mp hm]
        exact hnewOwn
    · have hl : ((evictingRun count).postOwn (noticePost severity) false).history.clientQueue.queuedEntries.getLast? =
          some ((evictingRun count).history.clientQueue.postCoreEntry severity [] 1 0).2 :=
        (congrArg (fun queue => NotificationQueue.queuedEntries queue |>.getLast?) haf).trans
          NotificationQueue.getLast?_postCoreEntry
      rw [hl]
      rintro _ ⟨⟩
      rw [NotificationQueue.severity_postCoreEntry.1, ← hsev]
      rcases Nat.mod_two_eq_zero_or_one count with heven | hodd
      · rw [if_pos heven, if_neg (by omega)]
        exact NotificationSeverity.noConfusion
      · rw [if_neg (by omega), if_pos (by omega)]
        exact NotificationSeverity.noConfusion

/-- No session entry is held once the viewer posted as many of its own as there is room for. -/
theorem not_mem_evictingRun (hsess : isSessionEntry entry = true) :
    entry.notificationId ∉ (evictingRun 256).history.listMergedIds := by
  obtain ⟨⟨returns, hfw⟩, -, ⟨first, own, harrived, hlen, howns⟩, -⟩ := follows_evictingRun 256
  intro hm
  obtain ⟨held, hin, hid⟩ := List.mem_map.mp hm
  rw [hfw.tracks.held, harrived] at hin
  unfold listNewestEntries at hin
  rw [length_cons, hlen, drop_succ_cons, drop_zero] at hin
  have hown := howns held hin
  unfold isSessionEntry at hown hsess
  rw [hid, hsess] at hown
  cases hown

theorem allowsAll_of_forall {slide : Nat → Nat → Nat → Nat → Nat} {events : List ViewerEvent}
    (h : ∀ ev ∈ events, ∀ run : ViewerRun, run.Allows session ev) :
    run.AllowsAll session slide events := by
  induction events generalizing run with
  | nil => trivial
  | cons ev events ih =>
    exact ⟨h ev mem_cons_self run, ih fun other hm => h other (mem_cons_of_mem _ hm)⟩

/-- The notice that came back is counted as dropped though the history holds it. -/
theorem evicted_repeat_counted_dropped :
    repeatingSession.IsUnsaturated ∧
      (start ⟨1⟩ ⟨1⟩).AllowsAll repeatingSession (fun _ _ _ _ => 0) evictingEvents ∧
      ¬((start ⟨1⟩ ⟨1⟩).runEvents repeatingSession (fun _ _ _ _ => 0) evictingEvents).Replicates repeatingSession := by
  refine ⟨isUnsaturated_repeatingSession, allowsAll_of_forall fun event hmem run => ?_, ?_⟩
  · rcases mem_append.mp hmem with hmem | hmem
    · rcases mem_cons.mp hmem with rfl | hmem
      · exact Nat.le_succ 1
      · obtain ⟨index, -, rfl⟩ := List.mem_map.mp hmem
        trivial
    · rw [mem_singleton.mp hmem]
      exact Nat.le_refl 2
  · have hlast : (start ⟨1⟩ ⟨1⟩).runEvents repeatingSession (fun _ _ _ _ => 0) evictingEvents =
        (evictingRun 256).apply repeatingSession (fun _ _ _ _ => 0) (.copy 2 false) := by
      unfold evictingEvents evictingRun ViewerRun.runEvents
      rw [List.foldl_append]
      rfl
    obtain ⟨⟨returns, hfollows⟩, htaken, -, -⟩ := follows_evictingRun 256
    obtain ⟨nextReturnCount, hnext, hle, hiff⟩ := @Follows.apply _ _ _ _ (fun _ _ _ _ => 0) hfollows
      isUnsaturated_repeatingSession (by decide) (.copy 2 false) (Nat.le_refl 2)
    have hreturned : ¬(evictingRun 256).RepeatsHeld repeatingSession (.copy 2 false) := by
      have hlist : (evictingRun 256).listTakenQueue repeatingSession =
          (repeatingSession.queueAfter 1).queuedEntries := by
        simp [listTakenQueue, htaken]
      rintro (hstale | hheld)
      · simp [isStale, htaken] at hstale
      · rw [hlist] at hheld
        exact not_mem_evictingRun rfl (hheld _ mem_cons_self _ rfl rfl (by decide))
    rw [hlast, hnext.replicates_iff isUnsaturated_repeatingSession (by decide)]
    intro hzero
    exact hreturned (hiff.mp (by omega))

end ViewerRun

end Koshi.Client
