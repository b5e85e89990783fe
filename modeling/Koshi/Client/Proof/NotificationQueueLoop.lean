import Koshi.Client.Proof.NotificationReplication

/-!
# Taking a later state of the session's queue

Between two states of a session's queue every entry stays as it is or is newer than the newest entry before. The loop
over a queue's entries takes just those that are newer, and only the first of them can repeat an entry taken before.
-/

namespace Koshi.Client

open Koshi.Core List NotificationQueue
open NotificationQueue (IsNewer)

/-! ### States of the session's queue -/

/-- One state of a queue comes after another. -/
structure IsLater (earlier later : NotificationQueue) : Prop where
  revision : earlier.revision < later.revision
  newest : ∃ latest, later.queuedEntries.getLast? = some latest ∧ IsNewer earlier.queuedEntries.getLast? latest
  entries : ∀ entry ∈ later.queuedEntries, entry ∈ earlier.queuedEntries ∨ IsNewer earlier.queuedEntries.getLast? entry

theorem IsLater.trans {earlier mid later : NotificationQueue} (hf : IsLater earlier mid)
    (hse : IsLater mid later) : IsLater earlier later := by
  obtain ⟨middleEntry, hmid, hmidNewer⟩ := hf.newest
  obtain ⟨lastEntry, hl, hlastNewer⟩ := hse.newest
  rw [hmid] at hlastNewer
  refine ⟨lt_trans hf.revision hse.revision, ⟨lastEntry, hl, hmidNewer.trans hlastNewer⟩, ?_⟩
  intro entry hm
  rcases hse.entries entry hm with hm | hnewer
  · exact hf.entries entry hm
  · rw [hmid] at hnewer
    exact .inr (hmidNewer.trans hnewer)

namespace NotificationSession

variable {session : NotificationSession} {earlier' postCount : Nat}

/-- No entry's repeat count reaches its limit. -/
def IsUnsaturated (session : NotificationSession) : Prop :=
  ∀ postCount, ∀ entry ∈ (session.queueAfter postCount).queuedEntries, entry.repeatCount < maxU32

theorem queueAfter_succ (h : postCount < session.posts.length) :
    session.queueAfter (postCount + 1) = (session.queueAfter postCount).afterPost session.posts[postCount] := by
  unfold queueAfter
  rw [← take_append_getElem h]
  exact afterPosts_concat ..

theorem sound_queueAfter (session : NotificationSession) (postCount : Nat) :
    (session.queueAfter postCount).Sound ∧ (session.queueAfter postCount).owner = .session session.sessionId ∧
      (session.queueAfter postCount).epoch = session.epoch := sound_afterPosts ..

theorem newest_succ (hbelow : session.IsUnsaturated) (h : postCount < session.posts.length) :
    ∃ latest, (session.queueAfter (postCount + 1)).queuedEntries.getLast? = some latest ∧
      IsNewer (session.queueAfter postCount).queuedEntries.getLast? latest ∧
      ∀ entry ∈ (session.queueAfter (postCount + 1)).queuedEntries,
        entry ∈ (session.queueAfter postCount).queuedEntries ∨ entry = latest := by
  rw [queueAfter_succ h]
  exact isNewer_afterPost (hbelow postCount) _

theorem isLater_succ (hbelow : session.IsUnsaturated) (h : postCount < session.posts.length) :
    IsLater (session.queueAfter postCount) (session.queueAfter (postCount + 1)) := by
  obtain ⟨latest, hl, hnewer, hentries⟩ := newest_succ hbelow h
  refine ⟨?_, ⟨latest, hl, hnewer⟩, fun entry hm => ?_⟩
  · rw [queueAfter_succ h]
    have hpos := (session.posts[postCount]).isPositive
    unfold afterPost
    rw [owner_postCoreEntry.2.2]
    omega
  · rcases hentries entry hm with hm | rfl
    · exact .inl hm
    · exact .inr hnewer

theorem isLater_queueAfter (hbelow : session.IsUnsaturated) (hlt : earlier' < postCount)
    (hps : postCount ≤ session.posts.length) :
    IsLater (session.queueAfter earlier') (session.queueAfter postCount) := by
  induction postCount, hlt using Nat.le_induction with
  | base => exact isLater_succ hbelow hps
  | succ postCount hle ih => exact (ih (by omega)).trans (isLater_succ hbelow hps)

theorem nextSequence_queueAfter_le (hps : postCount ≤ session.posts.length) :
    (session.queueAfter postCount).nextSequence ≤ postCount := by
  induction postCount with
  | zero => exact Nat.le_refl 0
  | succ postCount ih =>
    have hle := ih (by omega)
    rw [queueAfter_succ hps]
    generalize session.posts[postCount] = post
    unfold afterPost
    rw [nextSequence_of_getLast? getLast?_postCoreEntry]
    rcases (session.queueAfter postCount).postCoreEntry_cases post.severity post.text post.postCount post.createdAt with
      ⟨latest, hnw, -, hps⟩ | ⟨-, hps⟩
    · rw [hps]
      rw [nextSequence_of_getLast? hnw] at hle
      show latest.notificationId.sequence + 1 ≤ postCount + 1
      omega
    · rw [hps]
      show (session.queueAfter postCount).nextSequence + 1 ≤ postCount + 1
      omega

/-- Of a later state just the entries that an earlier one does not have are newer. -/
theorem isNewer_iff_not_mem (h : IsLater (session.queueAfter earlier') (session.queueAfter postCount))
    {entry : NotificationEntry} (hm : entry ∈ (session.queueAfter postCount).queuedEntries) :
    IsNewer (session.queueAfter earlier').queuedEntries.getLast? entry ↔
      entry ∉ (session.queueAfter earlier').queuedEntries := by
  refine ⟨fun hnewer hold => ?_, fun hnew => (h.entries entry hm).resolve_left hnew⟩
  exact (sound_queueAfter session earlier').1.not_isNewer hold hnewer

theorem validateQueuedEntries_queueAfter (session : NotificationSession) (postCount : Nat) :
    (session.queueAfter postCount).validateQueuedEntries = .ok () := by
  obtain ⟨hsn, -, -⟩ := sound_queueAfter session postCount
  unfold validateQueuedEntries
  rw [if_neg (by have := hsn.bounded; omega)]
  have hnone : ((session.queueAfter postCount).queuedEntries.find? fun queuedEntry =>
      queuedEntry.notificationId.owner ≠ (session.queueAfter postCount).owner ||
        queuedEntry.notificationId.epoch ≠ (session.queueAfter postCount).epoch) = none := by
    rw [List.find?_eq_none]
    intro entry hm
    obtain ⟨hown, hepoch⟩ := hsn.ids entry hm
    simp [hown, hepoch]
  rw [hnone]

end NotificationSession

namespace NotificationHistory

/-! ### The loop over a queue's entries -/

def markEntry (entry : NotificationEntry) : MergedThrough := ⟨entry.notificationId.sequence, entry.repeatCount⟩

/-- How many entries were posted up to the newest. -/
def countPosted (newest : Option NotificationEntry) : Nat :=
  (newest.map fun latest => latest.notificationId.sequence + 1).getD 0

theorem isNewEntry_iff {newest : Option NotificationEntry} {entry : NotificationEntry} :
    isNewEntry (newest.map markEntry) entry = true ↔ IsNewer newest entry := by
  rcases newest with _ | latest
  · simp [isNewEntry, IsNewer]
  · have hnewer : IsNewer (some latest) entry ↔
        latest.notificationId.sequence < entry.notificationId.sequence ∨
          latest.notificationId.sequence = entry.notificationId.sequence ∧
            latest.repeatCount < entry.repeatCount := by simp [IsNewer]
    rw [hnewer]
    simp only [isNewEntry, Option.map_some, Option.all_some, MergedThrough.isOlderThan, markEntry, Bool.or_eq_true,
      Bool.and_eq_true, decide_eq_true_eq]
    omega

theorem countPosted_le_of_isNewer {newest : Option NotificationEntry} {entry : NotificationEntry}
    (h : IsNewer newest entry) : countPosted newest ≤ entry.notificationId.sequence + 1 := by
  rcases newest with _ | latest
  · exact Nat.zero_le _
  · have hnewer := h latest rfl
    show latest.notificationId.sequence + 1 ≤ _
    omega

theorem lt_countPosted_of_not_isNewer {newest : Option NotificationEntry} {entry : NotificationEntry}
    (h : ¬IsNewer newest entry) : entry.notificationId.sequence < countPosted newest := by
  rcases newest with _ | latest
  · exact absurd nofun h
  · show _ < latest.notificationId.sequence + 1
    by_contra hle
    refine h fun other hm => ?_
    obtain rfl : latest = other := Option.some.inj hm
    omega

theorem isNewer_of_countPosted_le {newest : Option NotificationEntry} {entry : NotificationEntry}
    (h : countPosted newest ≤ entry.notificationId.sequence) : IsNewer newest entry := by
  by_contra hold
  have hlt := lt_countPosted_of_not_isNewer hold
  omega

structure IsTakeable (owner : NotificationQueueOwner) (epoch : NotificationEpoch) (entry : NotificationEntry) :
    Prop where
  session : isSessionEntry entry = true
  owner : entry.notificationId.owner = owner
  epoch : entry.notificationId.epoch = epoch
  text : sanitizeReceivedEntry entry = entry

/-- The loop over a queue's entries with the newest entry it took. -/
structure LoopTracks (owner : NotificationQueueOwner) (epoch : NotificationEpoch) (newest : Option NotificationEntry)
    (returned : Nat) (arrived : List NotificationEntry) (loop : QueueLoop) : Prop where
  tracks : Tracks owner epoch (countPosted newest) returned arrived loop.history
  mergedThrough : loop.mergedThrough = newest.map markEntry
  expected : loop.nextExpectedSequence = countPosted newest

variable {owner : NotificationQueueOwner} {epoch : NotificationEpoch} {newest : Option NotificationEntry}
  {returned : Nat} {arrived : List NotificationEntry} {loop : QueueLoop} {entry : NotificationEntry}

variable {entries : List NotificationEntry}

theorem takeQueuedEntry_old (hmg : loop.mergedThrough = newest.map markEntry)
    (hexp : loop.nextExpectedSequence = countPosted newest) (htext : sanitizeReceivedEntry entry = entry)
    (hold : ¬IsNewer newest entry) (previews : Bool) :
    takeQueuedEntry previews loop entry = loop := by
  have hlt := lt_countPosted_of_not_isNewer hold
  have hcd : loop.history.countSkippedSequences entry loop.nextExpectedSequence =
      (loop.history, loop.nextExpectedSequence) := by
    unfold countSkippedSequences
    rw [if_pos (by rw [hexp]; exact hlt)]
  have hisOld : ¬isNewEntry loop.mergedThrough entry = true := by
    rw [hmg, isNewEntry_iff]
    exact hold
  unfold takeQueuedEntry
  rw [htext]
  dsimp only
  rw [hcd, if_neg hisOld]

theorem foldl_takeQueuedEntry_old (hmg : loop.mergedThrough = newest.map markEntry)
    (hexp : loop.nextExpectedSequence = countPosted newest)
    (htext : ∀ entry ∈ entries, sanitizeReceivedEntry entry = entry) (hold : ∀ entry ∈ entries, ¬IsNewer newest entry)
    (previews : Bool) : entries.foldl (takeQueuedEntry previews) loop = loop := by
  induction entries with
  | nil => rfl
  | cons entry entries ih =>
    rw [foldl_cons, takeQueuedEntry_old hmg hexp (htext entry mem_cons_self) (hold entry mem_cons_self)]
    exact ih (fun other hm => htext other (mem_cons_of_mem _ hm)) fun other hm => hold other (mem_cons_of_mem _ hm)

theorem expectedSequence_eq (hft : countPosted newest ≤ maxU64) :
    expectedSequence (newest.map markEntry) = countPosted newest := by
  rcases newest with _ | latest
  · rfl
  · exact Nat.min_eq_left hft

section

variable (h : LoopTracks owner epoch newest returned arrived loop)

include h

/-- A newer entry arrives. It comes back when it repeats the newest one and is not held. -/
theorem LoopTracks.takeNew (htake : IsTakeable owner epoch entry) (hnewer : IsNewer newest entry)
    (hft : entry.notificationId.sequence + 1 + loop.history.clientQueue.nextSequence + returned ≤ maxU64)
    (previews : Bool) :
    LoopTracks owner epoch (some entry)
        (returned + if entry.notificationId.sequence + 1 = countPosted newest ∧
          entry.notificationId ∉ loop.history.listMergedIds then 1 else 0) (arrive arrived entry)
        (takeQueuedEntry previews loop entry) ∧
      (takeQueuedEntry previews loop entry).history.clientQueue = loop.history.clientQueue := by
  have hps := countPosted_le_of_isNewer hnewer
  obtain ⟨next, hn, htracks, hs⟩ := h.tracks.take htake.session htake.owner htake.epoch hps
    htake.text hft previews
  have hisNew : isNewEntry loop.mergedThrough entry = true := by
    rw [h.mergedThrough, isNewEntry_iff]
    exact hnewer
  have hexp : (loop.history.countSkippedSequences entry loop.nextExpectedSequence).2 =
      entry.notificationId.sequence + 1 := by
    rw [h.expected]
    unfold countSkippedSequences
    by_cases hrepeat : entry.notificationId.sequence < countPosted newest
    · rw [if_pos hrepeat]
      show countPosted newest = _
      omega
    · rw [if_neg hrepeat]
      show min (entry.notificationId.sequence + 1) maxU64 = _
      omega
  have htk : takeQueuedEntry previews loop entry =
      ⟨next, some (markEntry entry), entry.notificationId.sequence + 1⟩ := by
    unfold takeQueuedEntry
    rw [htake.text]
    dsimp only
    rw [if_pos hisNew, hexp, h.expected, hn]
    rfl
  rw [htk]
  exact ⟨⟨htracks, rfl, rfl⟩, hs.clientQueue⟩

/-- Entries that all come after the newest one arrive in turn, and none comes back. -/
theorem LoopTracks.takeAll (htake : ∀ entry ∈ entries, IsTakeable owner epoch entry)
    (hrising : entries.Pairwise fun fst snd => fst.notificationId.sequence < snd.notificationId.sequence)
    (hps : ∀ entry ∈ entries, countPosted newest ≤ entry.notificationId.sequence) (hft : ∀ entry ∈ entries,
      entry.notificationId.sequence + 1 + loop.history.clientQueue.nextSequence + returned ≤ maxU64)
    (previews : Bool) :
    LoopTracks owner epoch (entries.getLast?.or newest) returned (entries.foldl arrive arrived)
        (entries.foldl (takeQueuedEntry previews) loop) ∧
      (entries.foldl (takeQueuedEntry previews) loop).history.clientQueue = loop.history.clientQueue := by
  induction entries generalizing newest arrived loop with
  | nil => exact ⟨h, rfl⟩
  | cons entry entries ih =>
    rw [pairwise_cons] at hrising
    have hlt := hps entry mem_cons_self
    obtain ⟨hn, hq⟩ := h.takeNew (htake entry mem_cons_self) (isNewer_of_countPosted_le hlt)
      (hft entry mem_cons_self) previews
    rw [if_neg (by omega)] at hn
    obtain ⟨hl, hlastQ⟩ := ih hn (fun other hm => htake other (mem_cons_of_mem _ hm)) hrising.2
      (fun other hm => hrising.1 other hm)
      (fun other hm => by rw [hq]; exact hft other (mem_cons_of_mem _ hm))
    refine ⟨?_, hlastQ.trans hq⟩
    have hnw : (entry :: entries).getLast?.or newest = entries.getLast?.or (some entry) := by
      rw [List.getLast?_cons]
      rcases entries.getLast? with _ | last
      · rfl
      · rfl
    rw [hnw]
    exact hl

/-- Of a later state's entries the newer ones arrive, and only the first of them can come back. -/
theorem LoopTracks.takeLater (htake : ∀ entry ∈ entries, IsTakeable owner epoch entry)
    (hrising : entries.Pairwise fun fst snd => fst.notificationId.sequence < snd.notificationId.sequence)
    (hnw : ∃ last, entries.getLast? = some last ∧ IsNewer newest last) (hft : ∀ entry ∈ entries,
      entry.notificationId.sequence + 1 + loop.history.clientQueue.nextSequence + returned < maxU64)
    (previews : Bool) :
    ∃ returns',
      LoopTracks owner epoch entries.getLast? returns'
        ((entries.filter (isNewEntry (newest.map markEntry))).foldl arrive arrived)
        (entries.foldl (takeQueuedEntry previews) loop) ∧
      (entries.foldl (takeQueuedEntry previews) loop).history.clientQueue = loop.history.clientQueue ∧
      returned ≤ returns' ∧ returns' ≤ returned + 1 ∧
      (returns' = returned ↔ ∀ entry ∈ entries, IsNewer newest entry →
        entry.notificationId.sequence + 1 = countPosted newest →
          entry.notificationId ∈ loop.history.listMergedIds) := by
  induction entries with
  | nil =>
    obtain ⟨last, hl, -⟩ := hnw
    cases hl
  | cons entry entries ih =>
    rw [pairwise_cons] at hrising
    have hr : ∀ other ∈ entries, IsTakeable owner epoch other :=
      fun other hm => htake other (mem_cons_of_mem _ hm)
    rw [foldl_cons]
    by_cases hnewer : IsNewer newest entry
    · -- every later entry comes after this one, so all of them arrive
      have haf : ∀ other ∈ entries, IsNewer newest other := by
        intro other hm
        refine hnewer.trans fun latest hs => ?_
        obtain rfl : entry = latest := Option.some.inj hs
        exact .inl (hrising.1 other hm)
      have hfilter : (entry :: entries).filter (isNewEntry (newest.map markEntry)) = entry :: entries := by
        refine filter_eq_self.mpr fun other hm => isNewEntry_iff.mpr ?_
        rcases mem_cons.mp hm with rfl | hm
        · exact hnewer
        · exact haf other hm
      have hfitsFst := hft entry mem_cons_self
      have hps := countPosted_le_of_isNewer hnewer
      obtain ⟨hn, hq⟩ := h.takeNew (htake entry mem_cons_self) hnewer (le_of_lt hfitsFst) previews
      generalize hrets : (returned + if entry.notificationId.sequence + 1 = countPosted newest ∧
        entry.notificationId ∉ loop.history.listMergedIds then 1 else 0) = returns' at hn
      have hbo : returned ≤ returns' ∧ returns' ≤ returned + 1 := by
        rw [← hrets]
        split <;> omega
      obtain ⟨hl, hlastQ⟩ := hn.takeAll hr hrising.2 (fun other hm => hrising.1 other hm)
        (fun other hm => by
          rw [hq]
          have ho := hft other (mem_cons_of_mem _ hm)
          omega) previews
      refine ⟨returns', ?_, hlastQ.trans hq, hbo.1, hbo.2, ?_⟩
      · rw [hfilter, List.getLast?_cons, foldl_cons]
        have hor : entries.getLast?.or (some entry) = some (entries.getLast?.getD entry) := by
          rcases entries.getLast? with _ | last
          · rfl
          · rfl
        rw [← hor]
        exact hl
      · constructor
        · intro hs other hm _ hrepeat
          rcases mem_cons.mp hm with rfl | hm
          · by_contra hgone
            rw [if_pos ⟨hrepeat, hgone⟩] at hrets
            omega
          · have hlt := hrising.1 other hm
            omega
        · intro hh
          rw [← hrets, if_neg, Nat.add_zero]
          rintro ⟨hrepeat, hgone⟩
          exact hgone (hh entry mem_cons_self hnewer hrepeat)
    · rw [takeQueuedEntry_old h.mergedThrough h.expected (htake entry mem_cons_self).text hnewer]
      obtain ⟨last, hl, hlastNewer⟩ := hnw
      have hlast' : entries.getLast? = some last := by
        rw [List.getLast?_cons] at hl
        rcases hrestLast : entries.getLast? with _ | restLast
        · rw [hrestLast] at hl
          obtain rfl : entry = last := Option.some.inj hl
          exact absurd hlastNewer hnewer
        · rw [hrestLast] at hl
          exact hl
      obtain ⟨returns', hn, hq, hle, hbo, hiff⟩ := ih hr hrising.2 ⟨last, hlast', hlastNewer⟩
        fun other hm => hft other (mem_cons_of_mem _ hm)
      refine ⟨returns', ?_, hq, hle, hbo, hiff.trans ?_⟩
      · rw [hl, ← hlast', filter_cons_of_neg (by rw [isNewEntry_iff]; exact hnewer)]
        exact hn
      · refine ⟨fun hh other hm ho => ?_, fun hh other hm => hh other (mem_cons_of_mem _ hm)⟩
        rcases mem_cons.mp hm with rfl | hm
        · exact absurd ho hnewer
        · exact hh other hm ho

end

/-! ### Arrivals of many entries -/

theorem mem_foldl_arrive_of_ne (hm : entry ∈ arrived)
    (hne : ∀ other ∈ entries, entry.notificationId ≠ other.notificationId) : entry ∈ entries.foldl arrive arrived := by
  induction entries generalizing arrived with
  | nil => exact hm
  | cons fst entries ih =>
    refine ih (mem_arrive.mpr (.inl ⟨hm, hne fst mem_cons_self⟩)) fun other ho => ?_
    exact hne other (mem_cons_of_mem _ ho)

theorem mem_foldl_arrive
    (hrising : entries.Pairwise fun fst snd => fst.notificationId.sequence < snd.notificationId.sequence)
    (hm : entry ∈ entries) : entry ∈ entries.foldl arrive arrived := by
  induction entries generalizing arrived with
  | nil => cases hm
  | cons fst entries ih =>
    rw [pairwise_cons] at hrising
    rw [foldl_cons]
    rcases mem_cons.mp hm with rfl | hm
    · refine mem_foldl_arrive_of_ne (mem_arrive.mpr (.inr rfl)) fun other ho hs => ?_
      have hlt := hrising.1 other ho
      rw [hs] at hlt
      exact absurd hlt (lt_irrefl _)
    · exact ih hrising.2 hm

end NotificationHistory

end Koshi.Client
