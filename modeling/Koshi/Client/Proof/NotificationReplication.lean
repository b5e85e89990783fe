import Koshi.Client.NotificationReplication

/-!
# A viewer's history against its session's queue

The history holds the newest of the entries that arrived. The dropped count and the held entries together grow by one
with each arrival of an entry that is not held, so they count every entry once, and once more each time an entry comes
back after the history evicted it.
-/

namespace Koshi.Client

open Koshi.Core List NotificationQueue

variable {entries : List NotificationEntry}

/-! ### The newest entries -/

def listNewestEntries (entries : List NotificationEntry) : List NotificationEntry := entries.drop (entries.length - 256)

theorem nodup_arrive (hnd : (entries.map (·.notificationId)).Nodup)
    (ae : NotificationEntry) : ((arrive entries ae).map (·.notificationId)).Nodup := by
  unfold arrive
  rw [map_append, nodup_append]
  refine ⟨hnd.sublist (List.Sublist.map _ filter_sublist), nodup_singleton _, ?_⟩
  intro noteId hm j ho
  rw [map_singleton, mem_singleton] at ho
  subst ho
  obtain ⟨entry, hin, rfl⟩ := List.mem_map.mp hm
  exact of_decide_eq_true (mem_filter.mp hin).2

theorem mem_arrive {ae entry : NotificationEntry} :
    entry ∈ arrive entries ae ↔ entry ∈ entries ∧ entry.notificationId ≠ ae.notificationId ∨ entry = ae := by
  simp [arrive]

theorem length_filter_of_mem {noteId : NotificationId} (hnd : (entries.map (·.notificationId)).Nodup)
    (hm : noteId ∈ entries.map (·.notificationId)) :
    (entries.filter fun entry => entry.notificationId ≠ noteId).length + 1 = entries.length := by
  obtain ⟨entry, hin, rfl⟩ := List.mem_map.mp hm
  obtain ⟨index, hlt, hg⟩ := getElem_of_mem hin
  have hget? : entries[index]? = some entry := by
    rw [List.getElem?_eq_getElem hlt, hg]
  have hpos : 0 < entries.length := by omega
  rw [← NotificationHistory.eraseIdx_eq_filter hnd hget?, length_eraseIdx_of_lt hlt]
  omega

theorem filter_of_not_mem {noteId : NotificationId} (hm : noteId ∉ entries.map (·.notificationId)) :
    (entries.filter fun entry => entry.notificationId ≠ noteId) = entries := by
  refine filter_eq_self.mpr fun entry hin => decide_eq_true fun hs => hm ?_
  rw [← hs]
  exact List.mem_map_of_mem hin

theorem drop_append_length {fst second : List NotificationEntry} {count : Nat} (h : count = fst.length) :
    (fst ++ second).drop count = second := by
  rw [h]
  exact drop_left ..

theorem listNewestEntries_arrive (hnd : (entries.map (·.notificationId)).Nodup) (ae : NotificationEntry) :
    listNewestEntries (arrive entries ae) =
      NotificationHistory.keepRoom ((listNewestEntries entries).filter fun entry =>
        entry.notificationId ≠ ae.notificationId) ++ [ae] := by
  have hsp : entries = entries.take (entries.length - 256) ++ listNewestEntries entries :=
    (take_append_drop ..).symm
  have holder : (entries.take (entries.length - 256)).length = entries.length - 256 := by
    rw [length_take]
    omega
  have hnw : (listNewestEntries entries).length = entries.length - (entries.length - 256) := length_drop ..
  generalize entries.take (entries.length - 256) = older at hsp holder
  generalize listNewestEntries entries = newest at hsp hnw ⊢
  have hfilter : (entries.filter fun entry => entry.notificationId ≠ ae.notificationId) =
      (older.filter fun entry => entry.notificationId ≠ ae.notificationId) ++
        newest.filter fun entry => entry.notificationId ≠ ae.notificationId := by
    rw [hsp, filter_append]
  have hids : (older.map (·.notificationId) ++ newest.map (·.notificationId)).Nodup := by
    rw [← map_append, ← hsp]
    exact hnd
  have hlen := congrArg List.length hsp
  rw [length_append] at hlen
  unfold listNewestEntries arrive NotificationHistory.keepRoom maxMergedNotificationCount
  rw [hfilter]
  by_cases hm : ae.notificationId ∈ newest.map (·.notificationId)
  · have hone := length_filter_of_mem (nodup_append.mp hids).2.1 hm
    rw [filter_of_not_mem fun hin => (nodup_append.mp hids).2.2 _ hin _ hm rfl]
    generalize (newest.filter fun entry => entry.notificationId ≠ ae.notificationId) = kept at hone ⊢
    have hc : ((older ++ kept) ++ [ae]).length - 256 = older.length := by
      simp only [length_append, length_singleton]
      omega
    rw [if_neg (by omega), append_assoc, ← append_assoc, hc, append_assoc]
    exact drop_append_length rfl
  · rw [filter_of_not_mem hm]
    have hk : (older.filter fun entry => entry.notificationId ≠ ae.notificationId).length ≤ older.length :=
      length_filter_le ..
    generalize (older.filter fun entry => entry.notificationId ≠ ae.notificationId) = kept at *
    split
    · rename_i hfull
      obtain ⟨oldest, rest, rfl⟩ := exists_cons_of_length_pos (show 0 < newest.length by omega)
      have hc : ((kept ++ oldest :: rest) ++ [ae]).length - 256 = (kept ++ [oldest]).length := by
        simp only [length_append, length_cons] at hfull ⊢
        omega
      rw [hc, tail_cons]
      have hs : (kept ++ oldest :: rest) ++ [ae] = (kept ++ [oldest]) ++ (rest ++ [ae]) := by simp
      rw [hs]
      exact drop_append_length rfl
    · rename_i hroom
      have hnone : kept = [] := eq_nil_of_length_eq_zero (by omega)
      have hc : ((kept ++ newest) ++ [ae]).length - 256 = 0 := by
        simp only [hnone, nil_append, length_append, length_singleton]
        omega
      rw [hc, drop_zero, hnone, nil_append]

namespace NotificationHistory

variable {memFits : NotificationId × NotificationSeverity → Prop} {ae : NotificationEntry}

/-- The dropped count and the held entries together grow by one with an entry that is not held. -/
theorem Arrives.count {history next : NotificationHistory} (h : Arrives memFits ae history next)
    (hsn : EntriesSound history) (hremote : history.isSessionLocal = false) :
    next.droppedEntryCount + next.mergedEntries.length = history.droppedEntryCount + history.mergedEntries.length +
      (if ae.notificationId ∈ history.listMergedIds then 0 else 1) := by
  have hk : history.listKeptEntries ae = history.listOtherEntries ae := by
    simp [listKeptEntries, keepUnreplaced, hremote]
  have hbo := hsn.bounded
  rw [h.dropped, h.merged, hk, length_append, length_singleton]
  unfold keepRoom listOtherEntries
  by_cases hm : ae.notificationId ∈ history.listMergedIds
  · have hone := length_filter_of_mem hsn.nodup hm
    rw [if_neg (by omega), if_neg (by omega), if_pos hm]
    omega
  · rw [filter_of_not_mem hm, if_neg hm]
    split
    · rw [length_tail]
      have hpos : 0 < maxMergedNotificationCount := by decide
      omega
    · omega

theorem Arrives.held {history next : NotificationHistory} {arrived : List NotificationEntry}
    (h : Arrives memFits ae history next) (hremote : history.isSessionLocal = false)
    (hnd : (arrived.map (·.notificationId)).Nodup) (hh : history.mergedEntries = listNewestEntries arrived) :
    next.mergedEntries = listNewestEntries (arrive arrived ae) := by
  rw [listNewestEntries_arrive hnd, ← hh, h.merged]
  simp [listKeptEntries, keepUnreplaced, listOtherEntries, hremote]

structure Tracks (owner : NotificationQueueOwner) (epoch : NotificationEpoch) (count returned : Nat)
    (arrived : List NotificationEntry) (history : NotificationHistory) : Prop where
  sound : RunSound false history
  held : history.mergedEntries = listNewestEntries arrived
  nodup : (arrived.map (·.notificationId)).Nodup
  sessionIds : ∀ entry ∈ arrived, isSessionEntry entry = true →
    entry.notificationId.owner = owner ∧ entry.notificationId.epoch = epoch ∧ entry.notificationId.sequence < count
  ownIds : ∀ entry ∈ arrived, isSessionEntry entry = false →
    entry.notificationId.sequence < history.clientQueue.nextSequence
  dropped : history.droppedEntryCount + history.mergedEntries.length =
    count + history.clientQueue.nextSequence + returned

variable {owner : NotificationQueueOwner} {epoch : NotificationEpoch} {count returned : Nat}
  {arrived : List NotificationEntry} {history : NotificationHistory}

theorem Tracks.mem_arrived (h : Tracks owner epoch count returned arrived history) {entry : NotificationEntry}
    (hm : entry ∈ history.mergedEntries) : entry ∈ arrived := by
  rw [h.held] at hm
  exact mem_of_mem_drop hm

theorem Tracks.withMark (h : Tracks owner epoch count returned arrived history) {mark : SessionQueueMark}
    (hsess : ∃ sessionId, mark.owner = .session sessionId) :
    Tracks owner epoch count returned arrived { history with sessionQueueMark := some mark } :=
  ⟨(takeInvariant_runSound false []).mark mark hsess h.sound, h.held, h.nodup, h.sessionIds, h.ownIds, h.dropped⟩

theorem countSkippedSequences_eq (history : NotificationHistory) (entry : NotificationEntry) (expectedSequence : Nat)
    (hft : history.droppedEntryCount + (entry.notificationId.sequence - expectedSequence) ≤ maxU64) :
    ∃ revision, (history.countSkippedSequences entry expectedSequence).1 = { history with
      droppedEntryCount := history.droppedEntryCount + (entry.notificationId.sequence - expectedSequence)
      revision } := by
  unfold countSkippedSequences
  dsimp only
  split
  · rename_i hlt
    rw [Nat.sub_eq_zero_of_le (le_of_lt hlt)]
    exact ⟨history.revision, rfl⟩
  · split
    · rw [Nat.min_eq_left hft]
      exact ⟨_, rfl⟩
    · rename_i hnone
      rw [Nat.eq_zero_of_not_pos hnone]
      exact ⟨history.revision, rfl⟩

theorem Tracks.take (h : Tracks owner epoch count returned arrived history) {entry : NotificationEntry}
    (hsess : isSessionEntry entry = true) (hown : entry.notificationId.owner = owner)
    (hepoch : entry.notificationId.epoch = epoch) (hseq : count ≤ entry.notificationId.sequence + 1)
    (htext : sanitizeReceivedEntry entry = entry)
    (hft : entry.notificationId.sequence + 1 + history.clientQueue.nextSequence + returned ≤ maxU64) (shows : Bool) :
    ∃ next, (history.countSkippedSequences entry count).1.takeArrival entry
        ((history.countSkippedSequences entry count).1.findMergedEntryIndex entry.notificationId)
        shows = next ∧
      Tracks owner epoch (entry.notificationId.sequence + 1)
        (returned + if entry.notificationId.sequence + 1 = count ∧
          entry.notificationId ∉ history.listMergedIds then 1 else 0) (arrive arrived entry) next ∧
      SameQueues history next := by
  have hdp := h.dropped
  obtain ⟨revision, hcd⟩ := countSkippedSequences_eq history entry count (by omega)
  rw [hcd]
  have hsn := (takeInvariant_runSound false []).book
    (history.droppedEntryCount + (entry.notificationId.sequence - count)) revision h.sound
  have hnextSound := (takeInvariant_runSound false [entry]).arrive entry shows mem_cons_self hsess hsn
  have har := @arrives_takeReceived _ _ entry hsn.entries hsn.previews trivial shows
  rw [htext] at hnextSound har
  have hc := har.count hsn.entries hsn.isLocal
  have hq := har.same.clientQueue
  have hs : SameQueues history _ := ⟨har.same.clientQueue, har.same.sessionQueueMark,
    har.same.isSessionLocal, har.same.isOpen⟩
  generalize NotificationHistory.takeArrival _ entry _ shows = next at *
  have hlocal : history.isSessionLocal = false := h.sound.isLocal
  refine ⟨next, rfl, ?_, hs⟩
  refine ⟨hnextSound, har.held hlocal h.nodup h.held, nodup_arrive h.nodup entry, ?_, ?_, ?_⟩
  · intro other hm ho
    rcases mem_arrive.mp hm with ⟨hm, -⟩ | rfl
    · obtain ⟨hotherOwn, hotherEpoch, hlt⟩ := h.sessionIds other hm ho
      exact ⟨hotherOwn, hotherEpoch, by omega⟩
    · exact ⟨hown, hepoch, Nat.lt_succ_self _⟩
  · intro other hm ho
    rw [hq]
    rcases mem_arrive.mp hm with ⟨hm, -⟩ | rfl
    · exact h.ownIds other hm ho
    · rw [hsess] at ho
      cases ho
  · rw [hq, hc]
    show history.droppedEntryCount + (entry.notificationId.sequence - count) + history.mergedEntries.length +
      (if entry.notificationId ∈ history.listMergedIds then 0 else 1) =
        entry.notificationId.sequence + 1 + history.clientQueue.nextSequence + (returned + _)
    by_cases hm : entry.notificationId ∈ history.listMergedIds
    · obtain ⟨held, hin, hid⟩ := List.mem_map.mp hm
      have hheldSession : isSessionEntry held = true := by
        unfold isSessionEntry at hsess ⊢
        rw [hid]
        exact hsess
      obtain ⟨-, -, hlt⟩ := h.sessionIds held (h.mem_arrived hin) hheldSession
      rw [hid] at hlt
      rw [if_pos hm, if_neg (fun hret => hret.2 hm)]
      omega
    · rw [if_neg hm]
      by_cases hrepeat : entry.notificationId.sequence + 1 = count
      · rw [if_pos ⟨hrepeat, hm⟩]
        omega
      · rw [if_neg (fun hret => hrepeat hret.1)]
        omega

/-! ### Own posts -/

theorem Tracks.post (h : Tracks owner epoch count returned arrived history) (post : NotificationQueue.Post)
    (shows : Bool) :
    ∃ returns', Tracks owner epoch count returns'
        (arrive arrived (history.clientQueue.postCoreEntry post.severity post.text post.postCount post.createdAt).2)
        (history.postCoreEntry post.severity post.text post.postCount post.createdAt shows) ∧
      (returns' = returned ↔
        ∀ newest ∈ history.clientQueue.findRepeatedEntry post.severity
            (sanitizeTextToByteCount post.text maxNotificationTextByteCount),
          newest.notificationId ∈ history.listMergedIds) ∧
      returned ≤ returns' ∧
      (history.postCoreEntry post.severity post.text post.postCount post.createdAt
          shows).clientQueue.nextSequence + returns' ≤
        history.clientQueue.nextSequence + returned + 1 ∧
      (history.postCoreEntry post.severity post.text post.postCount post.createdAt shows).sessionQueueMark =
        history.sessionQueueMark ∧
      (history.postCoreEntry post.severity post.text post.postCount post.createdAt shows).clientQueue =
        history.clientQueue.afterPost post := by
  have hlocal : history.isSessionLocal = false := h.sound.isLocal
  have hnextSound := runSound_post h.sound post.severity post.text post.postCount post.createdAt shows
  obtain ⟨hps, hseq⟩ := h.sound.own.postedEntry post.severity post.text post.postCount post.createdAt
  have hl := @getLast?_postCoreEntry history.clientQueue post.severity post.text post.postCount post.createdAt
  have hcases := history.clientQueue.postCoreEntry_cases post.severity post.text post.postCount post.createdAt
  unfold postCoreEntry at hnextSound ⊢
  rw [if_neg (by simp [hlocal])] at hnextSound ⊢
  dsimp only at hnextSound ⊢
  generalize hpr : history.clientQueue.postCoreEntry post.severity post.text post.postCount post.createdAt = posted at *
  have hentries : EntriesSound { history with clientQueue := posted.1 } := ⟨h.sound.entries.nodup,
    h.sound.entries.bounded, h.sound.entries.unread, h.sound.entries.unreadOpen, h.sound.entries.selected,
    h.sound.entries.selects⟩
  have har := @arrives_takeArrival _ _ posted.2 hentries h.sound.previews trivial shows
  have hc := har.count hentries hlocal
  have hq := har.same.clientQueue
  have hmark := har.same.sessionQueueMark
  have haf : history.clientQueue.afterPost post = posted.1 := congrArg Prod.fst hpr
  have hnextSequence := nextSequence_of_getLast? hl
  generalize ({ history with clientQueue := posted.1 } : NotificationHistory).takeArrival posted.2
    (({ history with clientQueue := posted.1 } : NotificationHistory).findMergedEntryIndex posted.2.notificationId)
    shows = next at *
  have hownIds : ∀ entry ∈ arrive arrived posted.2, isSessionEntry entry = false →
      entry.notificationId.sequence < next.clientQueue.nextSequence := by
    intro entry hm hown
    rw [hq]
    rcases mem_arrive.mp hm with ⟨hm, -⟩ | rfl
    · exact lt_of_lt_of_le (h.ownIds entry hm hown) hseq
    · rw [hnextSequence]
      exact Nat.lt_succ_self _
  have hsessionIds : ∀ entry ∈ arrive arrived posted.2, isSessionEntry entry = true →
      entry.notificationId.owner = owner ∧ entry.notificationId.epoch = epoch ∧
        entry.notificationId.sequence < count := by
    intro entry hm hsess
    rcases mem_arrive.mp hm with ⟨hm, -⟩ | rfl
    · exact h.sessionIds entry hm hsess
    · rw [hps] at hsess
      cases hsess
  have htracks : ∀ returns', next.droppedEntryCount + next.mergedEntries.length =
      count + next.clientQueue.nextSequence + returns' →
        Tracks owner epoch count returns' (arrive arrived posted.2) next :=
    fun returns' hdp => ⟨hnextSound, har.held hlocal h.nodup h.held, nodup_arrive h.nodup _, hsessionIds, hownIds, hdp⟩
  have hdp := h.dropped
  have hc : next.droppedEntryCount + next.mergedEntries.length = history.droppedEntryCount +
      history.mergedEntries.length + (if posted.2.notificationId ∈ history.listMergedIds then 0 else 1) := hc
  rw [hq, haf]
  rw [hq] at htracks
  rcases hcases with ⟨newest, hnw, hnotice, rfl⟩ | ⟨hnone, rfl⟩
  · have hfo : history.clientQueue.findRepeatedEntry post.severity
        (sanitizeTextToByteCount post.text maxNotificationTextByteCount) = some newest :=
      Option.filter_eq_some_iff.mpr ⟨hnw, hnotice⟩
    have hs := nextSequence_of_getLast? hnw
    rw [hnextSequence] at htracks ⊢
    rw [hfo]
    have hc : next.droppedEntryCount + next.mergedEntries.length = history.droppedEntryCount +
        history.mergedEntries.length + (if newest.notificationId ∈ history.listMergedIds then 0 else 1) := hc
    simp only [repeatEntry] at htracks ⊢
    by_cases hm : newest.notificationId ∈ history.listMergedIds
    · rw [if_pos hm] at hc
      refine ⟨returned, htracks returned (by omega), by simpa using hm, le_refl _, by omega, hmark, trivial⟩
    · rw [if_neg hm] at hc
      refine ⟨returned + 1, htracks (returned + 1) (by omega), by simpa using hm, by omega, by omega, hmark, trivial⟩
  · rw [hnone]
    have hm : (history.clientQueue.newEntry post.severity post.text post.postCount post.createdAt).notificationId ∉
        history.listMergedIds := by
      intro hin
      obtain ⟨held, hh, hid⟩ := List.mem_map.mp hin
      exact h.sound.own.ne_newId hh hid
    rw [if_neg hm] at hc
    rw [hnextSequence] at htracks ⊢
    simp only [newEntry] at htracks ⊢
    refine ⟨returned, htracks returned (by omega), by simp, le_refl _, by omega, hmark, trivial⟩

/-! ### Showing -/

theorem setSelectedId_entries (history : NotificationHistory) (selectedId : Option NotificationId) :
    (history.setSelectedNotificationId selectedId).mergedEntries = history.mergedEntries ∧
      (history.setSelectedNotificationId selectedId).droppedEntryCount = history.droppedEntryCount := by
  obtain ⟨revision, heq⟩ := history.setSelectedId_eq selectedId
  rw [heq]
  exact ⟨rfl, rfl⟩

variable {slide : Nat → Nat → Nat → Nat → Nat}

theorem apply_onlyShows {op : HistoryOperation} (h : op.onlyShows = true) :
    (history.apply slide op).mergedEntries = history.mergedEntries ∧
      (history.apply slide op).droppedEntryCount = history.droppedEntryCount := by
  cases op with
  | post severity text postCount createdAt shows => cases h
  | takeQueue sessionId queue shows => cases h
  | takePost revision postedEntry shows => cases h
  | dismiss noteId => cases h
  | clear => cases h
  | selectAdjacent isSelectingNewer =>
    simp only [apply, selectAdjacentEntry]
    split
    · exact ⟨rfl, rfl⟩
    · exact history.setSelectedId_entries _
  | select noteId =>
    simp only [apply, selectEntry]
    split
    · exact history.setSelectedId_entries _
    · exact ⟨rfl, rfl⟩
  | openCenter shouldReduceMotion =>
    simp only [apply, openNotificationCenter]
    split <;> exact ⟨rfl, rfl⟩
  | closeCenter shouldReduceMotion =>
    simp only [apply, closeNotificationCenter]
    split <;> exact ⟨rfl, rfl⟩
  | removeCenter =>
    simp only [apply, removeNotificationCenter]
    split <;> exact ⟨rfl, rfl⟩
  | scroll scrollRowOffset =>
    simp only [apply, setNotificationCenterScrollRowOffset]
    split
    · exact ⟨rfl, rfl⟩
    · split <;> exact ⟨rfl, rfl⟩
  | advance now toastTiming isToastPaused =>
    simp only [apply, advanceNotificationClocks]
    split
    · exact ⟨rfl, rfl⟩
    · split <;> exact ⟨rfl, rfl⟩
  | withdraw toastNumber =>
    simp only [apply, requestToastWithdraw]
    split <;> exact ⟨rfl, rfl⟩

theorem Tracks.shows (h : Tracks owner epoch count returned arrived history) {op : HistoryOperation}
    (honly : op.onlyShows = true) :
    Tracks owner epoch count returned arrived (history.apply slide op) ∧
      Shrinks history (history.apply slide op) := by
  have hbrings : op.bringsEntries = false := by
    cases op <;> first | rfl | cases honly
  have hshrinks := @shrinks_apply slide _ h.sound.entries op hbrings
  obtain ⟨hmg, hdp⟩ := @apply_onlyShows history slide op honly
  refine ⟨⟨runSound_apply h.sound op, hmg.trans h.held, h.nodup, h.sessionIds, ?_, ?_⟩, hshrinks⟩
  · rw [hshrinks.clientQueue]
    exact h.ownIds
  · rw [hshrinks.clientQueue, hmg, hdp]
    exact h.dropped

end NotificationHistory

end Koshi.Client
