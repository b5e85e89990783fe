import Koshi.Client.NotificationHistory
import Koshi.Client.Proof.NotificationToast

/-!
# The notification history and its toast over a run

One specification of an arrival: the entries the history then holds, the dropped count, and that what was fine of the
unread count, the selection and the previews stays so. Every way an entry reaches the history is an arrival.
-/

namespace Koshi.Client

open Koshi.Core List Option

namespace NotificationHistory

/-! ### The invariant of the entries -/

/-- The ids of the held entries. -/
def listMergedIds (history : NotificationHistory) : List NotificationId := history.mergedEntries.map (·.notificationId)

structure EntriesSound (history : NotificationHistory) : Prop where
  nodup : history.listMergedIds.Nodup
  bounded : history.mergedEntries.length ≤ maxMergedNotificationCount
  unread : history.unreadEntryCount ≤ history.mergedEntries.length
  unreadOpen : history.isNotificationCenterOpen = true → history.unreadEntryCount = 0
  selected : ∀ centerState ∈ history.notificationCenter, ∀ notificationId ∈ centerState.selectedNotificationId,
    notificationId ∈ history.listMergedIds
  selects : ∀ centerState ∈ history.notificationCenter, centerState.slide.isClosing = false →
    history.mergedEntries ≠ [] → centerState.selectedNotificationId.isSome = true

/-- What removing and adding entries leaves alone. -/
structure SameQueues (history next : NotificationHistory) : Prop where
  clientQueue : next.clientQueue = history.clientQueue
  sessionQueueMark : next.sessionQueueMark = history.sessionQueueMark
  isSessionLocal : next.isSessionLocal = history.isSessionLocal
  isOpen : next.isNotificationCenterOpen = history.isNotificationCenterOpen

theorem SameQueues.refl (history : NotificationHistory) : SameQueues history history := ⟨rfl, rfl, rfl, rfl⟩

theorem SameQueues.trans {history next last : NotificationHistory} (hf : SameQueues history next)
    (hse : SameQueues next last) : SameQueues history last :=
  ⟨hse.clientQueue.trans hf.clientQueue, hse.sessionQueueMark.trans hf.sessionQueueMark,
    hse.isSessionLocal.trans hf.isSessionLocal, hse.isOpen.trans hf.isOpen⟩

/-! ### Selecting -/

theorem setSelectedId_eq (history : NotificationHistory) (selectedNotificationId : Option NotificationId) :
    ∃ revision, history.setSelectedNotificationId selectedNotificationId = { history with
      notificationCenter := history.notificationCenter.map fun center =>
        { center with selectedNotificationId }
      revision } := by
  unfold setSelectedNotificationId
  rcases hcenter : history.notificationCenter with _ | center
  · refine ⟨history.revision, ?_⟩
    show history = _
    rw [map_none, ← hcenter]
  dsimp only
  split
  · exact ⟨history.revision + 1, rfl⟩
  · rename_i hs
    rw [not_not] at hs
    refine ⟨history.revision, ?_⟩
    rw [map_some, ← hs, ← hcenter]

theorem isOpen_of_slide {history next : NotificationHistory}
    (h : next.notificationCenter.map (·.slide) = history.notificationCenter.map (·.slide)) :
    next.isNotificationCenterOpen = history.isNotificationCenterOpen := by
  have hop : ∀ other : NotificationHistory, other.isNotificationCenterOpen =
      (other.notificationCenter.map (·.slide)).any fun slide => !slide.isClosing := by
    intro other
    unfold isNotificationCenterOpen findOpenCenterState
    rcases other.notificationCenter with _ | center
    · rfl
    · by_cases hcl : center.slide.isClosing = true
      · simp [Option.filter, hcl]
      · simp [Option.filter, hcl]
  rw [hop, hop, h]

theorem sameQueues_setSelectedId (history : NotificationHistory) (selectedId : Option NotificationId) :
    SameQueues history (history.setSelectedNotificationId selectedId) := by
  obtain ⟨revision, heq⟩ := history.setSelectedId_eq selectedId
  rw [heq]
  refine ⟨rfl, rfl, rfl, isOpen_of_slide ?_⟩
  simp [Option.map_map, Function.comp_def]

variable {history : NotificationHistory} {notificationId : NotificationId}

theorem EntriesSound.select (h : EntriesSound history) (hh : notificationId ∈ history.listMergedIds) :
    EntriesSound (history.setSelectedNotificationId (some notificationId)) := by
  have hop := (history.sameQueues_setSelectedId (some notificationId)).isOpen
  obtain ⟨revision, heq⟩ := history.setSelectedId_eq (some notificationId)
  rw [heq] at hop ⊢
  refine ⟨h.nodup, h.bounded, h.unread, fun hisOpen => h.unreadOpen (hop ▸ hisOpen), ?_, ?_⟩
  · intro center hm j hsel
    obtain ⟨_, -, rfl⟩ := map_eq_some_iff.mp hm
    cases hsel
    exact hh
  · intro center hm _ _
    obtain ⟨_, -, rfl⟩ := map_eq_some_iff.mp hm
    rfl

/-! ### Removing an entry -/

variable {entry : NotificationEntry} {entries : List NotificationEntry}

theorem eraseIdx_eq_filter {index : Nat} (hnd : (entries.map (·.notificationId)).Nodup)
    (hg : entries[index]? = some entry) :
    entries.eraseIdx index = entries.filter fun other => other.notificationId ≠ entry.notificationId := by
  induction entries generalizing index with
  | nil => cases hg
  | cons fst entries ih =>
    rw [map_cons, nodup_cons] at hnd
    obtain ⟨hf, hnd⟩ := hnd
    cases index with
    | zero =>
      simp only [List.getElem?_cons_zero, Option.some.injEq] at hg
      subst hg
      rw [eraseIdx_cons_zero, filter_cons_of_neg (by simp)]
      refine (filter_eq_self.mpr fun other hm => ?_).symm
      have hne : other.notificationId ≠ fst.notificationId :=
        fun hs => hf (hs ▸ List.mem_map_of_mem hm)
      exact decide_eq_true hne
    | succ index =>
      rw [List.getElem?_cons_succ] at hg
      have hm : entry ∈ entries := mem_of_getElem? hg
      have hne : fst.notificationId ≠ entry.notificationId :=
        fun hs => hf (hs ▸ List.mem_map_of_mem hm)
      rw [eraseIdx_cons_succ, ih hnd hg, filter_cons_of_pos (by simpa using hne)]

/-- The history without an entry, before the selection moves. -/
def withoutEntryAt (history : NotificationHistory) (index : Nat) : NotificationHistory :=
  { history with
    mergedEntries := history.mergedEntries.eraseIdx index
    unreadEntryCount :=
      if index ≥ history.mergedEntries.length - history.unreadEntryCount then history.unreadEntryCount - 1
      else history.unreadEntryCount }

theorem EntriesSound.withoutEntryAt {history : NotificationHistory} (h : EntriesSound history) {index : Nat}
    {entry : NotificationEntry} (hg : history.mergedEntries[index]? = some entry)
    {centerState : Option NotificationCenterState} {revision : Nat}
    (hsl : centerState.map (·.slide) = history.notificationCenter.map (·.slide))
    (hsel : ∀ center ∈ centerState, ∀ notificationId ∈ center.selectedNotificationId,
      notificationId ∈ (history.withoutEntryAt index).listMergedIds)
    (hselects : ∀ center ∈ centerState, center.slide.isClosing = false →
      (history.withoutEntryAt index).mergedEntries ≠ [] → center.selectedNotificationId.isSome = true) :
    EntriesSound { history.withoutEntryAt index with notificationCenter := centerState, revision } := by
  have hidx : index < history.mergedEntries.length := (List.getElem?_eq_some_iff.mp hg).1
  have hlen : (history.mergedEntries.eraseIdx index).length + 1 = history.mergedEntries.length := by
    rw [length_eraseIdx_of_lt hidx]
    omega
  have hbo := h.bounded
  have hunread := h.unread
  refine ⟨?_, ?_, ?_, fun hop => ?_, hsel, hselects⟩
  · exact h.nodup.sublist (List.Sublist.map _ (eraseIdx_sublist ..))
  · show (history.mergedEntries.eraseIdx index).length ≤ _
    omega
  · show (if index ≥ history.mergedEntries.length - history.unreadEntryCount then history.unreadEntryCount - 1
      else history.unreadEntryCount) ≤ (history.mergedEntries.eraseIdx index).length
    split <;> omega
  · have hs : history.isNotificationCenterOpen = true := by
      rw [← hop]
      exact (isOpen_of_slide hsl).symm
    have hz := h.unreadOpen hs
    show (if index ≥ history.mergedEntries.length - history.unreadEntryCount then history.unreadEntryCount - 1
      else history.unreadEntryCount) = 0
    split <;> omega

theorem isSelected_iff :
    history.isSelected notificationId = true ↔
      ∃ center, history.notificationCenter = some center ∧ center.selectedNotificationId = some notificationId := by
  unfold isSelected
  rcases history.notificationCenter with _ | center
  · simp
  · simp

theorem removeMergedEntryAt_spec (h : EntriesSound history) {index : Nat}
    (hg : history.mergedEntries[index]? = some entry) :
    ∃ next, history.removeMergedEntryAt index = (next, some entry) ∧
      next.mergedEntries = history.mergedEntries.eraseIdx index ∧ EntriesSound next ∧ SameQueues history next ∧
      next.notificationToast = history.notificationToast ∧ next.droppedEntryCount = history.droppedEntryCount := by
  have hidx : index < history.mergedEntries.length := (List.getElem?_eq_some_iff.mp hg).1
  have hrv : history.removeMergedEntryAt index =
      ({ (if history.isSelected entry.notificationId then
          (history.withoutEntryAt index).setSelectedNotificationId
            ((history.mergedEntries.eraseIdx index)[index - 1]?.map (·.notificationId))
        else history.withoutEntryAt index) with
          revision := (if history.isSelected entry.notificationId then
            (history.withoutEntryAt index).setSelectedNotificationId
              ((history.mergedEntries.eraseIdx index)[index - 1]?.map (·.notificationId))
          else history.withoutEntryAt index).revision + 1 }, some entry) := by
    unfold removeMergedEntryAt
    simp only [hg]
    rfl
  refine ⟨_, hrv, ?_⟩
  by_cases hsel : history.isSelected entry.notificationId = true
  · simp only [hsel, if_true]
    obtain ⟨revision, hset⟩ := (history.withoutEntryAt index).setSelectedId_eq
      ((history.mergedEntries.eraseIdx index)[index - 1]?.map (·.notificationId))
    rw [hset]
    have hsl : (history.notificationCenter.map fun center => { center with
        selectedNotificationId :=
          (history.mergedEntries.eraseIdx index)[index - 1]?.map NotificationEntry.notificationId }).map (·.slide) =
            history.notificationCenter.map (·.slide) := by
      rw [Option.map_map]
      rfl
    refine ⟨rfl, ?_, ⟨rfl, rfl, rfl, isOpen_of_slide hsl⟩, rfl, rfl⟩
    refine h.withoutEntryAt hg hsl ?_ ?_
    · intro center hm notificationId hid
      obtain ⟨_, -, rfl⟩ := map_eq_some_iff.mp hm
      obtain ⟨next, hn, rfl⟩ := map_eq_some_iff.mp hid
      exact List.mem_map_of_mem (mem_of_getElem? hn)
    · intro center hm _ hne
      obtain ⟨_, -, rfl⟩ := map_eq_some_iff.mp hm
      have hpos : 0 < (history.mergedEntries.eraseIdx index).length := length_pos_iff.mpr hne
      have hlen := length_eraseIdx_of_lt hidx
      have hlt : index - 1 < (history.mergedEntries.eraseIdx index).length := by omega
      simp [hlt]
  · simp only [hsel, if_false, Bool.false_eq_true]
    refine ⟨rfl, ?_, ⟨rfl, rfl, rfl, rfl⟩, rfl, rfl⟩
    refine h.withoutEntryAt hg rfl ?_ ?_
    · intro center hm notificationId hid
      have hh := h.selected center hm notificationId hid
      have hne : notificationId ≠ entry.notificationId := by
        rintro rfl
        exact hsel (isSelected_iff.mpr ⟨center, hm, hid⟩)
      obtain ⟨held, hin, rfl⟩ := List.mem_map.mp hh
      refine List.mem_map_of_mem ?_
      show held ∈ history.mergedEntries.eraseIdx index
      rw [eraseIdx_eq_filter h.nodup hg, mem_filter]
      exact ⟨hin, decide_eq_true hne⟩
    · intro center hm hcl hne
      refine h.selects center hm hcl fun hnil => hne ?_
      show history.mergedEntries.eraseIdx index = []
      rw [hnil, eraseIdx_nil]

/-! ### The invariant of the previews -/

/-- Every preview names a held entry, save those of the ids that are about to arrive again; a summary's members are
besides as `fits` asks. -/
def PreviewsSound (fits : NotificationId × NotificationSeverity → Prop) (arrives : NotificationId → Prop)
    (entries : List NotificationEntry) (toast : NotificationToastQueue) : Prop :=
  toast.Sound (fun entry => arrives entry.notificationId ∨ entry ∈ entries)
    (fun member => (arrives member.1 ∨ member.1 ∈ entries.map (·.notificationId)) ∧ fits member)

variable {fits : NotificationId × NotificationSeverity → Prop} {arrives : NotificationId → Prop}

theorem PreviewsSound.mono {other : NotificationId → Prop} {entries kept : List NotificationEntry}
    {toast : NotificationToastQueue} (h : PreviewsSound fits arrives entries toast)
    (har : ∀ notificationId, arrives notificationId → other notificationId)
    (hentries : ∀ entry ∈ entries, other entry.notificationId ∨ entry ∈ kept) :
    PreviewsSound fits other kept toast := by
  refine NotificationToastQueue.Sound.mono h (fun entry hok => ?_) (fun member hok => ⟨?_, hok.2⟩)
  · rcases hok with hid | hm
    · exact .inl (har _ hid)
    · exact hentries entry hm
  · rcases hok.1 with hid | hm
    · exact .inl (har _ hid)
    · obtain ⟨entry, hin, hs⟩ := List.mem_map.mp hm
      rw [← hs]
      exact (hentries entry hin).imp_right List.mem_map_of_mem

variable {toast : NotificationToastQueue}

theorem PreviewsSound.remove (h : PreviewsSound fits arrives entries toast) (notificationId : NotificationId) :
    PreviewsSound fits arrives (entries.filter fun entry => entry.notificationId ≠ notificationId)
      (toast.removePreviews notificationId) := by
  have hk : ∀ entry ∈ entries, entry.notificationId = notificationId ∨
      entry ∈ entries.filter fun entry => entry.notificationId ≠ notificationId := by
    intro entry hm
    by_cases hs : entry.notificationId = notificationId
    · exact .inl hs
    · exact .inr (mem_filter.mpr ⟨hm, decide_eq_true hs⟩)
  refine NotificationToastQueue.Sound.removePreviews (NotificationToastQueue.Sound.mono h (fun entry hok => ?_)
    fun member hok => ?_)
  · rcases hok with hid | hm
    · exact .inr (.inl hid)
    · exact (hk entry hm).imp_right .inr
  · obtain ⟨hid | hm, hft⟩ := hok
    · exact .inr ⟨.inl hid, hft⟩
    · obtain ⟨entry, hin, hs⟩ := List.mem_map.mp hm
      rcases hk entry hin with hrv | hin
      · exact .inl (hs ▸ hrv)
      · exact .inr ⟨.inr (hs ▸ List.mem_map_of_mem hin), hft⟩

variable {arrived : NotificationEntry}

theorem PreviewsSound.repoint {entries kept : List NotificationEntry} {replaced : List NotificationId}
    (h : PreviewsSound fits (· = arrived.notificationId) entries toast)
    (hk : ∀ entry ∈ entries, entry.notificationId ∈ replaced ∨ entry ∈ kept)
    (hft : fits (arrived.notificationId, arrived.severity)) :
    PreviewsSound fits (· = arrived.notificationId) kept (toast.repointPreviews replaced arrived) := by
  refine NotificationToastQueue.Sound.repointPreviews
    (NotificationToastQueue.Sound.mono h (fun entry hok => ?_) fun member hok => ?_) (.inl rfl) ⟨.inl rfl, hft⟩
  · rcases hok with hid | hm
    · exact .inr (.inl hid)
    · exact (hk entry hm).imp_right .inr
  · obtain ⟨hid | hm, hmemFits⟩ := hok
    · exact .inr ⟨.inl hid, hmemFits⟩
    · obtain ⟨entry, hin, hs⟩ := List.mem_map.mp hm
      rcases hk entry hin with hold | hin
      · exact .inl (hs ▸ hold)
      · exact .inr ⟨.inr (hs ▸ List.mem_map_of_mem hin), hmemFits⟩

theorem PreviewsSound.arrive (h : PreviewsSound fits (· = arrived.notificationId) entries toast)
    (hft : fits (arrived.notificationId, arrived.severity)) (pv : Bool) :
    PreviewsSound fits (fun _ => False) (entries ++ [arrived])
      (if pv then toast.queuePreview arrived else (toast.updatePreviews arrived).1) := by
  have hnw : arrived ∈ entries ++ [arrived] := mem_append_right _ mem_cons_self
  have hid : arrived.notificationId ∈ (entries ++ [arrived]).map (·.notificationId) := List.mem_map_of_mem hnw
  have hmend : toast.Sound
      (fun entry => entry.notificationId = arrived.notificationId ∨ (False ∨ entry ∈ entries ++ [arrived]))
      (fun member => (False ∨ member.1 ∈ (entries ++ [arrived]).map (·.notificationId)) ∧ fits member) := by
    refine NotificationToastQueue.Sound.mono h (fun entry hok => ?_) fun member hok => ⟨.inr ?_, hok.2⟩
    · exact hok.imp_right fun hm => .inr (mem_append_left _ hm)
    · rcases hok.1 with hs | hm
      · exact hs ▸ hid
      · rw [map_append]
        exact mem_append_left _ hm
  split
  · exact hmend.queuePreview (.inr hnw) ⟨.inr hid, hft⟩
  · exact hmend.updatePreviews (.inr hnw)

/-! ### Own entries that a local session's entry replaces -/

theorem removeReplacedEntries_spec (arrived : NotificationEntry) (rest index : Nat) (replaced : List NotificationId)
    (h : EntriesSound history) (hleft : index + rest = history.mergedEntries.length) :
    ∃ next, removeReplacedEntries arrived rest index history replaced =
        (next, replaced ++ ((history.mergedEntries.drop index).filter (isReplacedBy arrived)).map (·.notificationId)) ∧
      next.mergedEntries = history.mergedEntries.take index ++
        (history.mergedEntries.drop index).filter (fun entry => !isReplacedBy arrived entry) ∧
      EntriesSound next ∧ SameQueues history next ∧ next.notificationToast = history.notificationToast ∧
      next.droppedEntryCount = history.droppedEntryCount := by
  induction rest generalizing index history replaced with
  | zero =>
    have hdrop : history.mergedEntries.drop index = [] := drop_eq_nil_of_le (by omega)
    have htake : history.mergedEntries.take index = history.mergedEntries := take_of_length_le (by omega)
    refine ⟨history, ?_, ?_, h, .refl history, rfl, rfl⟩
    · simp [removeReplacedEntries, hdrop]
    · simp [hdrop, htake]
  | succ rest ih =>
    have hidx : index < history.mergedEntries.length := by omega
    obtain ⟨entry, hg⟩ : ∃ entry, history.mergedEntries[index]? = some entry :=
      ⟨_, List.getElem?_eq_getElem hidx⟩
    have hdrop : history.mergedEntries.drop index = entry :: history.mergedEntries.drop (index + 1) := by
      rw [drop_eq_getElem_cons hidx]
      congr 1
      exact some_injective _ ((List.getElem?_eq_getElem hidx).symm.trans hg)
    unfold removeReplacedEntries
    simp only [hg]
    split
    · rename_i hold
      obtain ⟨removed, hrm, hmg, hsn, hs, ht, hdp⟩ := removeMergedEntryAt_spec h hg
      have hlen := length_eraseIdx_of_lt hidx
      obtain ⟨next, hn, hentries, hnextSound, hnextSame, hnextToast, hnextDropped⟩ :=
        ih index (replaced ++ [entry.notificationId]) hsn (by rw [hmg]; omega)
      have htake : removed.mergedEntries.take index = history.mergedEntries.take index := by
        rw [hmg, eraseIdx_eq_take_drop_succ, take_append_of_le_length (by simp; omega), take_take, Nat.min_self]
      have hr : removed.mergedEntries.drop index = history.mergedEntries.drop (index + 1) := by
        rw [hmg, eraseIdx_eq_take_drop_succ, drop_append_of_le_length (by simp; omega)]
        simp
      rw [hr] at hn hentries
      rw [htake] at hentries
      refine ⟨next, ?_, ?_, hnextSound, hs.trans hnextSame, hnextToast.trans ht, hnextDropped.trans hdp⟩
      · rw [hrm]
        refine hn.trans ?_
        rw [hdrop, filter_cons_of_pos hold, map_cons, append_assoc]
        rfl
      · rw [hentries, hdrop, filter_cons_of_neg (by simp [hold])]
    · rename_i hk
      obtain ⟨next, hn, hentries, hnextSound, hnextSame, hnextToast, hnextDropped⟩ :=
        ih (index + 1) replaced h (by omega)
      refine ⟨next, ?_, ?_, hnextSound, hnextSame, hnextToast, hnextDropped⟩
      · rw [hn, hdrop, filter_cons_of_neg hk]
      · rw [hentries, hdrop, filter_cons_of_pos (by simp [hk]), take_add_one, hg]
        simp

/-- What is left of the entries beside an arrival: in a local session, not the own ones it replaces. -/
def keepUnreplaced (isSessionLocal : Bool) (arrived : NotificationEntry) (entries : List NotificationEntry) :
    List NotificationEntry :=
  if isSessionLocal && isSessionEntry arrived && arrived.source = .core then
    entries.filter fun entry => !isReplacedBy arrived entry
  else entries

theorem keepUnreplaced_sublist (isLocal : Bool) (arrived : NotificationEntry) (entries : List NotificationEntry) :
    (keepUnreplaced isLocal arrived entries).Sublist entries := by
  unfold keepUnreplaced
  split
  · exact filter_sublist
  · exact List.Sublist.refl _

theorem replaceOwnEntries_spec (h : EntriesSound history)
    (hpv : PreviewsSound fits (· = arrived.notificationId) history.mergedEntries history.notificationToast)
    (hft : fits (arrived.notificationId, arrived.severity)) :
    (history.replaceOwnEntries arrived).mergedEntries =
        keepUnreplaced history.isSessionLocal arrived history.mergedEntries ∧
      EntriesSound (history.replaceOwnEntries arrived) ∧ SameQueues history (history.replaceOwnEntries arrived) ∧
      PreviewsSound fits (· = arrived.notificationId) (history.replaceOwnEntries arrived).mergedEntries
        (history.replaceOwnEntries arrived).notificationToast ∧
      (history.replaceOwnEntries arrived).droppedEntryCount = history.droppedEntryCount := by
  unfold replaceOwnEntries keepUnreplaced
  split
  swap
  · exact ⟨rfl, h, .refl history, hpv, rfl⟩
  obtain ⟨next, hn, hentries, hsn, hs, ht, hdp⟩ :=
    removeReplacedEntries_spec arrived history.mergedEntries.length 0 [] h (by omega)
  rw [take_zero, drop_zero, nil_append] at hentries
  rw [drop_zero, nil_append] at hn
  simp only [hn]
  have hk : ∀ entry ∈ history.mergedEntries,
      entry.notificationId ∈ (history.mergedEntries.filter (isReplacedBy arrived)).map (·.notificationId) ∨
        entry ∈ next.mergedEntries := by
    intro entry hm
    by_cases hold : isReplacedBy arrived entry = true
    · exact .inl (List.mem_map_of_mem (mem_filter.mpr ⟨hm, hold⟩))
    · rw [hentries]
      exact .inr (mem_filter.mpr ⟨hm, by simpa using hold⟩)
  split
  · rename_i hnone
    refine ⟨hentries, hsn, hs, ?_, hdp⟩
    rw [ht]
    refine hpv.mono (fun _ => id) fun entry hm => ?_
    rw [List.isEmpty_iff] at hnone
    rcases hk entry hm with hold | hk
    · rw [hnone] at hold
      cases hold
    · exact .inr hk
  · refine ⟨hentries, ?_, ⟨hs.clientQueue, hs.sessionQueueMark, hs.isSessionLocal, hs.isOpen⟩, ?_, hdp⟩
    · exact ⟨hsn.nodup, hsn.bounded, hsn.unread, hsn.unreadOpen, hsn.selected, hsn.selects⟩
    · simp only [ht]
      exact hpv.repoint hk hft

/-! ### Room for an arrival -/

/-- The entries after the oldest of a full history made room. -/
def keepRoom (entries : List NotificationEntry) : List NotificationEntry :=
  if entries.length = maxMergedNotificationCount then entries.tail else entries

theorem keepRoom_sublist (entries : List NotificationEntry) : (keepRoom entries).Sublist entries := by
  unfold keepRoom
  split
  · exact tail_sublist _
  · exact List.Sublist.refl _

theorem makeRoom_spec (h : EntriesSound history)
    (hpv : PreviewsSound fits arrives history.mergedEntries history.notificationToast) :
    history.makeRoom.mergedEntries = keepRoom history.mergedEntries ∧ EntriesSound history.makeRoom ∧
      SameQueues history history.makeRoom ∧
      PreviewsSound fits arrives history.makeRoom.mergedEntries history.makeRoom.notificationToast ∧
      history.makeRoom.droppedEntryCount = history.droppedEntryCount +
        (if history.mergedEntries.length = maxMergedNotificationCount then 1 else 0) := by
  unfold makeRoom keepRoom
  split
  swap
  · exact ⟨rfl, h, .refl history, hpv, rfl⟩
  rename_i hfull
  have hg : history.mergedEntries[0]? = some (history.mergedEntries.get ⟨0, by rw [hfull]; decide⟩) :=
    List.getElem?_eq_getElem _
  generalize history.mergedEntries.get _ = oldest at hg
  obtain ⟨next, hrm, hentries, hsn, hs, ht, hdp⟩ := removeMergedEntryAt_spec h hg
  have hfilter := eraseIdx_eq_filter h.nodup hg
  unfold evictOldestEntry
  rw [hrm]
  dsimp only
  refine ⟨?_, ?_, ⟨hs.clientQueue, hs.sessionQueueMark, hs.isSessionLocal, hs.isOpen⟩, ?_, by rw [hdp]⟩
  · rw [hentries, eraseIdx_zero]
  · exact ⟨hsn.nodup, hsn.bounded, hsn.unread, hsn.unreadOpen, hsn.selected, hsn.selects⟩
  · rw [hentries, hfilter, ht]
    exact hpv.remove oldest.notificationId

theorem length_makeRoom_lt (h : EntriesSound history)
    (hroom : history.makeRoom.mergedEntries = keepRoom history.mergedEntries) :
    history.makeRoom.mergedEntries.length < maxMergedNotificationCount := by
  have hbo := h.bounded
  rw [hroom]
  unfold keepRoom
  split
  · rename_i hfull
    rw [length_tail, hfull]
    decide
  · omega

/-! ### Arrivals -/

theorem isOpen_addNewestEntry (history : NotificationHistory) (arrived : NotificationEntry) (pv : Bool) :
    (history.addNewestEntry arrived pv).isNotificationCenterOpen = history.isNotificationCenterOpen := by
  refine isOpen_of_slide ?_
  simp only [addNewestEntry, Option.map_map]
  congr 1
  funext center
  simp only [Function.comp_apply]
  split <;> rfl

theorem addNewestEntry_spec (h : EntriesSound history)
    (hroom : history.mergedEntries.length < maxMergedNotificationCount)
    (hnew : arrived.notificationId ∉ history.listMergedIds)
    (hpv : PreviewsSound fits (· = arrived.notificationId) history.mergedEntries history.notificationToast)
    (hft : fits (arrived.notificationId, arrived.severity)) (pv : Bool) :
    EntriesSound (history.addNewestEntry arrived pv) ∧
      SameQueues history (history.addNewestEntry arrived pv) ∧
      PreviewsSound fits (fun _ => False) (history.mergedEntries ++ [arrived])
        (history.addNewestEntry arrived pv).notificationToast := by
  have hop := isOpen_addNewestEntry history arrived pv
  have hunread := h.unread
  refine ⟨⟨?_, ?_, ?_, ?_, ?_, ?_⟩, ⟨rfl, rfl, rfl, hop⟩, hpv.arrive hft _⟩
  · show ((history.mergedEntries ++ [arrived]).map (·.notificationId)).Nodup
    rw [map_append, nodup_append]
    refine ⟨h.nodup, nodup_singleton _, fun notificationId hm j ho => ?_⟩
    rw [map_singleton, mem_singleton] at ho
    subst ho
    exact fun hs => hnew (hs ▸ hm)
  · show (history.mergedEntries ++ [arrived]).length ≤ _
    rw [length_append]
    exact hroom
  · show (if history.isNotificationCenterOpen then history.unreadEntryCount else history.unreadEntryCount + 1) ≤
      (history.mergedEntries ++ [arrived]).length
    rw [length_append, length_singleton]
    split <;> omega
  · intro hisOpen
    rw [hop] at hisOpen
    show (if history.isNotificationCenterOpen then history.unreadEntryCount else history.unreadEntryCount + 1) = 0
    rw [if_pos hisOpen]
    exact h.unreadOpen hisOpen
  · intro center hm notificationId hsel
    show notificationId ∈ (history.mergedEntries ++ [arrived]).map (·.notificationId)
    rw [map_append, mem_append]
    obtain ⟨before, hb, rfl⟩ := map_eq_some_iff.mp hm
    have hh := h.selected before hb
    by_cases hcl : before.slide.isClosing = true
    · rw [if_pos hcl] at hsel
      exact .inl (hh notificationId hsel)
    · rw [if_neg hcl] at hsel
      rcases hso : before.selectedNotificationId with _ | selectedId
      · rw [hso] at hsel
        cases hsel
        exact .inr mem_cons_self
      · rw [hso] at hsel
        cases hsel
        exact .inl (hh _ hso)
  · intro center hm hnotClosing _
    obtain ⟨before, hb, rfl⟩ := map_eq_some_iff.mp hm
    by_cases hcl : before.slide.isClosing = true
    · simp [hcl] at hnotClosing
    · rw [if_neg hcl]
      rfl

/-- The held entries beside the one an arrival is about. -/
def listOtherEntries (history : NotificationHistory) (arrived : NotificationEntry) : List NotificationEntry :=
  history.mergedEntries.filter fun entry => entry.notificationId ≠ arrived.notificationId

/-- The entries an arrival leaves, before room is made. -/
def listKeptEntries (history : NotificationHistory) (arrived : NotificationEntry) : List NotificationEntry :=
  keepUnreplaced history.isSessionLocal arrived (history.listOtherEntries arrived)

/-- What an arrival does. -/
structure Arrives (fits : NotificationId × NotificationSeverity → Prop) (arrived : NotificationEntry)
    (history next : NotificationHistory) : Prop where
  merged : next.mergedEntries = keepRoom (history.listKeptEntries arrived) ++ [arrived]
  sound : EntriesSound next
  same : SameQueues history next
  previews : PreviewsSound fits (fun _ => False) next.mergedEntries next.notificationToast
  dropped : next.droppedEntryCount = history.droppedEntryCount +
    (if (history.listKeptEntries arrived).length = maxMergedNotificationCount then 1 else 0)

theorem arrives_pushMergedEntry (h : EntriesSound history) (hnew : arrived.notificationId ∉ history.listMergedIds)
    (hpv : PreviewsSound fits (· = arrived.notificationId) history.mergedEntries history.notificationToast)
    (hft : fits (arrived.notificationId, arrived.severity)) (pv : Bool) :
    Arrives fits arrived history (history.pushMergedEntry arrived pv) := by
  have hothers : history.listOtherEntries arrived = history.mergedEntries := by
    refine filter_eq_self.mpr fun entry hm => decide_eq_true fun hs => hnew ?_
    rw [← hs]
    exact List.mem_map_of_mem hm
  obtain ⟨hold, hreplacedSound, hreplacedSame, hreplacedPreviews, hreplacedDropped⟩ :=
    replaceOwnEntries_spec h hpv hft
  obtain ⟨hroom, hroomSound, hroomSame, hroomPreviews, hroomDropped⟩ := makeRoom_spec hreplacedSound hreplacedPreviews
  have hk : history.listKeptEntries arrived = (history.replaceOwnEntries arrived).mergedEntries := by
    rw [hold, listKeptEntries, hothers]
  have hstillNew : arrived.notificationId ∉ (history.replaceOwnEntries arrived).makeRoom.listMergedIds := by
    have hsublist := ((keepRoom_sublist _).trans (keepUnreplaced_sublist history.isSessionLocal arrived
      history.mergedEntries)).map NotificationEntry.notificationId
    unfold listMergedIds
    rw [hroom, hold]
    exact fun hm => hnew (hsublist.subset hm)
  obtain ⟨hsn, hs, hnextPreviews⟩ := addNewestEntry_spec hroomSound (length_makeRoom_lt hreplacedSound hroom)
    hstillNew hroomPreviews hft pv
  refine ⟨?_, hsn, (hreplacedSame.trans hroomSame).trans hs, hnextPreviews, ?_⟩
  · rw [hk, ← hroom]
    rfl
  · rw [hk, ← hreplacedDropped]
    exact hroomDropped

theorem findMergedEntryIndex_eq_none (h : history.findMergedEntryIndex notificationId = none) :
    notificationId ∉ history.listMergedIds := by
  intro hm
  obtain ⟨entry, hin, hs⟩ := List.mem_map.mp hm
  exact of_decide_eq_false (List.findIdx?_eq_none_iff.mp h entry hin) hs

theorem findMergedEntryIndex_eq_some {index : Nat} (h : history.findMergedEntryIndex notificationId = some index) :
    ∃ entry, history.mergedEntries[index]? = some entry ∧ entry.notificationId = notificationId := by
  obtain ⟨hlt, hfo, -⟩ := List.findIdx?_eq_some_iff_getElem.mp h
  exact ⟨_, List.getElem?_eq_getElem hlt, of_decide_eq_true hfo⟩

theorem Arrives.select {history next : NotificationHistory} {arrived : NotificationEntry}
    (h : Arrives fits arrived history next) :
    Arrives fits arrived history (next.setSelectedNotificationId (some arrived.notificationId)) := by
  have hh : arrived.notificationId ∈ next.listMergedIds := by
    unfold listMergedIds
    rw [h.merged]
    exact List.mem_map_of_mem (mem_append_right _ mem_cons_self)
  have hsn := h.sound.select hh
  have hs := h.same.trans (sameQueues_setSelectedId next (some arrived.notificationId))
  obtain ⟨revision, heq⟩ := next.setSelectedId_eq (some arrived.notificationId)
  rw [heq] at hsn hs ⊢
  exact ⟨h.merged, hsn, hs, h.previews, h.dropped⟩

/-- The history without the entry held under the arrived one's id. -/
def withoutHeld (history : NotificationHistory) (arrived : NotificationEntry) : NotificationHistory :=
  match history.findMergedEntryIndex arrived.notificationId with
  | some heldEntryIndex => (history.removeMergedEntryAt heldEntryIndex).1
  | none => history

/-- What removing the held entry of an arrival leaves. -/
structure HeldRemoved (fits : NotificationId × NotificationSeverity → Prop) (arrived : NotificationEntry)
    (history removed : NotificationHistory) : Prop where
  merged : removed.mergedEntries = history.listOtherEntries arrived
  sound : EntriesSound removed
  same : SameQueues history removed
  previews : PreviewsSound fits (· = arrived.notificationId) removed.mergedEntries removed.notificationToast
  dropped : removed.droppedEntryCount = history.droppedEntryCount

theorem heldRemoved_withoutHeld (h : EntriesSound history)
    (hpv : PreviewsSound fits (fun _ => False) history.mergedEntries history.notificationToast) :
    HeldRemoved fits arrived history (history.withoutHeld arrived) := by
  unfold withoutHeld
  rcases hidx : history.findMergedEntryIndex arrived.notificationId with _ | index
  · refine ⟨?_, h, .refl history, hpv.mono (fun _ => False.elim) fun entry hm => .inr hm, rfl⟩
    have hnew := findMergedEntryIndex_eq_none hidx
    unfold listOtherEntries
    rw [eq_comm, filter_eq_self]
    exact fun entry hm => decide_eq_true fun hs => hnew (hs ▸ List.mem_map_of_mem hm)
  · obtain ⟨held, hg, hid⟩ := findMergedEntryIndex_eq_some hidx
    obtain ⟨removed, hrm, hmg, hsn, hs, ht, hdp⟩ := removeMergedEntryAt_spec h hg
    rw [eraseIdx_eq_filter h.nodup hg, hid] at hmg
    dsimp only
    rw [hrm]
    refine ⟨hmg, hsn, hs, ?_, hdp⟩
    rw [ht, hmg]
    refine hpv.mono (fun _ => False.elim) fun entry hm => ?_
    by_cases hsameId : entry.notificationId = arrived.notificationId
    · exact .inl hsameId
    · exact .inr (mem_filter.mpr ⟨hm, decide_eq_true hsameId⟩)

variable {removed : NotificationHistory}

theorem HeldRemoved.kept (h : HeldRemoved fits arrived history removed) :
    removed.listKeptEntries arrived = history.listKeptEntries arrived := by
  unfold listKeptEntries listOtherEntries
  rw [h.same.isSessionLocal, h.merged, listOtherEntries, List.filter_filter]
  simp

theorem HeldRemoved.notMem (h : HeldRemoved fits arrived history removed) :
    arrived.notificationId ∉ removed.listMergedIds := by
  intro hm
  obtain ⟨entry, hin, hsameId⟩ := List.mem_map.mp hm
  rw [h.merged] at hin
  exact of_decide_eq_true (mem_filter.mp hin).2 hsameId

/-- **An arrival.** The entry stands at the newest place, with the others before it that it does not replace and that
room is left for; what was fine stays so. -/
theorem arrives_takeArrival (h : EntriesSound history)
    (hpv : PreviewsSound fits (fun _ => False) history.mergedEntries history.notificationToast)
    (hft : fits (arrived.notificationId, arrived.severity)) (shows : Bool) :
    Arrives fits arrived history
      (history.takeArrival arrived (history.findMergedEntryIndex arrived.notificationId) shows) := by
  have hrv := @heldRemoved_withoutHeld _ _ arrived h hpv
  have hpush := arrives_pushMergedEntry hrv.sound hrv.notMem hrv.previews hft shows
  have hpu : Arrives fits arrived history ((history.withoutHeld arrived).pushMergedEntry arrived shows) := by
    refine ⟨?_, hpush.sound, hrv.same.trans hpush.same, hpush.previews, ?_⟩
    · rw [← hrv.kept]
      exact hpush.merged
    · rw [← hrv.kept, ← hrv.dropped]
      exact hpush.dropped
  unfold takeArrival
  dsimp only
  split
  · rename_i hsel
    rw [hsel]
    exact hpu.select
  · exact hpu

/-! ### Queues and posts as arrivals -/

/-- What a queue or post taken keeps: the property stays when the mark or the counts change, and with every arrival of
an entry it carries. -/
structure TakeInvariant (received : List NotificationEntry) (property : NotificationHistory → Prop) : Prop where
  book : ∀ {history : NotificationHistory} (droppedEntryCount revision : Nat), property history →
    property { history with droppedEntryCount, revision }
  mark : ∀ {history : NotificationHistory} (mark : SessionQueueMark), (∃ sessionId, mark.owner = .session sessionId) →
    property history → property { history with sessionQueueMark := some mark }
  arrive : ∀ {history : NotificationHistory} (entry : NotificationEntry) (shows : Bool),
    entry ∈ received → isSessionEntry entry = true → property history →
      property (history.takeArrival (sanitizeReceivedEntry entry) (history.findMergedEntryIndex entry.notificationId)
        shows)

variable {property : NotificationHistory → Prop}

variable {received : List NotificationEntry}

theorem TakeInvariant.countSkipped (hi : TakeInvariant received property) (h : property history)
    (entry : NotificationEntry) (nextExpectedSequence : Nat) :
    property (history.countSkippedSequences entry nextExpectedSequence).1 := by
  unfold countSkippedSequences
  dsimp only
  split
  · exact h
  · split
    · exact hi.book _ _ h
    · exact h

theorem TakeInvariant.queuedEntries (hi : TakeInvariant received property) (pv : Bool)
    (entries : List NotificationEntry) (hrecv : ∀ entry ∈ entries, entry ∈ received ∧ isSessionEntry entry = true)
    (loop : QueueLoop) (h : property loop.history) :
    property (entries.foldl (takeQueuedEntry pv) loop).history := by
  induction entries generalizing loop with
  | nil => exact h
  | cons entry entries ih =>
    obtain ⟨hm, hsess⟩ := hrecv entry mem_cons_self
    refine ih (fun other ho => hrecv other (mem_cons_of_mem _ ho)) _ ?_
    have hcd := hi.countSkipped h (sanitizeReceivedEntry entry) loop.nextExpectedSequence
    unfold takeQueuedEntry
    dsimp only
    split
    · exact hi.arrive entry pv hm hsess hcd
    · exact hcd

theorem isSessionEntry_of_owner {sessionId : SessionId} (h : entry.notificationId.owner = .session sessionId) :
    isSessionEntry entry = true := by
  simp [isSessionEntry, h]

theorem owner_of_validateQueuedEntries {queue : NotificationQueue} (h : queue.validateQueuedEntries = .ok ())
    (hm : entry ∈ queue.queuedEntries) : entry.notificationId.owner = queue.owner := by
  unfold NotificationQueue.validateQueuedEntries at h
  split at h
  · cases h
  split at h
  · cases h
  · rename_i hnone
    have hft := List.find?_eq_none.mp hnone entry hm
    simp only [ne_eq, decide_not, Bool.or_eq_true, Bool.not_eq_true', decide_eq_false_iff_not, not_or, not_not] at hft
    exact hft.1

theorem TakeInvariant.sessionQueue {queue : NotificationQueue} (hi : TakeInvariant queue.queuedEntries property)
    (h : property history) (sessionId : SessionId) (shows : Bool) :
    property (history.takeSessionQueue sessionId queue shows).1 := by
  unfold takeSessionQueue
  rcases hv : queue.validateQueuedEntries with queueError | ⟨⟩
  · exact h
  dsimp only
  split
  · exact h
  rename_i hown
  rw [not_not] at hown
  have htk : ∀ mergedThrough pv, property (history.takeQueuedEntries queue mergedThrough pv) := by
    intro mergedThrough pv
    have hloop := hi.queuedEntries pv queue.queuedEntries
      (fun entry hm => ⟨hm, isSessionEntry_of_owner ((owner_of_validateQueuedEntries hv hm).trans hown)⟩)
      ⟨history, mergedThrough, expectedSequence mergedThrough⟩ h
    exact hi.mark _ ⟨sessionId, hown⟩ hloop
  split
  · split
    · exact h
    · exact htk _ _
  · exact htk _ _

theorem TakeInvariant.sessionPost {postedEntry : NotificationEntry} (hi : TakeInvariant [postedEntry] property)
    (h : property history) (hmark : ∀ mark ∈ history.sessionQueueMark, ∃ sessionId, mark.owner = .session sessionId)
    (revision : Nat) (shows : Bool) : property (history.takeSessionPost revision postedEntry shows).1 := by
  unfold takeSessionPost
  rcases hfo : history.sessionQueueMark with _ | mark
  · exact h
  dsimp only
  split
  · exact h
  rename_i hown
  rw [not_or, not_not, not_not] at hown
  split
  · exact h
  obtain ⟨sessionId, hsess⟩ := hmark mark hfo
  have hcd := fun mergedThrough => hi.countSkipped (hi.mark { mark with revision, mergedThrough } ⟨sessionId, hsess⟩ h)
    postedEntry (expectedSequence mark.mergedThrough)
  split
  · exact hi.arrive postedEntry shows mem_cons_self (isSessionEntry_of_owner (hown.1.trans hsess)) (hcd _)
  · exact hcd _

end NotificationHistory

end Koshi.Client
