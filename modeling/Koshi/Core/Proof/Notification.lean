import Mathlib.Tactic
import Koshi.Core.Notification

/-!
# What posts do to their queue

A post repeats the newest entry or adds one. Over a run of posts the sequences rise, and an entry that a later state of
the queue holds was held before as it is, or is newer than the newest entry then.
-/

namespace Koshi.Core

open List

/-! ### Sanitized texts -/

theorem takeFittingCharacters_sublist (byteCount : Nat) (text : List Char) :
    (takeFittingCharacters byteCount text).Sublist text := by
  induction text generalizing byteCount with
  | nil => exact List.Sublist.refl _
  | cons char text ih =>
    unfold takeFittingCharacters
    split
    · exact (ih _).cons_cons char
    · exact nil_sublist _

theorem takeFittingCharacters_idem (byteCount : Nat) (text : List Char) :
    takeFittingCharacters byteCount (takeFittingCharacters byteCount text) = takeFittingCharacters byteCount text := by
  induction text generalizing byteCount with
  | nil => rfl
  | cons char text ih =>
    rw [takeFittingCharacters]
    split
    · rename_i hft
      rw [takeFittingCharacters, if_pos hft, ih]
    · rfl

theorem sanitizeTextToByteCount_idem (text : List Char) (maximum : Nat) :
    sanitizeTextToByteCount (sanitizeTextToByteCount text maximum) maximum = sanitizeTextToByteCount text maximum := by
  have hk : ∀ char ∈ sanitizeTextToByteCount text maximum, (!isRefusedCharacter char) = true :=
    fun char hm => (mem_filter.mp ((takeFittingCharacters_sublist _ _).subset hm)).2
  show takeFittingCharacters maximum ((sanitizeTextToByteCount text maximum).filter _) = _
  rw [filter_eq_self.mpr hk]
  exact takeFittingCharacters_idem _ _

namespace NotificationQueue

variable {queue : NotificationQueue} {severity : NotificationSeverity} {text : List Char} {postCount createdAt : Nat}

def repeatEntry (newest : NotificationEntry) (postCount createdAt : Nat) : NotificationEntry :=
  { newest with
    repeatCount := min (newest.repeatCount + postCount) maxU32
    createdAt }

def newEntry (queue : NotificationQueue) (severity : NotificationSeverity) (text : List Char)
    (postCount createdAt : Nat) :
    NotificationEntry :=
  ⟨⟨queue.owner, queue.epoch, queue.nextSequence⟩, .core, severity,
    sanitizeTextToByteCount text maxNotificationTextByteCount, createdAt, postCount⟩

/-- The entries kept beside a new one. -/
def keepQueued (queue : NotificationQueue) : List NotificationEntry :=
  if queue.queuedEntries.length = maxQueuedNotificationCount then queue.queuedEntries.tail else queue.queuedEntries

theorem postCoreEntry_cases (queue : NotificationQueue) (severity : NotificationSeverity) (text : List Char)
    (postCount createdAt : Nat) :
    (∃ newest, queue.queuedEntries.getLast? = some newest ∧
      isCoreNotice newest severity (sanitizeTextToByteCount text maxNotificationTextByteCount) = true ∧
      queue.postCoreEntry severity text postCount createdAt =
        ({ queue with
          revision := queue.revision + postCount
          queuedEntries := queue.queuedEntries.dropLast ++ [repeatEntry newest postCount createdAt] },
          repeatEntry newest postCount createdAt)) ∨
    queue.findRepeatedEntry severity (sanitizeTextToByteCount text maxNotificationTextByteCount) = none ∧
      queue.postCoreEntry severity text postCount createdAt =
      ({ queue with
        revision := queue.revision + postCount
        queuedEntries := queue.keepQueued ++ [queue.newEntry severity text postCount createdAt] },
        queue.newEntry severity text postCount createdAt) := by
  unfold postCoreEntry
  dsimp only
  split
  · rename_i newest hrepeated
    obtain ⟨hnw, hnotice⟩ := Option.filter_eq_some_iff.mp hrepeated
    exact .inl ⟨newest, hnw, hnotice, rfl⟩
  · rename_i hnone
    exact .inr ⟨hnone, rfl⟩

theorem getLast?_postCoreEntry :
    (queue.postCoreEntry severity text postCount createdAt).1.queuedEntries.getLast? =
      some (queue.postCoreEntry severity text postCount createdAt).2 := by
  rcases queue.postCoreEntry_cases severity text postCount createdAt with ⟨newest, -, -, hrepeat⟩ | ⟨-, hnew⟩
  · rw [hrepeat]
    exact List.getLast?_concat
  · rw [hnew]
    exact List.getLast?_concat

theorem owner_postCoreEntry :
    (queue.postCoreEntry severity text postCount createdAt).1.owner = queue.owner ∧
      (queue.postCoreEntry severity text postCount createdAt).1.epoch = queue.epoch ∧
      (queue.postCoreEntry severity text postCount createdAt).1.revision = queue.revision + postCount := by
  rcases queue.postCoreEntry_cases severity text postCount createdAt with ⟨newest, -, -, hrepeat⟩ | ⟨-, hnew⟩
  · rw [hrepeat]
    exact ⟨rfl, rfl, rfl⟩
  · rw [hnew]
    exact ⟨rfl, rfl, rfl⟩

theorem nextSequence_of_getLast? {newest : NotificationEntry} (h : queue.queuedEntries.getLast? = some newest) :
    queue.nextSequence = newest.notificationId.sequence + 1 := by
  simp [nextSequence, h]

theorem severity_postCoreEntry :
    (queue.postCoreEntry severity text postCount createdAt).2.severity = severity ∧
      (queue.postCoreEntry severity text postCount createdAt).2.text =
        sanitizeTextToByteCount text maxNotificationTextByteCount := by
  rcases queue.postCoreEntry_cases severity text postCount createdAt with ⟨newest, -, hnotice, hrepeat⟩ | ⟨-, hnew⟩
  · rw [hrepeat]
    simp only [isCoreNotice, Bool.and_eq_true, decide_eq_true_eq] at hnotice
    exact ⟨hnotice.1.2, hnotice.2⟩
  · rw [hnew]
    exact ⟨rfl, rfl⟩

/-! ### Runs of posts -/

structure Post where
  severity : NotificationSeverity
  text : List Char
  postCount : Nat
  createdAt : Nat
  isPositive : 0 < postCount

def afterPost (queue : NotificationQueue) (post : Post) : NotificationQueue :=
  (queue.postCoreEntry post.severity post.text post.postCount post.createdAt).1

variable (owner : NotificationQueueOwner) (epoch : NotificationEpoch)

def afterPosts (posts : List Post) : NotificationQueue :=
  posts.foldl afterPost (fromOwner owner epoch)

theorem afterPosts_concat (posts : List Post) (post : Post) :
    afterPosts owner epoch (posts ++ [post]) = (afterPosts owner epoch posts).afterPost post := foldl_concat ..

/-- What holds of a queue after any posts. -/
structure Sound (queue : NotificationQueue) : Prop where
  ids : ∀ entry ∈ queue.queuedEntries, entry.notificationId.owner = queue.owner ∧
    entry.notificationId.epoch = queue.epoch
  rising : queue.queuedEntries.Pairwise fun first second =>
    first.notificationId.sequence < second.notificationId.sequence
  bounded : queue.queuedEntries.length ≤ maxQueuedNotificationCount
  texts : ∀ entry ∈ queue.queuedEntries, sanitizeTextToByteCount entry.text maxNotificationTextByteCount = entry.text

theorem keepQueued_sublist (queue : NotificationQueue) : queue.keepQueued.Sublist queue.queuedEntries := by
  unfold keepQueued
  split
  · exact tail_sublist _
  · exact List.Sublist.refl _

theorem Sound.sequence_lt_nextSequence (h : queue.Sound) {entry : NotificationEntry}
    (hm : entry ∈ queue.queuedEntries) :
    entry.notificationId.sequence < queue.nextSequence := by
  obtain ⟨init, newest, hsp⟩ :=
    eq_nil_or_concat' queue.queuedEntries |>.resolve_left (ne_nil_of_mem hm)
  have hl : queue.queuedEntries.getLast? = some newest := by
    rw [hsp]
    exact List.getLast?_concat
  rw [nextSequence_of_getLast? hl]
  rw [hsp, mem_append, mem_singleton] at hm
  rcases hm with hm | rfl
  · have hrising := h.rising
    rw [hsp, pairwise_append] at hrising
    exact Nat.lt_succ_of_lt (hrising.2.2 entry hm newest mem_cons_self)
  · exact Nat.lt_succ_self _

theorem dropLast_append_of_getLast? {entries : List NotificationEntry} {newest : NotificationEntry}
    (h : entries.getLast? = some newest) : entries.dropLast ++ [newest] = entries :=
  dropLast_append_getLast? newest h

theorem Sound.afterPost (h : queue.Sound) (post : Post) : (queue.afterPost post).Sound := by
  unfold NotificationQueue.afterPost
  rcases queue.postCoreEntry_cases post.severity post.text post.postCount post.createdAt with
    ⟨newest, hnw, -, hrepeat⟩ | ⟨-, hnew⟩
  · rw [hrepeat]
    have hsp := dropLast_append_of_getLast? hnw
    have hin : newest ∈ queue.queuedEntries := mem_of_getLast? hnw
    have hrising := h.rising
    rw [← hsp, pairwise_append] at hrising
    refine ⟨fun entry hm => ?_, ?_, ?_, fun entry hm => ?_⟩
    · rcases mem_append.mp hm with hm | hm
      · exact h.ids entry (dropLast_sublist _ |>.subset hm)
      · rw [mem_singleton] at hm
        subst hm
        exact h.ids newest hin
    · refine pairwise_append.mpr ⟨hrising.1, pairwise_singleton .., fun fst hf snd hse => ?_⟩
      rw [mem_singleton] at hse
      subst hse
      exact hrising.2.2 fst hf newest mem_cons_self
    · have hlen := congrArg List.length hsp
      have hbo := h.bounded
      simp only [length_append, length_singleton] at hlen ⊢
      omega
    · rcases mem_append.mp hm with hm | hm
      · exact h.texts entry (dropLast_sublist _ |>.subset hm)
      · rw [mem_singleton] at hm
        subst hm
        exact h.texts newest hin
  · rw [hnew]
    refine ⟨fun entry hm => ?_, ?_, ?_, fun entry hm => ?_⟩
    · rcases mem_append.mp hm with hm | hm
      · exact h.ids entry (queue.keepQueued_sublist.subset hm)
      · rw [mem_singleton] at hm
        subst hm
        exact ⟨rfl, rfl⟩
    · refine pairwise_append.mpr
        ⟨h.rising.sublist queue.keepQueued_sublist, pairwise_singleton .., fun fst hf snd hse => ?_⟩
      rw [mem_singleton] at hse
      subst hse
      exact h.sequence_lt_nextSequence (queue.keepQueued_sublist.subset hf)
    · have hbo := h.bounded
      unfold keepQueued
      rw [length_append, length_singleton]
      split
      · rename_i hfull
        rw [length_tail, hfull]
        decide
      · omega
    · rcases mem_append.mp hm with hm | hm
      · exact h.texts entry (queue.keepQueued_sublist.subset hm)
      · rw [mem_singleton] at hm
        subst hm
        exact sanitizeTextToByteCount_idem ..

theorem sound_afterPosts (posts : List Post) :
    (afterPosts owner epoch posts).Sound ∧ (afterPosts owner epoch posts).owner = owner ∧
      (afterPosts owner epoch posts).epoch = epoch := by
  induction posts using List.reverseRecOn with
  | nil =>
    refine ⟨⟨?_, List.Pairwise.nil, Nat.zero_le _, ?_⟩, rfl, rfl⟩
    · rintro _ ⟨⟩
    · rintro _ ⟨⟩
  | append_singleton posts post ih =>
    rw [afterPosts_concat]
    obtain ⟨hown, hepoch, -⟩ := @owner_postCoreEntry (afterPosts owner epoch posts) post.severity post.text
      post.postCount post.createdAt
    exact ⟨ih.1.afterPost post, hown.trans ih.2.1, hepoch.trans ih.2.2⟩

/-! ### What is newer -/

/-- The entry arrived after the newest one: it has a higher sequence, or the same one and a higher repeat count. -/
def IsNewer (newest : Option NotificationEntry) (entry : NotificationEntry) : Prop :=
  ∀ newestEntry ∈ newest, newestEntry.notificationId.sequence < entry.notificationId.sequence ∨
    newestEntry.notificationId.sequence = entry.notificationId.sequence ∧ newestEntry.repeatCount < entry.repeatCount

theorem IsNewer.trans {newest : Option NotificationEntry} {mid last : NotificationEntry} (hf : IsNewer newest mid)
    (hse : IsNewer (some mid) last) : IsNewer newest last := by
  intro newestEntry hm
  have hmid := hf newestEntry hm
  have hl := hse mid rfl
  omega

theorem Sound.not_isNewer (h : queue.Sound) {entry : NotificationEntry} (hm : entry ∈ queue.queuedEntries) :
    ¬IsNewer queue.queuedEntries.getLast? entry := by
  obtain ⟨init, newest, hsp⟩ :=
    eq_nil_or_concat' queue.queuedEntries |>.resolve_left (ne_nil_of_mem hm)
  intro hnewer
  rw [hsp, List.getLast?_concat] at hnewer
  have hkey := hnewer newest rfl
  rw [hsp, mem_append, mem_singleton] at hm
  rcases hm with hm | rfl
  · have hrising := h.rising
    rw [hsp, pairwise_append] at hrising
    have hlt := hrising.2.2 entry hm newest mem_cons_self
    omega
  · omega

/-- A post gives a newer entry while the repeat counts do not saturate, and leaves the others as they are. -/
theorem isNewer_afterPost (hrepeat : ∀ entry ∈ queue.queuedEntries, entry.repeatCount < maxU32) (post : Post) :
    ∃ newest, (queue.afterPost post).queuedEntries.getLast? = some newest ∧
      IsNewer queue.queuedEntries.getLast? newest ∧
      ∀ entry ∈ (queue.afterPost post).queuedEntries, entry ∈ queue.queuedEntries ∨ entry = newest := by
  unfold afterPost
  refine ⟨_, getLast?_postCoreEntry, ?_, fun entry hm => ?_⟩
  · rcases queue.postCoreEntry_cases post.severity post.text post.postCount post.createdAt with
      ⟨newest, hnw, -, hps⟩ | ⟨-, hps⟩
    · rw [hps, hnw]
      rintro _ ⟨⟩
      have hlt := hrepeat newest (mem_of_getLast? hnw)
      have hpos := post.isPositive
      refine .inr ⟨rfl, ?_⟩
      show newest.repeatCount < min (newest.repeatCount + post.postCount) maxU32
      omega
    · rw [hps]
      intro newest hnw
      refine .inl ?_
      show _ < queue.nextSequence
      rw [nextSequence_of_getLast? hnw]
      exact Nat.lt_succ_self _
  · rcases queue.postCoreEntry_cases post.severity post.text post.postCount post.createdAt with
      ⟨newest, -, -, hps⟩ | ⟨-, hps⟩
    · rw [hps] at hm ⊢
      rcases mem_append.mp hm with hm | hm
      · exact .inl (dropLast_sublist _ |>.subset hm)
      · exact .inr (mem_singleton.mp hm)
    · rw [hps] at hm ⊢
      rcases mem_append.mp hm with hm | hm
      · exact .inl (queue.keepQueued_sublist.subset hm)
      · exact .inr (mem_singleton.mp hm)

end NotificationQueue

end Koshi.Core
