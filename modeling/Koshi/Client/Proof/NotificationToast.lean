import Mathlib.Tactic
import Koshi.Client.NotificationToast

/-!
# What the toast's previews name

One predicate on the previewed entries and one on the members of summaries, kept by every operation of the toast queue.
An operation that changes what the history holds is given the previews that break the predicates for the entries it
changed, and mends them.
-/

namespace Koshi.Client

open Koshi.Core List Option NotificationToastQueue

namespace NotificationToastQueue

/-! ### The invariant -/

/-- What a shown toast names: an entry that is fine unless the toast is being withdrawn, or fine members. -/
def PreviewSound (entryOk : NotificationEntry → Prop) (memberOk : NotificationId × NotificationSeverity → Prop)
    (shownToast : ShownToast) : Prop :=
  match shownToast.preview with
  | .entry shownEntry => isWithdrawn shownToast = true ∨ entryOk shownEntry
  | .summary summaryMembers => summaryMembers ≠ [] ∧ ∀ member ∈ summaryMembers, memberOk member

/-- No id is previewed twice, at most three entries wait and none while no toast shows, no summary is empty, and every
preview is fine. -/
structure Sound (entryOk : NotificationEntry → Prop) (memberOk : NotificationId × NotificationSeverity → Prop)
    (queue : NotificationToastQueue) : Prop where
  previewed : queue.listPreviewedIds.Nodup
  shown : ∀ shownToast ∈ queue.shownToast, PreviewSound entryOk memberOk shownToast
  entries : ∀ waiting ∈ queue.waitingEntries, entryOk waiting
  count : queue.waitingEntries.length ≤ maxWaitingToastCount
  summary : ∀ summaryMembers ∈ queue.waitingSummary, summaryMembers ≠ [] ∧ ∀ member ∈ summaryMembers, memberOk member
  nothingWaits : queue.shownToast = none → queue.waitingEntries = [] ∧ queue.waitingSummary = none

variable {entryOk entryOk' : NotificationEntry → Prop}
    {memberOk memberOk' : NotificationId × NotificationSeverity → Prop} {queue : NotificationToastQueue}

variable {shownToast : ShownToast}

theorem PreviewSound.mono (h : PreviewSound entryOk memberOk shownToast) (he : ∀ entry, entryOk entry → entryOk' entry)
    (hmem : ∀ member, memberOk member → memberOk' member) :
    PreviewSound entryOk' memberOk' shownToast := by
  unfold PreviewSound at h ⊢
  split at h
  · exact h.imp_right (he _)
  · exact ⟨h.1, fun member hm => hmem member (h.2 member hm)⟩

theorem Sound.mono (h : Sound entryOk memberOk queue) (he : ∀ entry, entryOk entry → entryOk' entry)
    (hmem : ∀ member, memberOk member → memberOk' member) : Sound entryOk' memberOk' queue where
  __ := h
  shown shownToast hm := (h.shown shownToast hm).mono he hmem
  entries entry hm := he entry (h.entries entry hm)
  summary ms hm := ⟨(h.summary ms hm).1, fun member hin => hmem member ((h.summary ms hm).2 member hin)⟩

theorem sound_default : Sound entryOk memberOk default := by
  refine ⟨nodup_nil, ?_, ?_, Nat.zero_le _, ?_, fun _ => ⟨rfl, rfl⟩⟩
  · rintro shownToast ⟨⟩
  · rintro entry ⟨⟩
  · rintro ms ⟨⟩

theorem sound_clearPreviews : Sound entryOk memberOk queue.clearPreviews := by
  refine ⟨nodup_nil, ?_, ?_, Nat.zero_le _, ?_, fun _ => ⟨rfl, rfl⟩⟩
  · rintro shownToast ⟨⟩
  · rintro entry ⟨⟩
  · rintro ms ⟨⟩

/-! ### Showing the next preview -/

def listWaitingIds (queue : NotificationToastQueue) : List NotificationId :=
  queue.waitingEntries.map (·.notificationId) ++ (queue.waitingSummary.getD []).map (·.1)

theorem sound_showNextPreview (hnd : queue.listWaitingIds.Nodup)
    (hentries : ∀ waiting ∈ queue.waitingEntries, entryOk waiting)
    (hc : queue.waitingEntries.length ≤ maxWaitingToastCount)
    (hsum : ∀ sums ∈ queue.waitingSummary, sums ≠ [] ∧ ∀ member ∈ sums, memberOk member) :
    Sound entryOk memberOk queue.showNextPreview := by
  unfold showNextPreview
  unfold listWaitingIds at hnd
  split
  · rename_i waiting waitingEntries hwaiting
    rw [hwaiting] at hnd hentries hc
    refine ⟨by simpa [listPreviewedIds, listPreviewIds, showPreview, ShownToast.fromPreview] using hnd, ?_, ?_, ?_,
      hsum, ?_⟩
    · rintro shownToast ⟨⟩
      exact .inr (hentries waiting mem_cons_self)
    · intro entry hm
      exact hentries entry (mem_cons_of_mem _ hm)
    · exact le_trans (Nat.le_succ _) hc
    · rintro ⟨⟩
  rename_i hwaiting
  split
  · rename_i sums hmembers
    rw [hwaiting, hmembers] at hnd
    refine ⟨by simpa [listPreviewedIds, listPreviewIds, showPreview, ShownToast.fromPreview, hwaiting] using hnd, ?_,
      hentries, hc, ?_, ?_⟩
    · rintro shownToast ⟨⟩
      exact hsum sums hmembers
    · rintro ms ⟨⟩
    · rintro ⟨⟩
  · rename_i hmembers
    refine ⟨by simp [listPreviewedIds, hwaiting, hmembers], ?_, hentries, hc, hsum, fun _ => ⟨hwaiting, hmembers⟩⟩
    rintro shownToast ⟨⟩

section

variable (h : Sound entryOk memberOk queue)

include h

theorem Sound.nodup_listWaitingIds : queue.listWaitingIds.Nodup :=
  (nodup_append.mp h.previewed).2.1

theorem Sound.showNextPreview : Sound entryOk memberOk queue.showNextPreview :=
  sound_showNextPreview h.nodup_listWaitingIds h.entries h.count h.summary

/-! ### Replacing the shown toast -/

theorem Sound.withShown {nextToast : ShownToast} (hsh : queue.shownToast = some shownToast)
    (hpv : nextToast.preview = shownToast.preview)
    (hgone : isWithdrawn shownToast = true → isWithdrawn nextToast = true) :
    Sound entryOk memberOk { queue with shownToast := some nextToast } where
  __ := h
  previewed := by
    have hnd := h.previewed
    unfold listPreviewedIds at hnd ⊢
    rw [hsh] at hnd
    simp only [map_some, getD_some, hpv] at hnd ⊢
    exact hnd
  shown := by
    rintro _ ⟨⟩
    have hsn := h.shown shownToast hsh
    unfold PreviewSound at hsn ⊢
    rw [hpv]
    split at hsn
    · exact hsn.imp_left hgone
    · exact hsn
  nothingWaits := by
    rintro ⟨⟩

theorem Sound.requestWithdraw : Sound entryOk memberOk queue.requestWithdraw := by
  unfold NotificationToastQueue.requestWithdraw
  rcases hsh : queue.shownToast with _ | shownToast
  · rw [map_none, ← hsh]
    exact h
  rw [map_some]
  refine h.withShown hsh ?_ ?_
  · split <;> rfl
  · intro hgone
    rw [if_pos hgone]
    exact hgone

/-! ### The clock -/

theorem Sound.seeWaitingPreview (now : Nat) : Sound entryOk memberOk (queue.seeWaitingPreview now) :=
  ⟨h.previewed, h.shown, h.entries, h.count, h.summary, h.nothingWaits⟩

end

variable {waitingPreviewSeenAt : Option Nat}

theorem turnShownToast_rests {rested : ShownToast} {now : Nat} {timing : ToastTiming}
    (h : turnShownToast shownToast now timing waitingPreviewSeenAt = .rests rested) :
    rested.preview = shownToast.preview ∧ (isWithdrawn shownToast = true → isWithdrawn rested = true) := by
  unfold turnShownToast at h
  dsimp only at h
  split at h
  · split at h <;> cases h
  · split at h
    · cases h
      exact ⟨rfl, id⟩
    · split at h <;> cases h

theorem turnShownToast_moves {moved : ShownToast} {now : Nat} {timing : ToastTiming}
    (h : turnShownToast shownToast now timing waitingPreviewSeenAt = .moves moved) :
    moved.preview = shownToast.preview ∧ (isWithdrawn shownToast = true → isWithdrawn moved = true) := by
  unfold turnShownToast at h
  dsimp only at h
  split at h
  · split at h
    · cases h
    · cases h
      exact ⟨rfl, fun _ => rfl⟩
  · rename_i hreq
    split at h
    · cases h
    · split at h
      · rename_i hp
        cases h
        refine ⟨rfl, fun hgone => ?_⟩
        simp [isWithdrawn, hreq, hp] at hgone
      · cases h
        exact ⟨rfl, fun _ => by simp [isWithdrawn]⟩
      · cases h

section

variable (h : Sound entryOk memberOk queue)

include h

theorem Sound.advanceLoop (now : Nat) (timing : ToastTiming) (hasChanged : Bool) :
    Sound entryOk memberOk (queue.advanceLoop now timing hasChanged).1 := by
  fun_induction NotificationToastQueue.advanceLoop queue now timing hasChanged with
  | case1 queue hasChanged hsh => exact h.seeWaitingPreview now
  | case2 queue hasChanged shownToast hsh rested hturn =>
    obtain ⟨hpv, hgone⟩ := turnShownToast_rests hturn
    exact (h.seeWaitingPreview now).withShown hsh hpv hgone
  | case3 queue hasChanged shownToast hsh moved hturn ih =>
    obtain ⟨hpv, hgone⟩ := turnShownToast_moves hturn
    exact ih ((h.seeWaitingPreview now).withShown hsh hpv hgone)
  | case4 queue hasChanged shownToast hsh hturn ih =>
    exact ih (h.seeWaitingPreview now).showNextPreview

theorem Sound.resume (now : Nat) : Sound entryOk memberOk (queue.resume now) := by
  unfold NotificationToastQueue.resume
  split
  · exact h
  rename_i pausedAt _
  rcases hsh : queue.shownToast with _ | shownToast
  · rw [map_none, ← hsh]
    exact ⟨h.previewed, h.shown, h.entries, h.count, h.summary, h.nothingWaits⟩
  · have hwith : Sound entryOk memberOk { queue with shownToast := some { shownToast with
        phaseStartedAt := shownToast.phaseStartedAt.map (· + (now - pausedAt)) } } := h.withShown hsh rfl id
    exact ⟨hwith.previewed, hwith.shown, hwith.entries, hwith.count, hwith.summary, hwith.nothingWaits⟩

theorem Sound.advance (now : Nat) (timing : ToastTiming) (isPaused : Bool) :
    Sound entryOk memberOk (queue.advance now timing isPaused).1 := by
  unfold NotificationToastQueue.advance
  split
  · exact ⟨h.previewed, h.shown, h.entries, h.count, h.summary, h.nothingWaits⟩
  · exact (h.resume now).advanceLoop now timing false

end

/-! ### Copies of a changed entry -/

theorem listPreviewIds_updatePreview (changed : NotificationEntry) (preview : ToastPreview) :
    listPreviewIds (updatePreview changed preview) = listPreviewIds preview := by
  cases preview with
  | entry shownEntry =>
    simp only [updatePreview]
    split
    · rename_i heq
      simp [listPreviewIds, heq]
    · rfl
  | summary sums => rfl

theorem listPreviewedIds_updatePreviews (queue : NotificationToastQueue) (changed : NotificationEntry) :
    (queue.updatePreviews changed).1.listPreviewedIds = queue.listPreviewedIds := by
  have hwaiting : (queue.waitingEntries.map fun waiting =>
      if waiting.notificationId = changed.notificationId then changed else waiting).map
        (·.notificationId) = queue.waitingEntries.map (·.notificationId) := by
    rw [List.map_map]
    refine map_congr_left fun waiting _ => ?_
    simp only [Function.comp_apply]
    split
    · rename_i heq
      exact heq.symm
    · rfl
  unfold listPreviewedIds updatePreviews
  simp only [hwaiting, Option.map_map]
  congr 3
  funext shownToast
  exact listPreviewIds_updatePreview changed shownToast.preview

theorem Sound.updatePreviews {changed : NotificationEntry}
    (h : Sound (fun entry => entry.notificationId = changed.notificationId ∨ entryOk entry) memberOk queue)
    (hchg : entryOk changed) : Sound entryOk memberOk (queue.updatePreviews changed).1 where
  previewed := by
    rw [listPreviewedIds_updatePreviews]
    exact h.previewed
  shown := by
    intro nextToast hm
    obtain ⟨shownToast, hsh, rfl⟩ := map_eq_some_iff.mp hm
    have hsn := h.shown shownToast hsh
    unfold PreviewSound at hsn ⊢
    rcases hpv : shownToast.preview with shownEntry | ms
    · rw [hpv] at hsn
      simp only [updatePreview]
      by_cases heq : shownEntry.notificationId = changed.notificationId
      · rw [if_pos heq]
        exact .inr hchg
      · rw [if_neg heq]
        rcases hsn with hgone | hid | hok
        · exact .inl hgone
        · exact absurd hid heq
        · exact .inr hok
    · rw [hpv] at hsn
      exact hsn
  entries := by
    intro entry hm
    obtain ⟨waiting, hwaiting, rfl⟩ := List.mem_map.mp hm
    split
    · exact hchg
    · rename_i hne
      exact (h.entries waiting hwaiting).resolve_left hne
  count := by
    have hc := h.count
    simpa [NotificationToastQueue.updatePreviews] using hc
  summary := h.summary
  nothingWaits hnone := by
    obtain ⟨hwaiting, hsum⟩ := h.nothingWaits (map_eq_none_iff.mp hnone)
    exact ⟨by simp [NotificationToastQueue.updatePreviews, hwaiting], hsum⟩

theorem Sound.queuePreview {arrived : NotificationEntry}
    (h : Sound (fun entry => entry.notificationId = arrived.notificationId ∨ entryOk entry) memberOk queue)
    (harrived : entryOk arrived) (hmem : memberOk (arrived.notificationId, arrived.severity)) :
    Sound entryOk memberOk (queue.queuePreview arrived) := by
  have hupd := h.updatePreviews harrived
  have hids := listPreviewedIds_updatePreviews queue arrived
  unfold NotificationToastQueue.queuePreview
  split
  · rename_i updated heq
    rw [heq] at hupd
    exact hupd
  rename_i updated heq
  rw [heq] at hupd hids
  have hnew : (updated.listPreviewedIds ++ [arrived.notificationId]).Nodup := by
    have hflag : (queue.updatePreviews arrived).2 = false := by rw [heq]
    have hnotMem : arrived.notificationId ∉ updated.listPreviewedIds := by
      rw [hids]
      exact of_decide_eq_false hflag
    rw [nodup_append]
    refine ⟨hupd.previewed, nodup_singleton _, fun noteId hm j ho => ?_⟩
    rw [mem_singleton] at ho
    subst ho
    exact fun hs => hnotMem (hs ▸ hm)
  replace hupd : Sound entryOk memberOk updated := hupd
  clear h hids heq
  split
  · rename_i sums hsum
    obtain ⟨-, hmembers⟩ := hupd.summary sums hsum
    refine ⟨?_, hupd.shown, hupd.entries, hupd.count, ?_, fun hnone => ?_⟩
    · simpa [listPreviewedIds, hsum] using hnew
    · rintro ms ⟨⟩
      refine ⟨by simp, fun member hm => ?_⟩
      rcases mem_append.mp hm with hm | hm
      · exact hmembers member hm
      · rw [mem_singleton] at hm
        exact hm ▸ hmem
    · obtain ⟨-, hnoSum⟩ := hupd.nothingWaits hnone
      rw [hsum] at hnoSum
      cases hnoSum
  rename_i hsum
  split
  · rename_i hnone
    rw [isNone_iff_eq_none] at hnone
    obtain ⟨hwaiting, -⟩ := hupd.nothingWaits hnone
    refine ⟨?_, ?_, hupd.entries, hupd.count, hupd.summary, ?_⟩
    · simp [listPreviewedIds, listPreviewIds, showPreview, ShownToast.fromPreview, hwaiting, hsum]
    · rintro shownToast ⟨⟩
      exact .inr harrived
    · rintro ⟨⟩
  rename_i hso
  split
  · rename_i hroom
    refine ⟨?_, hupd.shown, ?_, ?_, hupd.summary, fun hnone => absurd (isNone_iff_eq_none.mpr hnone) hso⟩
    · simpa [listPreviewedIds, hsum] using hnew
    · intro entry hm
      rcases mem_append.mp hm with hm | hm
      · exact hupd.entries entry hm
      · rw [mem_singleton] at hm
        exact hm ▸ harrived
    · rw [length_append]
      exact hroom
  · refine ⟨?_, hupd.shown, hupd.entries, hupd.count, ?_, fun hnone => absurd (isNone_iff_eq_none.mpr hnone) hso⟩
    · simpa [listPreviewedIds, hsum] using hnew
    · rintro ms ⟨⟩
      refine ⟨by simp, fun member hm => ?_⟩
      rw [mem_singleton] at hm
      exact hm ▸ hmem

/-! ### Removing an entry's previews -/

theorem Sound.removeWaitingPreviews {noteId : NotificationId}
    (h : Sound (fun entry => entry.notificationId = noteId ∨ entryOk entry)
      (fun member => member.1 = noteId ∨ memberOk member) queue) :
    (queue.removeWaitingPreviews noteId).listWaitingIds.Sublist queue.listWaitingIds ∧
      (∀ waiting ∈ (queue.removeWaitingPreviews noteId).waitingEntries, entryOk waiting) ∧
      (queue.removeWaitingPreviews noteId).waitingEntries.length ≤ maxWaitingToastCount ∧
      ∀ sums ∈ (queue.removeWaitingPreviews noteId).waitingSummary, sums ≠ [] ∧ ∀ member ∈ sums, memberOk member := by
  refine ⟨?_, fun entry hm => ?_, ?_, fun ms hm => ?_⟩
  · unfold listWaitingIds NotificationToastQueue.removeWaitingPreviews
    refine List.Sublist.append (List.Sublist.map _ filter_sublist) ?_
    rcases queue.waitingSummary with _ | sums
    · exact List.Sublist.refl _
    · simp only [map_some, Option.filter]
      split
      · exact List.Sublist.map _ filter_sublist
      · exact nil_sublist _
  · obtain ⟨hm, hne⟩ := mem_filter.mp hm
    exact (h.entries entry hm).resolve_left (of_decide_eq_true hne)
  · exact le_trans (length_filter_le _ _) h.count
  · obtain ⟨hm, hne⟩ := filter_eq_some_iff.mp hm
    obtain ⟨sums, hsum, rfl⟩ := map_eq_some_iff.mp hm
    refine ⟨of_decide_eq_true hne, fun member hin => ?_⟩
    obtain ⟨hin, ho⟩ := mem_filter.mp hin
    exact ((h.summary sums hsum).2 member hin).resolve_left (of_decide_eq_true ho)

theorem Sound.removePreviews {noteId : NotificationId}
    (h : Sound (fun entry => entry.notificationId = noteId ∨ entryOk entry)
      (fun member => member.1 = noteId ∨ memberOk member) queue) :
    Sound entryOk memberOk (queue.removePreviews noteId) := by
  obtain ⟨hsublist, hentries, hc, hsum⟩ := h.removeWaitingPreviews
  have hids : ∀ {shownIds}, shownIds.Sublist
      ((queue.shownToast.map fun shownToast => listPreviewIds shownToast.preview).getD []) →
      (shownIds ++ (queue.removeWaitingPreviews noteId).listWaitingIds).Nodup :=
    fun hsh => h.previewed.sublist (hsh.append hsublist)
  unfold NotificationToastQueue.removePreviews
  dsimp only
  have hs : (queue.removeWaitingPreviews noteId).shownToast = queue.shownToast := rfl
  rw [hs]
  rcases hsh : queue.shownToast with _ | shownToast
  · obtain ⟨hwaiting, hnoSum⟩ := h.nothingWaits hsh
    refine ⟨?_, fun shownToast hm => ?_, hentries, hc, hsum, fun _ => ?_⟩
    · simp only [listPreviewedIds, hs, hsh]
      exact hids (nil_sublist _)
    · rw [hs, hsh] at hm
      cases hm
    · simp [NotificationToastQueue.removeWaitingPreviews, hwaiting, hnoSum]
  have hsn := h.shown shownToast hsh
  rw [hsh, map_some, getD_some] at hids
  unfold PreviewSound at hsn
  rcases hpv : shownToast.preview with shownEntry | ms
  · rw [hpv] at hids hsn
    simp only [hpv]
    split
    · refine ⟨?_, ?_, hentries, hc, hsum, ?_⟩
      · exact hids (List.Sublist.refl _)
      · rintro _ ⟨⟩
        exact .inl rfl
      · rintro ⟨⟩
    · rename_i hne
      refine ⟨?_, fun otherToast hm => ?_, hentries, hc, hsum, fun hnone => ?_⟩
      · simp only [listPreviewedIds, hs, hsh, map_some, getD_some, hpv]
        exact hids (List.Sublist.refl _)
      · rw [hs, hsh] at hm
        cases hm
        simp only [PreviewSound, hpv]
        rcases hsn with hgone | hid | hok
        · exact .inl hgone
        · exact absurd hid hne
        · exact .inr hok
      · rw [hs, hsh] at hnone
        cases hnone
  · rw [hpv] at hids hsn
    simp only [hpv]
    split
    · exact sound_showNextPreview (hids (nil_sublist _)) hentries hc hsum
    · rename_i hmembers
      refine ⟨?_, ?_, hentries, hc, hsum, ?_⟩
      · simp only [listPreviewedIds, map_some, getD_some]
        exact hids (List.Sublist.map _ filter_sublist)
      · rintro _ ⟨⟩
        refine ⟨fun hnil => hmembers (by rw [hnil]; rfl), fun member hm => ?_⟩
        obtain ⟨hm, ho⟩ := mem_filter.mp hm
        exact (hsn.2 member hm).resolve_left (of_decide_eq_true ho)
      · rintro ⟨⟩

/-! ### Repointing -/

section Repoint

variable {Item : Type} {isOld : Item → Bool} {replacing : Item}

variable {xs : List Item}

/-- What a repointed list holds: the items not replaced, and the replacing one unless it was previewed before. -/
theorem mem_retainRepointed {isShown : Bool} {item : Item} (h : item ∈ (retainRepointed isOld replacing xs isShown).1) :
    (item ∈ xs ∧ isOld item = false) ∨ (item = replacing ∧ isShown = false) := by
  induction xs generalizing isShown with
  | nil => cases h
  | cons first xs ih =>
    unfold retainRepointed at h
    split at h
    · rename_i hk
      rcases mem_cons.mp h with rfl | hm
      · exact .inl ⟨mem_cons_self, by simpa using hk⟩
      · exact (ih hm).imp_left fun hin => ⟨mem_cons_of_mem _ hin.1, hin.2⟩
    · split at h
      · rcases ih h with hin | ⟨-, hfalse⟩
        · exact .inl ⟨mem_cons_of_mem _ hin.1, hin.2⟩
        · cases hfalse
      · rename_i hnew
        rcases mem_cons.mp h with rfl | hm
        · exact .inr ⟨rfl, by simpa using hnew⟩
        · rcases ih hm with hin | ⟨-, hfalse⟩
          · exact .inl ⟨mem_cons_of_mem _ hin.1, hin.2⟩
          · cases hfalse

theorem nodup_retainRepointed {isShown : Bool} (hnd : xs.Nodup) (hreplacing : isOld replacing = true) :
    (retainRepointed isOld replacing xs isShown).1.Nodup := by
  induction xs generalizing isShown with
  | nil => exact nodup_nil
  | cons first xs ih =>
    obtain ⟨hf, hnd⟩ := nodup_cons.mp hnd
    unfold retainRepointed
    split
    · rename_i hk
      refine nodup_cons.mpr ⟨fun hm => ?_, ih hnd⟩
      rcases mem_retainRepointed hm with ⟨hm, -⟩ | ⟨rfl, -⟩
      · exact hf hm
      · simp [hreplacing] at hk
    · split
      · exact ih hnd
      · refine nodup_cons.mpr ⟨fun hm => ?_, ih hnd⟩
        rcases mem_retainRepointed hm with ⟨-, hfalse⟩ | ⟨-, hfalse⟩
        · rw [hreplacing] at hfalse
          cases hfalse
        · cases hfalse

theorem length_retainRepointed_le (xs : List Item) (isShown : Bool) :
    (retainRepointed isOld replacing xs isShown).1.length ≤ xs.length := by
  induction xs generalizing isShown with
  | nil => exact le_refl _
  | cons first xs ih =>
    unfold retainRepointed
    split
    · exact Nat.succ_le_succ (ih isShown)
    · split
      · exact le_trans (ih true) (Nat.le_succ _)
      · exact Nat.succ_le_succ (ih true)

theorem retainRepointed_ne_nil (h : xs ≠ []) : (retainRepointed isOld replacing xs false).1 ≠ [] := by
  obtain ⟨first, xs, rfl⟩ := exists_cons_of_ne_nil h
  unfold retainRepointed
  split <;> simp

theorem retainRepointed_append (fst snd : List Item) (isShown : Bool) :
    retainRepointed isOld replacing (fst ++ snd) isShown =
      ((retainRepointed isOld replacing fst isShown).1 ++
        (retainRepointed isOld replacing snd (retainRepointed isOld replacing fst isShown).2).1,
        (retainRepointed isOld replacing snd (retainRepointed isOld replacing fst isShown).2).2) := by
  induction fst generalizing isShown with
  | nil => rfl
  | cons item fst ih =>
    rw [cons_append, retainRepointed, retainRepointed]
    split
    · rw [ih]
      rfl
    · split
      · exact ih true
      · rw [ih]
        rfl

theorem map_retainRepointed {Key : Type} (key : Item → Key) (isOldKey : Key → Bool) (xs : List Item) (isShown : Bool) :
    (retainRepointed (fun item => isOldKey (key item)) replacing xs isShown).1.map key =
        (retainRepointed isOldKey (key replacing) (xs.map key) isShown).1 ∧
      (retainRepointed (fun item => isOldKey (key item)) replacing xs isShown).2 =
        (retainRepointed isOldKey (key replacing) (xs.map key) isShown).2 := by
  induction xs generalizing isShown with
  | nil => exact ⟨rfl, rfl⟩
  | cons item xs ih =>
    rw [map_cons]
    unfold retainRepointed
    split
    · exact ⟨by rw [map_cons, (ih isShown).1], (ih isShown).2⟩
    · split
      · exact ih true
      · exact ⟨by rw [map_cons, (ih true).1], (ih true).2⟩

end Repoint

theorem listPreviewIds_repointPreview (isOld : NotificationId → Bool) (latest : NotificationEntry) (pv : ToastPreview) :
    listPreviewIds (repointPreview isOld latest pv).1 =
        (retainRepointed isOld latest.notificationId (listPreviewIds pv) false).1 ∧
      (repointPreview isOld latest pv).2 =
        (retainRepointed isOld latest.notificationId (listPreviewIds pv) false).2 := by
  cases pv with
  | entry shownEntry =>
    by_cases hreplaced : isOld shownEntry.notificationId = true
    · simp [repointPreview, listPreviewIds, retainRepointed, hreplaced]
    · simp [repointPreview, listPreviewIds, retainRepointed, hreplaced]
  | summary sums => exact map_retainRepointed Prod.fst isOld sums false

theorem listPreviewedIds_repointPreviews (queue : NotificationToastQueue) (oldIds : List NotificationId)
    (latest : NotificationEntry) :
    (queue.repointPreviews oldIds latest).listPreviewedIds =
      (retainRepointed (isReplacedId oldIds latest) latest.notificationId queue.listPreviewedIds false).1 := by
  unfold listPreviewedIds repointPreviews
  generalize isReplacedId oldIds latest = isOld
  obtain ⟨hsh, hflag⟩ : ((queue.shownToast.map fun shownToast =>
        listPreviewIds (repointPreview isOld latest shownToast.preview).1).getD [] =
          (retainRepointed isOld latest.notificationId
            ((queue.shownToast.map fun shownToast => listPreviewIds shownToast.preview).getD []) false).1) ∧
      ((queue.shownToast.map fun shownToast => (repointPreview isOld latest shownToast.preview).2).getD false) =
        (retainRepointed isOld latest.notificationId
          ((queue.shownToast.map fun shownToast => listPreviewIds shownToast.preview).getD []) false).2 := by
    rcases queue.shownToast with _ | shownToast
    · exact ⟨rfl, rfl⟩
    · exact listPreviewIds_repointPreview isOld latest shownToast.preview
  have hsum : ∀ isShown, (((queue.waitingSummary.map fun ms =>
      (repointSummaryMembers isOld latest ms isShown).1).filter (· ≠ [])).getD []).map (·.1) =
        (retainRepointed isOld latest.notificationId ((queue.waitingSummary.getD []).map (·.1)) isShown).1 := by
    intro isShown
    rcases queue.waitingSummary with _ | ms
    · rfl
    · have hmap := (@map_retainRepointed _ (latest.notificationId, latest.severity) _ Prod.fst isOld ms isShown).1
      by_cases hnil : (repointSummaryMembers isOld latest ms isShown).1 = []
      · have hem : (retainRepointed (fun member : NotificationId × NotificationSeverity => isOld member.1)
          (latest.notificationId, latest.severity) ms isShown).1 = [] := hnil
        rw [hem] at hmap
        simp only [map_some, Option.filter, hnil, ne_eq, not_true_eq_false, decide_false, Bool.false_eq_true,
          if_false, getD_none, getD_some]
        exact hmap
      · simp only [map_some, Option.filter, hnil, ne_eq, not_false_eq_true, decide_true, if_true, getD_some]
        exact hmap
  simp only [Option.map_map, Function.comp_def]
  rw [hsh, hflag, retainRepointed_append, retainRepointed_append, hsum]
  rw [(map_retainRepointed (·.notificationId) isOld queue.waitingEntries _).1,
    (map_retainRepointed (·.notificationId) isOld queue.waitingEntries _).2]

/-- The previews of the entries that another one replaces in the history are mended by pointing at it. -/
theorem Sound.repointPreviews {oldIds : List NotificationId} {latest : NotificationEntry}
    (h : Sound (fun entry => entry.notificationId ∈ oldIds ∨ entryOk entry)
      (fun member => member.1 ∈ oldIds ∨ memberOk member) queue)
    (hreplacing : entryOk latest) (hmem : memberOk (latest.notificationId, latest.severity)) :
    Sound entryOk memberOk (queue.repointPreviews oldIds latest) := by
  have hids := listPreviewedIds_repointPreviews queue oldIds latest
  have hmembers : ∀ {sums : SummaryMembers} {isShown : Bool},
      (∀ member ∈ sums, member.1 ∈ oldIds ∨ memberOk member) →
      ∀ member ∈ (repointSummaryMembers (isReplacedId oldIds latest) latest sums isShown).1, memberOk member := by
    intro sums isShown hall member hm
    rcases mem_retainRepointed hm with ⟨hm, hk⟩ | ⟨rfl, -⟩
    · simp only [isReplacedId, Bool.or_eq_false_iff, decide_eq_false_iff_not] at hk
      exact (hall member hm).resolve_left hk.2
    · exact hmem
  refine ⟨?_, fun nextToast hm => ?_, fun entry hm => ?_, ?_, fun ms hm => ?_, fun hnone => ?_⟩
  · rw [hids]
    exact nodup_retainRepointed h.previewed (by simp [isReplacedId])
  · obtain ⟨shownToast, hsh, rfl⟩ := map_eq_some_iff.mp hm
    have hsn := h.shown shownToast hsh
    unfold PreviewSound at hsn ⊢
    rcases hpv : shownToast.preview with shownEntry | sums
    · rw [hpv] at hsn
      simp only [repointPreview]
      by_cases hreplaced : isReplacedId oldIds latest shownEntry.notificationId = true
      · rw [if_pos hreplaced]
        exact .inr hreplacing
      · rw [if_neg hreplaced]
        simp only [isReplacedId, Bool.or_eq_true, decide_eq_true_eq, not_or] at hreplaced
        rcases hsn with hgone | hin | hok
        · exact .inl hgone
        · exact absurd hin hreplaced.2
        · exact .inr hok
    · rw [hpv] at hsn
      exact ⟨retainRepointed_ne_nil hsn.1, hmembers hsn.2⟩
  · rcases mem_retainRepointed hm with ⟨hm, hk⟩ | ⟨rfl, -⟩
    · simp only [isReplacedId, Bool.or_eq_false_iff, decide_eq_false_iff_not] at hk
      exact (h.entries entry hm).resolve_left hk.2
    · exact hreplacing
  · exact le_trans (length_retainRepointed_le _ _) h.count
  · obtain ⟨hm, hne⟩ := filter_eq_some_iff.mp hm
    obtain ⟨sums, hsum, rfl⟩ := map_eq_some_iff.mp hm
    exact ⟨of_decide_eq_true hne, hmembers (h.summary sums hsum).2⟩
  · obtain ⟨hwaiting, hsum⟩ := h.nothingWaits (map_eq_none_iff.mp hnone)
    simp [NotificationToastQueue.repointPreviews, hwaiting, hsum, retainRepointed]

end NotificationToastQueue

end Koshi.Client
