import Koshi.Sessions.Consistency
import Koshi.Sessions.Proof.Areas

/-!
# What a clean consistency check says

A session without a violation, as facts about its areas and its clients: the areas own the registered panes, the
stored solves are the ones their trees give, and every reference of a client is live.
-/

namespace Koshi.Sessions

open Base Koshi.Core Layout List Option OrdMap FloatingPane Session FloatingSet

/-- The registries hold each record under its own id, as `attach_client` and `register_pane_record` insert it. -/
structure RegistriesKeyed (session : Session) : Prop where
  clientId_eq : ∀ {clientId client}, session.clients.get? clientId = some client → client.clientId = clientId
  paneId_eq : ∀ {paneId paneRecord}, session.panes.get? paneId = some paneRecord → paneRecord.paneId = paneId

theorem registriesKeyed_of_entries {session : Session}
    (hcls : ∀ entry ∈ session.clients.entries, entry.2.clientId = entry.1)
    (hpanes : ∀ entry ∈ session.panes.entries, entry.2.paneId = entry.1) : RegistriesKeyed session :=
  ⟨fun hcl => hcls _ ((mem_entries_iff ..).2 hcl), fun hrec => hpanes _ ((mem_entries_iff ..).2 hrec)⟩

structure Ownership (session : Session) : Prop where
  tabId_eq : ∀ {tabId tab}, session.tabs.get? tabId = some tab → tab.tabId = tabId
  nodup_floatingPaneIds : (session.floatingSet.map floatingPaneId).Nodup
  length_floatingSet_le : session.floatingSet.length ≤ maxFloatingPanesPerSession
  listPaneIds_ne_nil : ∀ floatingPane ∈ session.floatingSet, floatingPane.listPaneIds ≠ []
  owned : Owned session.areaPanes
  registered_iff : ∀ paneId, session.panes.contains paneId = true ↔ ∃ area, Holds session.areaPanes area paneId

theorem validateConsistency_eq_ok_iff (session : Session) :
    session.validateSessionConsistency = .ok () ↔ session.listConsistencyViolations = [] := by
  unfold validateSessionConsistency
  split_ifs with h
  · simp [h]
  · simp [h]

/-! ### Leaves and areas -/

section Leaves

variable (session : Session)

theorem holds_tab_iff (tabId : TabId) (paneId : PaneId) :
    Holds session.areaPanes (.tab tabId) paneId ↔
      ∃ tab, session.tabs.get? tabId = some tab ∧ paneId ∈ tab.listPaneIds := by
  simp only [Holds, areaPanes, map_eq_some_iff]
  constructor
  · rintro ⟨xs, ⟨tab, htab, rfl⟩, hm⟩
    exact ⟨tab, htab, hm⟩
  · rintro ⟨tab, htab, hm⟩
    exact ⟨_, ⟨tab, htab, rfl⟩, hm⟩

theorem holds_floatingPane_iff (floatId : FloatingPaneId) (paneId : PaneId) :
    Holds session.areaPanes (.floatingPane floatId) paneId ↔
      ∃ floatingPane, findFloatingPaneById session.floatingSet floatId = some floatingPane ∧
        paneId ∈ floatingPane.listPaneIds := by
  simp only [Holds, areaPanes, map_eq_some_iff]
  constructor
  · rintro ⟨xs, ⟨floatingPane, hfi, rfl⟩, hm⟩
    exact ⟨floatingPane, hfi, hm⟩
  · rintro ⟨floatingPane, hfi, hm⟩
    exact ⟨_, ⟨floatingPane, hfi, rfl⟩, hm⟩

theorem map_fst_listTabLeaves :
    session.listTabLeaves.map Prod.fst = session.tabs.entries.flatMap fun entry => entry.2.listPaneIds := by
  simp [listTabLeaves, values, map_flatMap, flatMap_map, Function.comp_def]

theorem map_fst_listFloatingLeaves :
    session.listFloatingLeaves.map Prod.fst = session.floatingSet.flatMap listPaneIds := by
  simp [listFloatingLeaves, map_flatMap, Function.comp_def]

/-- Leaves listed once each and never in two kinds of area give exclusive ownership. -/
theorem owned_of_nodup (htabs : (session.tabs.entries.flatMap fun entry => entry.2.listPaneIds).Nodup)
    (hflt : (session.floatingSet.flatMap listPaneIds).Nodup)
    (hdisj : ∀ paneId ∈ session.floatingSet.flatMap listPaneIds,
      paneId ∉ session.tabs.entries.flatMap fun entry => entry.2.listPaneIds) : Owned session.areaPanes := by
  have hkinds : ∀ {tabId floatId paneId}, Holds session.areaPanes (.tab tabId) paneId →
      ¬ Holds session.areaPanes (.floatingPane floatId) paneId := by
    intro tabId floatId paneId htab hfloat
    obtain ⟨tab, htab, hm⟩ := (holds_tab_iff ..).1 htab
    obtain ⟨floatingPane, hfi, hleaf⟩ := (holds_floatingPane_iff ..).1 hfloat
    refine hdisj paneId (mem_flatMap.2 ⟨floatingPane, findFloatingById_mem hfi, hleaf⟩) ?_
    exact mem_flatMap.2 ⟨(tabId, tab), (mem_entries_iff ..).2 htab, hm⟩
  constructor
  · intro ar xs harea
    cases ar with
    | tab tabId =>
      obtain ⟨tab, htab, rfl⟩ := map_eq_some_iff.1 harea
      exact (nodup_flatMap.1 htabs).1 (tabId, tab) ((mem_entries_iff ..).2 htab)
    | floatingPane floatId =>
      obtain ⟨floatingPane, hfi, rfl⟩ := map_eq_some_iff.1 harea
      exact (nodup_flatMap.1 hflt).1 floatingPane (findFloatingById_mem hfi)
  · intro fst snd paneId hf hse
    cases fst with
    | tab firstId =>
      cases snd with
      | tab secondId =>
        obtain ⟨firstTab, hf, hmemFst⟩ := (holds_tab_iff ..).1 hf
        obtain ⟨secondTab, hse, hmemSnd⟩ := (holds_tab_iff ..).1 hse
        have hentries : (firstId, firstTab) = (secondId, secondTab) := eq_of_mem_of_nodup_flatMap htabs
          ((mem_entries_iff ..).2 hf) ((mem_entries_iff ..).2 hse) hmemFst hmemSnd
        rw [(Prod.mk.inj hentries).1]
      | floatingPane secondId => exact absurd hse (hkinds hf)
    | floatingPane firstId =>
      cases snd with
      | tab secondId => exact absurd hf (hkinds hse)
      | floatingPane secondId =>
        obtain ⟨firstPane, hf, hmemFst⟩ := (holds_floatingPane_iff ..).1 hf
        obtain ⟨secondPane, hse, hmemSnd⟩ := (holds_floatingPane_iff ..).1 hse
        have hpanes : firstPane = secondPane := eq_of_mem_of_nodup_flatMap hflt
          (findFloatingById_mem hf) (findFloatingById_mem hse)
          hmemFst hmemSnd
        rw [← findFloatingById_id hf, hpanes, findFloatingById_id hse]

end Leaves

/-! ### A clean check -/

section Clean

variable {session : Session}

theorem validateTab_eq_nil {tabId : TabId} {tab : Tab} (h : session.validateTab (tabId, tab) = []) :
    tab.tabId = tabId ∧ (∀ paneId ∈ tab.listPaneIds, session.panes.contains paneId = true) ∧
      tab.layoutArea.layoutSolve = tab.layoutArea.computeLayoutSolve session.paneSizing ∧
      ∀ tabSize, session.resolveTabSolveSize tabId = some tabSize → tab.layoutArea.solvedSize = tabSize := by
  simp only [validateTab, append_eq_nil_iff, reportWhen_eq_nil_iff, flatMap_eq_nil_iff,
    decide_eq_false_iff_not, not_not, Bool.not_eq_eq_eq_not, Bool.not_false, mem_toList] at h
  obtain ⟨⟨⟨hkey, hlv⟩, hsolve⟩, hsize⟩ := h
  exact ⟨hkey.symm, hlv, hsolve.symm, fun tabSize hresolved => (hsize tabSize hresolved).symm⟩

variable {floatingPane : FloatingPane}

theorem validateFloating_eq_nil (h : session.validateFloatingPane floatingPane = []) :
    floatingPane.listPaneIds ≠ [] ∧
      floatingPane.layoutArea.solvedSize = computeFloatingLayoutSize floatingPane.solvedSize ∧
      floatingPane.layoutArea.layoutSolve = floatingPane.layoutArea.computeLayoutSolve session.paneSizing := by
  simp only [validateFloatingPane, append_eq_nil_iff, reportWhen_eq_nil_iff, decide_eq_false_iff_not,
    not_not, isEmpty_eq_false_iff] at h
  obtain ⟨⟨hlv, hsize⟩, hsolve⟩ := h
  exact ⟨hlv, hsize, hsolve.symm⟩

variable (hclean : session.listConsistencyViolations = [])

include hclean

theorem validateTab_of_clean {tabId : TabId} {tab : Tab} (htab : session.tabs.get? tabId = some tab) :
    session.validateTab (tabId, tab) = [] := by
  simp only [listConsistencyViolations, append_eq_nil_iff, flatMap_eq_nil_iff] at hclean
  exact hclean.1.1.1.1 (tabId, tab) ((mem_entries_iff ..).2 htab)

theorem validateFloating_of_clean (hm : floatingPane ∈ session.floatingSet) :
    session.validateFloatingPane floatingPane = [] := by
  simp only [listConsistencyViolations, validateFloatingSet, append_eq_nil_iff, flatMap_eq_nil_iff] at hclean
  exact hclean.1.1.2.1.1.2 floatingPane hm

theorem nodup_tabLeaves_of_clean : (session.tabs.entries.flatMap fun entry => entry.2.listPaneIds).Nodup := by
  simp only [listConsistencyViolations, validateTabClaims, append_eq_nil_iff,
    flatMap_eq_nil_iff, reportWhen_eq_nil_iff, decide_eq_false_iff_not, not_lt] at hclean
  rw [← map_fst_listTabLeaves]
  exact (nodup_iff_groupEntries _).2 hclean.1.1.1.2.2

theorem floatingSet_of_clean :
    session.floatingSet.length ≤ maxFloatingPanesPerSession ∧
      (session.floatingSet.map floatingPaneId).Nodup ∧
      (session.floatingSet.flatMap listPaneIds).Nodup := by
  simp only [listConsistencyViolations, validateFloatingSet, validateFloatingLeaf,
    append_eq_nil_iff, flatMap_eq_nil_iff, reportWhen_eq_nil_iff, decide_eq_false_iff_not,
    not_lt] at hclean
  obtain ⟨⟨⟨-, ⟨⟨hlen, -⟩, hids⟩, hlv⟩, -⟩, -⟩ := hclean
  refine ⟨hlen, ?_, ?_⟩
  · have hnd := (nodup_iff_groupEntries _).2 hids
    rwa [List.map_map] at hnd
  · rw [← map_fst_listFloatingLeaves]
    exact (nodup_iff_groupEntries _).2 fun group hgrp => (hlv group hgrp).1.2

theorem floatingLeaf_of_clean {paneId : PaneId} (hm : paneId ∈ session.floatingSet.flatMap listPaneIds) :
    session.panes.contains paneId = true ∧ paneId ∉ session.tabs.entries.flatMap fun entry => entry.2.listPaneIds := by
  simp only [listConsistencyViolations, validateFloatingSet, validateFloatingLeaf,
    append_eq_nil_iff, flatMap_eq_nil_iff, reportWhen_eq_nil_iff] at hclean
  rw [← map_fst_listFloatingLeaves, ← contains_groupEntries, contains_eq_true_iff] at hm
  obtain ⟨floatingPaneIds, hgrp⟩ := hm
  obtain ⟨⟨hreg, -⟩, hlayout⟩ :=
    hclean.1.1.2.2 (paneId, floatingPaneIds) ((mem_entries_iff ..).2 hgrp)
  refine ⟨by simpa using hreg, fun hleaf => ?_⟩
  rw [← map_fst_listTabLeaves, ← contains_groupEntries, contains_eq_true_iff] at hleaf
  obtain ⟨tabIds, htabIds⟩ := hleaf
  exact absurd (hlayout tabIds (by simpa using htabIds)) (cons_ne_nil _ _)

theorem paneRecord_of_clean {paneId : PaneId} {paneRecord : PaneRecord}
    (hrec : session.panes.get? paneId = some paneRecord) :
    (paneRecord.paneId ∈ session.tabs.entries.flatMap fun entry => entry.2.listPaneIds) ∨
      paneRecord.paneId ∈ session.floatingSet.flatMap listPaneIds := by
  simp only [listConsistencyViolations, validatePaneRecords, append_eq_nil_iff,
    flatMap_eq_nil_iff, reportWhen_eq_nil_iff, Bool.and_eq_false_iff] at hclean
  rw [← map_fst_listTabLeaves, ← map_fst_listFloatingLeaves, ← contains_groupEntries, ← contains_groupEntries]
  simpa using hclean.1.2 paneRecord ((mem_values_iff ..).2 ⟨paneId, hrec⟩)

/-- **A clean session owns its panes.** -/
theorem ownership_of_clean (hkeyed : RegistriesKeyed session) : Ownership session := by
  obtain ⟨hlen, hids, hflt⟩ := floatingSet_of_clean hclean
  refine ⟨fun htab => (validateTab_eq_nil (validateTab_of_clean hclean htab)).1, hids, hlen,
    fun floatingPane hm => (validateFloating_eq_nil (validateFloating_of_clean hclean hm)).1,
    owned_of_nodup session (nodup_tabLeaves_of_clean hclean) hflt
      fun paneId hm => (floatingLeaf_of_clean hclean hm).2, fun paneId => ⟨fun hreg => ?_, ?_⟩⟩
  · obtain ⟨paneRecord, hrec⟩ := (contains_eq_true_iff ..).1 hreg
    have hleaf := paneRecord_of_clean hclean hrec
    rw [hkeyed.paneId_eq hrec] at hleaf
    rcases hleaf with hleaf | hleaf
    · obtain ⟨⟨tabId, tab⟩, he, hm⟩ := mem_flatMap.1 hleaf
      exact ⟨.tab tabId, (holds_tab_iff ..).2 ⟨tab, (mem_entries_iff ..).1 he, hm⟩⟩
    · obtain ⟨floatingPane, hflt, hm⟩ := mem_flatMap.1 hleaf
      exact ⟨.floatingPane floatingPane.floatingPaneId, (holds_floatingPane_iff ..).2
        ⟨floatingPane, findFloatingById_of_mem hids hflt, hm⟩⟩
  · rintro ⟨ar, hhl⟩
    cases ar with
    | tab tabId =>
      obtain ⟨tab, htab, hm⟩ := (holds_tab_iff ..).1 hhl
      exact (validateTab_eq_nil (validateTab_of_clean hclean htab)).2.1 paneId hm
    | floatingPane floatId =>
      obtain ⟨floatingPane, hfi, hm⟩ := (holds_floatingPane_iff ..).1 hhl
      exact (floatingLeaf_of_clean hclean (mem_flatMap.2 ⟨floatingPane, findFloatingById_mem hfi, hm⟩)).1

end Clean

/-! ### A sample -/

/-- Two tabs, the first split between two panes and viewed by one client. -/
def twoTabSession : Session where
  sessionId := ⟨0⟩
  tabs := (empty.insert ⟨0⟩ (Tab.fromLayoutTree ⟨0⟩ "first" 0
      (.split ⟨.horizontal, [.pane ⟨0⟩, .pane ⟨1⟩], [.default, .default], 0⟩) ⟨80, 22⟩ .default)).insert ⟨1⟩
    (Tab.fromLayoutTree ⟨1⟩ "second" 1 (.pane ⟨2⟩) ⟨80, 22⟩ .default)
  floatingSet := []
  panes := ((empty.insert ⟨0⟩ ⟨⟨0⟩, none, none⟩).insert ⟨1⟩ ⟨⟨1⟩, none, none⟩).insert ⟨2⟩ ⟨⟨2⟩, none, none⟩
  clients := empty.insert ⟨0⟩ ((Client.fromAttachment ⟨0⟩ ⟨0⟩ ⟨80, 24⟩ none ⟨0⟩).updateFocusedPane ⟨0⟩ ⟨0⟩)
  paneSizing := .default
  lifecycle := .running

theorem twoTabSession_keyed : RegistriesKeyed twoTabSession := registriesKeyed_of_entries (by decide) (by decide)

theorem twoTabSession_clean : twoTabSession.validateSessionConsistency = .ok () := by decide

end Koshi.Sessions
