import Koshi.Layout.Proof.SplitRemove

/-!
# Runs of tree edits

What a tab's tree holds after any sequence of splits, stackings and removals: the panes a list holds that is edited the
same way, in a tree that the solver takes. An edit that errs leaves the tree alone, and none panics.
-/

namespace Koshi.Layout

open Koshi.Core List Option LayoutNode

variable {t nd ed : LayoutNode} {path : List Nat}

/-! ### Trees without a leafless split -/

namespace LayoutNode

theorem IsNormal.hasNoLeaflessSplit (h : t.IsNormal) : t.hasNoLeaflessSplit = true := by
  induction h with
  | pane paneId => rfl
  | split splitNode twoChildren _ _ _ _ _ ih =>
    refine (hasNoLeaflessSplit_split _).2 ⟨fun hnil => ?_, ih⟩
    obtain ⟨child, hm⟩ := exists_mem_of_length_pos (Nat.lt_of_lt_of_le Nat.zero_lt_two twoChildren)
    exact listLeafPaneIds_ne_nil (ih child hm) (flatMap_eq_nil_iff.1 hnil child hm)

/-- Editing one node into a tree without a leafless split leaves none in the whole tree. -/
theorem hasNoLeaflessSplit_editNodeAtPath {edit : LayoutNode → LayoutNode} (hgood : t.hasNoLeaflessSplit = true)
    (hno : t.getNodeAtPath path = some nd) (hnd : nd.hasNoLeaflessSplit = true → (edit nd).hasNoLeaflessSplit = true)
    (hed : t.editNodeAtPath edit path = some ed) : ed.hasNoLeaflessSplit = true := by
  induction path generalizing t ed with
  | nil =>
    obtain rfl : t = nd := by simpa [getNodeAtPath] using hno
    obtain rfl : edit t = ed := by simpa [editNodeAtPath] using hed
    exact hnd hgood
  | cons i path ih =>
    cases t with
    | pane paneId => simp [getNodeAtPath] at hno
    | split sp =>
      rw [getNodeAtPath] at hno
      rw [editNodeAtPath] at hed
      cases hg : sp.children[i]? with
      | none =>
        rw [hg] at hno
        cases hno
      | some child =>
        rw [hg] at hno hed
        obtain ⟨editedChild, heditedChild, rfl⟩ := map_eq_some_iff.1 hed
        obtain ⟨hleaves, hcs⟩ := (hasNoLeaflessSplit_split _).1 hgood
        have hch := ih (hcs child (mem_of_getElem? hg)) hno heditedChild
        have hset : ∀ other ∈ sp.children.set i editedChild, other.hasNoLeaflessSplit = true := fun other hm => by
          rcases mem_or_eq_of_mem_set hm with hm | rfl
          · exact hcs other hm
          · exact hch
        refine (hasNoLeaflessSplit_split _).2 ⟨fun hnil => ?_, hset⟩
        have hm : editedChild ∈ sp.children.set i editedChild := mem_set (List.getElem?_eq_some_iff.1 hg).1 editedChild
        exact listLeafPaneIds_ne_nil hch (flatMap_eq_nil_iff.1 hnil editedChild hm)

end LayoutNode

/-! ### One edit -/

theorem listLeafPaneIds_buildOperandSplit (newId : PaneId) (dir : Direction) (nd : LayoutNode) :
    (buildOperandSplit newId dir nd).listLeafPaneIds.Perm (newId :: nd.listLeafPaneIds) := by
  cases dir with
  | left | up => simp [buildOperandSplit, SplitNode.withEqualWeights]
  | right | down => simp [buildOperandSplit, SplitNode.withEqualWeights]

theorem hasNoLeaflessSplit_buildOperandSplit (newId : PaneId) (dir : Direction)
    (hgood : nd.hasNoLeaflessSplit = true) : (buildOperandSplit newId dir nd).hasNoLeaflessSplit = true := by
  refine (hasNoLeaflessSplit_split _).2 ⟨fun hnil => ?_, ?_⟩
  · have hperm := listLeafPaneIds_buildOperandSplit newId dir nd
    unfold buildOperandSplit at hperm
    rw [listLeafPaneIds_split, hnil] at hperm
    exact cons_ne_nil _ _ hperm.nil_eq.symm
  · cases dir <;> simp [SplitNode.withEqualWeights, hgood, LayoutNode.hasNoLeaflessSplit]

theorem splitLeaf_spec {target : PaneId} (hm : target ∈ t.listLeafPaneIds) (hgood : t.hasNoLeaflessSplit = true)
    (newId : PaneId) (dir : Direction) : ∃ ed, splitLeaf t target newId dir = some (.ok ed) ∧
      ed.listLeafPaneIds.Perm (newId :: t.listLeafPaneIds) ∧ ed.hasNoLeaflessSplit = true := by
  obtain ⟨panePath, hpath⟩ := isSome_iff_exists.1 (findPanePath_isSome hm)
  have hleaf := getNodeAtPath_findPanePath hpath
  obtain ⟨found, hfo, -⟩ := findStackDepth_spec hleaf (List.range panePath.length)
  obtain ⟨nd, hno⟩ := getNodeAtPath_take hleaf (found.getD panePath.length)
  obtain ⟨before, after, hlv, hedit⟩ := getNodeAtPath_leaves hno
  obtain ⟨ed, hed, heditedLeaves⟩ := hedit (buildOperandSplit newId dir)
  refine ⟨ed, by simp [splitLeaf, hpath, hfo, hed], ?_, hasNoLeaflessSplit_editNodeAtPath hgood hno
    (hasNoLeaflessSplit_buildOperandSplit newId dir) hed⟩
  rw [heditedLeaves, hlv]
  exact (((listLeafPaneIds_buildOperandSplit newId dir nd).append_left before).append_right after).trans (by simp)

theorem hasNoLeaflessSplit_addPanesToStack {anchor : PaneId} {newPaneIds : List PaneId}
    (hgood : t.hasNoLeaflessSplit = true) (h : addPanesToStack t anchor newPaneIds = some (.ok ed)) :
    ed.hasNoLeaflessSplit = true := by
  unfold addPanesToStack at h
  split_ifs at h with hmiss hem
  · cases h
  · cases h
    exact hgood
  · cases hpath : t.findPanePath anchor with
    | none => simp [hpath] at h
    | some panePath =>
      have hleaf := getNodeAtPath_findPanePath hpath
      obtain ⟨found, hfo, hstk⟩ := findStackDepth_spec hleaf (List.range panePath.length).reverse
      simp only [hpath, bind, Option.bind, hfo] at h
      cases found with
      | some stackDepth =>
        obtain ⟨sp, hno⟩ := hstk stackDepth rfl
        obtain ⟨_, _, _, hedit⟩ := getNodeAtPath_leaves hno
        obtain ⟨ed', hed, -⟩ := hedit (appendStackMembers newPaneIds)
        simp only [hed] at h
        cases h
        refine hasNoLeaflessSplit_editNodeAtPath hgood hno (fun hsp => ?_) hed
        obtain ⟨hleaves, hcs⟩ := (hasNoLeaflessSplit_split _).1 hsp
        refine (hasNoLeaflessSplit_split _).2 ⟨by simp [hleaves], fun child hm => ?_⟩
        rcases mem_append.1 hm with hm | hm
        · exact hcs child hm
        · obtain ⟨paneId, -, rfl⟩ := mem_map.1 hm
          rfl
      | none =>
        obtain ⟨_, _, _, hedit⟩ := getNodeAtPath_leaves hleaf
        obtain ⟨ed', hed, -⟩ := hedit fun _ => .split (.fromStackedPaneIds (anchor :: newPaneIds) 0)
        simp only [hed] at h
        cases h
        refine hasNoLeaflessSplit_editNodeAtPath hgood hleaf (fun _ => ?_) hed
        refine (hasNoLeaflessSplit_split _).2 ⟨by simp [SplitNode.fromStackedPaneIds], fun child hm => ?_⟩
        obtain ⟨paneId, -, rfl⟩ := mem_map.1 hm
        rfl

theorem hasNoLeaflessSplit_removePane {paneId : PaneId} (h : removePaneAndNormalize t paneId = some (.ok ed)) :
    ed.hasNoLeaflessSplit = true := by
  have hspec := removePane_spec t paneId
  unfold removePaneAndNormalize at h
  cases hrm : removePane t paneId with
  | error removeError =>
    rw [hrm] at h
    cases h
  | ok removed =>
    rw [hrm] at h hspec
    obtain ⟨normalized, hnormalized, -⟩ := normalizeTree_self hspec.2.1
    simp only [hnormalized] at h
    cases h
    exact (normalizeTree_isNormal _ _ _ hnormalized).hasNoLeaflessSplit

/-- Distinct leaves and no leafless split, as the solver asks for. -/
structure LayoutNode.IsSolvable (t : LayoutNode) : Prop where
  nodup : t.listLeafPaneIds.Nodup
  good : t.hasNoLeaflessSplit = true

/-- One edit of a tab's tree. -/
inductive LayoutEdit where
  | split (target newId : PaneId) (direction : Direction)
  | stack (anchor : PaneId) (newPaneIds : List PaneId)
  | remove (paneId : PaneId)

namespace LayoutEdit

/-- The tree after the edit. -/
def run (tree : LayoutNode) : LayoutEdit → Option LayoutNode
  | split target newId direction =>
    (splitLeaf tree target newId direction).map (·.toOption.getD tree)
  | stack anchor newPaneIds => (addPanesToStack tree anchor newPaneIds).map (·.toOption.getD tree)
  | remove paneId => (removePaneAndNormalize tree paneId).map (·.toOption.getD tree)

/-- What the edit means for a list of panes. -/
def edit (paneIds : List PaneId) : LayoutEdit → List PaneId
  | split target newId _ => if target ∈ paneIds then newId :: paneIds else paneIds
  | stack anchor newPaneIds => if anchor ∈ paneIds then newPaneIds ++ paneIds else paneIds
  | remove paneId => if paneIds.length = 1 then paneIds else paneIds.erase paneId

def newPaneIds : LayoutEdit → List PaneId
  | split _ newId _ => [newId]
  | stack _ newPaneIds => newPaneIds
  | remove _ => []

theorem perm_edit {paneIds others : List PaneId} (h : paneIds.Perm others) (edit' : LayoutEdit) :
    (edit'.edit paneIds).Perm (edit'.edit others) := by
  cases edit' with
  | split target newId direction =>
    simp only [edit, h.mem_iff]
    split_ifs
    · exact h.cons newId
    · exact h
  | stack anchor newPaneIds =>
    simp only [edit, h.mem_iff]
    split_ifs
    · exact h.append_left newPaneIds
    · exact h
  | remove paneId =>
    simp only [edit, h.length_eq]
    split_ifs
    · exact h
    · exact h.erase paneId

theorem mem_edit {paneIds : List PaneId} {edit' : LayoutEdit} {paneId : PaneId} (hm : paneId ∈ edit'.edit paneIds) :
    paneId ∈ edit'.newPaneIds ++ paneIds := by
  cases edit' with
  | split target newId direction =>
    rw [edit] at hm
    split_ifs at hm
    · exact hm
    · exact mem_append_right _ hm
  | stack anchor newPaneIds =>
    rw [edit] at hm
    split_ifs at hm
    · exact hm
    · exact mem_append_right _ hm
  | remove leavingPaneId =>
    rw [edit] at hm
    split_ifs at hm
    · exact hm
    · exact mem_of_mem_erase hm

/-- **One edit** keeps the tree solvable and does to its leaves what it means for a list. -/
theorem run_spec (ht : t.IsSolvable) {edit' : LayoutEdit} (hnew : (edit'.newPaneIds ++ t.listLeafPaneIds).Nodup) :
    ∃ ed, edit'.run t = some ed ∧ ed.IsSolvable ∧ ed.listLeafPaneIds.Perm (edit'.edit t.listLeafPaneIds) := by
  cases edit' with
  | split target newId dir =>
    by_cases hm : target ∈ t.listLeafPaneIds
    · obtain ⟨ed, hed, hperm, hgood⟩ := splitLeaf_spec hm ht.good newId dir
      refine ⟨ed, by rw [run, hed]; rfl, ⟨hperm.nodup_iff.2 hnew, hgood⟩, ?_⟩
      rwa [edit, if_pos hm]
    · have hnone : t.findPanePath target = none := by
        by_contra hsome
        obtain ⟨panePath, hpath⟩ := ne_none_iff_exists'.1 hsome
        obtain ⟨before, after, hlv, -⟩ := getNodeAtPath_leaves (getNodeAtPath_findPanePath hpath)
        exact hm (by rw [hlv]; simp)
      refine ⟨t, by rw [run, splitLeaf, hnone]; rfl, ht, ?_⟩
      rw [edit, if_neg hm]
  | stack anchor newPaneIds =>
    by_cases hm : anchor ∈ t.listLeafPaneIds
    · obtain ⟨ed, hed, hperm⟩ := addPanesToStack_leaves ((hasPane_iff_mem _ _).2 hm) newPaneIds
      have hperm := hperm.trans perm_append_comm
      refine ⟨ed, by rw [run, hed]; rfl, ⟨hperm.nodup_iff.2 hnew, hasNoLeaflessSplit_addPanesToStack ht.good hed⟩, ?_⟩
      rwa [edit, if_pos hm]
    · have hmiss : t.hasPane anchor = false := by
        rw [Bool.eq_false_iff, ne_eq, hasPane_iff_mem]
        exact hm
      refine ⟨t, by rw [run, addPanesToStack, hmiss]; rfl, ht, ?_⟩
      rw [edit, if_neg hm]
  | remove paneId =>
    obtain ⟨result, hremove, hspec⟩ := removePaneAndNormalize_spec t paneId
    cases result with
    | error removeError =>
      refine ⟨t, by rw [run, hremove]; rfl, ht, ?_⟩
      rw [edit]
      split_ifs with hlen
      · rfl
      · cases removeError with
        | paneNotFound errorPaneId => rw [erase_of_not_mem hspec.2]
        | lastPane errorPaneId => exact absurd (by rw [hspec.2]; rfl) hlen
    | ok ed =>
      obtain ⟨hm, hne, hlv⟩ := hspec
      refine ⟨ed, by rw [run, hremove]; rfl, ⟨?_, hasNoLeaflessSplit_removePane hremove⟩, ?_⟩
      · rw [hlv]
        exact ht.nodup.erase paneId
      · have hlen : t.listLeafPaneIds.length ≠ 1 := fun hlen => hne (by
          rw [hlv, ← length_eq_zero_iff, length_erase_of_mem hm, hlen])
        rw [edit, if_neg hlen, hlv]

end LayoutEdit

/-- **Edits keep a tab's tree solvable.** Whatever splits, stackings and removals a tree goes through, with panes that
are new to it, no edit panics, and the tree stays one the solver takes: distinct leaves, which are the panes a list
holds that is edited the same way, and no leafless split. -/
theorem layoutEdits_keep_solvable (edits : List LayoutEdit) (tree : LayoutNode) (hgood : tree.hasNoLeaflessSplit = true)
    (hnew : (edits.flatMap LayoutEdit.newPaneIds ++ tree.listLeafPaneIds).Nodup) :
    ∃ edited, edits.foldlM LayoutEdit.run tree = some edited ∧ edited.listLeafPaneIds.Nodup ∧
      edited.hasNoLeaflessSplit = true ∧
      edited.listLeafPaneIds.Perm (edits.foldl LayoutEdit.edit tree.listLeafPaneIds) := by
  suffices h : ∀ paneIds, tree.listLeafPaneIds.Perm paneIds → ∃ edited,
      edits.foldlM LayoutEdit.run tree = some edited ∧ edited.IsSolvable ∧
        edited.listLeafPaneIds.Perm (edits.foldl LayoutEdit.edit paneIds) by
    obtain ⟨edited, hrun, hsolvable, hperm⟩ := h _ (.refl _)
    exact ⟨edited, hrun, hsolvable.nodup, hsolvable.good, hperm⟩
  induction edits generalizing tree with
  | nil => exact fun paneIds hperm => ⟨tree, rfl, ⟨hnew, hgood⟩, hperm⟩
  | cons edit' edits ih =>
    intro paneIds hperm
    rw [flatMap_cons, append_assoc] at hnew
    obtain ⟨hnewHere, hrest, hdisj⟩ := nodup_append.1 hnew
    obtain ⟨ed, hrun, hsolvable, hed⟩ := LayoutEdit.run_spec ⟨(nodup_append.1 hrest).2.1, hgood⟩
      (hnew.sublist ((sublist_append_right _ _).append_left edit'.newPaneIds))
    -- what an edit leaves is among the panes before it and its new ones
    have hamong : ∀ paneId ∈ ed.listLeafPaneIds, paneId ∈ edit'.newPaneIds ++ tree.listLeafPaneIds :=
      fun paneId hm => LayoutEdit.mem_edit (hed.mem_iff.1 hm)
    have hnew' : (edits.flatMap LayoutEdit.newPaneIds ++ ed.listLeafPaneIds).Nodup := by
      refine nodup_append.2 ⟨(nodup_append.1 hrest).1, hsolvable.nodup, fun paneId hlater other hm heq => ?_⟩
      subst heq
      rcases mem_append.1 (hamong paneId hm) with hm | hm
      · exact hdisj paneId hm paneId (mem_append_left _ hlater) rfl
      · exact (nodup_append.1 hrest).2.2 paneId hlater paneId hm rfl
    obtain ⟨edited, hedited, hrest⟩ := ih ed hsolvable.good hnew' (edit'.edit paneIds)
      (hed.trans (LayoutEdit.perm_edit hperm edit'))
    exact ⟨edited, by rw [foldlM_cons, hrun]; exact hedited, hrest⟩

/-- A pane is split, a pane is stacked onto the new one, and the first leaves. -/
theorem layoutEdits_keep_solvable_stack : ∃ edited,
    [.split ⟨0⟩ ⟨1⟩ .right, .stack ⟨1⟩ [⟨2⟩], .remove ⟨0⟩].foldlM LayoutEdit.run (.pane ⟨0⟩) = some edited ∧
      edited.listLeafPaneIds.Nodup ∧ edited.hasNoLeaflessSplit = true ∧ edited.listLeafPaneIds.Perm [⟨2⟩, ⟨1⟩] :=
  layoutEdits_keep_solvable _ _ rfl (by decide)

end Koshi.Layout
