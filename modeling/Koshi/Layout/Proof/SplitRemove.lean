import Mathlib.Tactic
import Koshi.Layout.Proof.Canonical
import Koshi.Layout.Proof.Edit

/-!
# Putting a pane in and taking it out again

A split or a stack edit changes one node of the tree. Removing the new pane undoes the change inside that node, up to
a split of one child, and normalization sees no difference between such a split and the child.
-/

namespace Koshi.Layout

open Koshi.Core List Option LayoutNode

variable {layoutNode node restNode t : LayoutNode} {path : List Nat} {livePaneIds : List PaneId} {newId : PaneId}

/-! ### One edited node -/

namespace LayoutNode

theorem findStackDepth_isStack {layoutNode : LayoutNode} {path depths : List Nat} {stackDepth : Nat}
    (hfo : layoutNode.findStackDepth path depths = some (some stackDepth)) :
    ∃ sp, layoutNode.getNodeAtPath (path.take stackDepth) = some (.split sp) ∧ sp.direction = .stacked := by
  induction depths with
  | nil => cases hfo
  | cons depth depths ih =>
    rw [findStackDepth, List.findM?] at hfo
    cases hno : layoutNode.getNodeAtPath (path.take depth) with
    | none =>
      rw [hno] at hfo
      cases hfo
    | some node =>
      rw [hno, map_some, bind_eq_bind, bind_some] at hfo
      cases hisStack : node.isStack with
      | false =>
        rw [hisStack] at hfo
        exact ih hfo
      | true =>
        rw [hisStack] at hfo
        obtain rfl : depth = stackDepth := Option.some.inj (Option.some.inj hfo)
        cases node with
        | pane paneId => cases hisStack
        | split sp => exact ⟨sp, hno, of_decide_eq_true hisStack⟩

theorem IsNormal.getNodeAtPath {layoutNode node : LayoutNode} (h : layoutNode.IsNormal) {path : List Nat}
    (hno : layoutNode.getNodeAtPath path = some node) : node.IsNormal := by
  induction path generalizing layoutNode with
  | nil =>
    obtain rfl : layoutNode = node := by simpa [LayoutNode.getNodeAtPath] using hno
    exact h
  | cons splitIndex path ih =>
    cases h with
    | pane paneId => simp [LayoutNode.getNodeAtPath] at hno
    | split sp _ _ _ _ _ childrenNormal =>
      rw [LayoutNode.getNodeAtPath] at hno
      cases hg : sp.children[splitIndex]? with
      | none =>
        rw [hg] at hno
        cases hno
      | some child =>
        rw [hg] at hno
        exact ih (childrenNormal child (mem_of_getElem? hg)) hno

end LayoutNode

/-! ### Removing the new pane -/

variable {paneId : PaneId}

theorem removeLeaf_of_not_mem (h : paneId ∉ layoutNode.listLeafPaneIds) :
    removeLeaf paneId layoutNode = .paneNotFound := by
  have hspec := removeLeaf_spec paneId layoutNode
  cases hrm : removeLeaf paneId layoutNode with
  | paneNotFound => rfl
  | removed editedNode =>
    rw [hrm] at hspec
    exact absurd hspec.1 h
  | subtreeEmpty =>
    rw [hrm] at hspec
    exact absurd (by rw [hspec]; exact mem_singleton_self paneId) h

theorem removeLeafInChildren_skip {before : List LayoutNode} (hb : paneId ∉ before.flatMap listLeafPaneIds)
    (index : Nat) (rest : List LayoutNode) :
    removeLeafInChildren paneId index (before ++ rest) =
      match removeLeafInChildren paneId (index + before.length) rest with
      | .removed editedRest => .removed (before ++ editedRest)
      | other => other := by
  induction before generalizing index with
  | nil =>
    rw [nil_append, length_nil, Nat.add_zero]
    cases removeLeafInChildren paneId index rest <;> rfl
  | cons other before ih =>
    rw [flatMap_cons, mem_append, not_or] at hb
    rw [cons_append, removeLeafInChildren, removeLeaf_of_not_mem hb.1]
    dsimp only
    rw [ih hb.2 (index + 1), length_cons, show index + 1 + before.length = index + (before.length + 1) by omega]
    cases removeLeafInChildren paneId (index + (before.length + 1)) rest <;> rfl

variable {edit : LayoutNode → LayoutNode}

/-- **Removing a pane that an edit put into one node undoes the edit there**: the tree becomes the one with that node
as the removal leaves it. -/
theorem removeLeaf_editNodeAtPath {layoutNode node restNode : LayoutNode} (hnew : paneId ∉ layoutNode.listLeafPaneIds)
    (hno : layoutNode.getNodeAtPath path = some node) (hrm : removeLeaf paneId (edit node) = .removed restNode) :
    ∃ ed restTree, layoutNode.editNodeAtPath edit path = some ed ∧
      removeLeaf paneId ed = .removed restTree ∧
      layoutNode.editNodeAtPath (fun _ => restNode) path = some restTree := by
  induction path generalizing layoutNode with
  | nil =>
    obtain rfl : layoutNode = node := by simpa [getNodeAtPath] using hno
    exact ⟨edit layoutNode, restNode, by simp [editNodeAtPath], hrm,
      by simp [editNodeAtPath]⟩
  | cons splitIndex path ih =>
    cases layoutNode with
    | pane layoutPaneId => simp [getNodeAtPath] at hno
    | split sp =>
      rw [getNodeAtPath] at hno
      cases hg : sp.children[splitIndex]? with
      | none =>
        rw [hg] at hno
        cases hno
      | some child =>
        rw [hg] at hno
        obtain ⟨hlt, hch⟩ := List.getElem?_eq_some_iff.1 hg
        have hsp : sp.children = sp.children.take splitIndex ++ child :: sp.children.drop (splitIndex + 1) := by
          rw [← hch, cons_getElem_drop_succ, take_append_drop]
        rw [listLeafPaneIds_split, hsp, flatMap_append, flatMap_cons, mem_append, mem_append, not_or, not_or] at hnew
        obtain ⟨hb, hchildNew, -⟩ := hnew
        obtain ⟨editedChild, restoredChild, hed, hrv, hrest⟩ := ih hchildNew hno
        refine ⟨_, .split { sp with children := sp.children.set splitIndex restoredChild },
          by rw [editNodeAtPath, hg]; dsimp only; rw [hed, map_some], ?_,
          by rw [editNodeAtPath, hg]; dsimp only; rw [hrest, map_some]⟩
        rw [set_eq_take_append_cons_drop, if_pos hlt, set_eq_take_append_cons_drop, if_pos hlt, removeLeaf,
          removeLeafInChildren_skip hb 0, removeLeafInChildren, hrv]

/-! ### Normalization sees a subtree only through its result -/

theorem normalizeChildren_set {weights : List SizeWeight} {index i : Nat} {children : List LayoutNode}
    {child otherChild : LayoutNode} (hg : children[i]? = some child)
    (hs : normalizeLayoutTree livePaneIds otherChild = normalizeLayoutTree livePaneIds child) :
    normalizeChildren livePaneIds weights index (children.set i otherChild) =
      normalizeChildren livePaneIds weights index children := by
  induction children generalizing index i with
  | nil => simp at hg
  | cons head children ih =>
    cases i with
    | zero =>
      obtain rfl : head = child := by simpa using hg
      rw [set_cons_zero, normalizeChildren, normalizeChildren, hs]
    | succ i =>
      rw [set_cons_succ, normalizeChildren, normalizeChildren, ih (by simpa using hg)]

theorem normalizeTree_editNodeAtPath {restTree : LayoutNode} (hno : layoutNode.getNodeAtPath path = some node)
    (hrest : layoutNode.editNodeAtPath (fun _ => restNode) path = some restTree)
    (hs : normalizeLayoutTree livePaneIds restNode = normalizeLayoutTree livePaneIds node) :
    normalizeLayoutTree livePaneIds restTree = normalizeLayoutTree livePaneIds layoutNode := by
  induction path generalizing layoutNode restTree with
  | nil =>
    obtain rfl : layoutNode = node := by simpa [getNodeAtPath] using hno
    obtain rfl : restNode = restTree := by simpa [editNodeAtPath] using hrest
    exact hs
  | cons splitIndex path ih =>
    cases layoutNode with
    | pane paneId => simp [getNodeAtPath] at hno
    | split sp =>
      rw [getNodeAtPath] at hno
      rw [editNodeAtPath] at hrest
      cases hg : sp.children[splitIndex]? with
      | none =>
        rw [hg] at hno
        cases hno
      | some child =>
        rw [hg] at hno hrest
        obtain ⟨restoredChild, hch, rfl⟩ := map_eq_some_iff.1 hrest
        obtain ⟨dir, children, weights, activeChildIndex⟩ := sp
        rw [normalizeLayoutTree, normalizeLayoutTree, normalizeChildren_set hg (ih hno hch)]

theorem normalizeTree_singleChild {dir : SplitDirection} (hno : normalizeLayoutTree livePaneIds node = some (some node))
    (hoperand : ∀ inner, node = .split inner → inner.direction = .stacked) (weights : List SizeWeight)
    (activeChildIndex : Nat) :
    normalizeLayoutTree livePaneIds (.split ⟨dir, [node], weights, activeChildIndex⟩) = some (some node) := by
  rw [normalizeLayoutTree, normalizeChildren, hno]
  simp only [normalizeChildren, map_some, buildNormalizedSplit]
  rw [if_neg (by simp)]
  by_cases hsk : dir = .stacked
  · rw [if_pos hsk]
  · have hsum : computeMergeableWeightSum dir ⟨node, canonicalizeSizeWeight (weights.getD 0 .default), 0⟩ = none := by
      unfold computeMergeableWeightSum
      cases node with
      | pane paneId => rfl
      | split inner =>
        dsimp only
        rw [if_pos]
        left
        rw [hoperand inner rfl]
        exact fun heq => hsk heq.symm
    rw [if_neg hsk]
    simp only [mergeSameDirection, map_cons, map_nil, hsum, getD_none]
    rfl

/-! ### The round trips -/

/-- When removing the new pane leaves the edited node with the old one's leaves and normalization, the whole round
trip gives the tree back. -/
theorem removePaneAndNormalize_editNodeAtPath (hnormal : t.IsNormal) (hleaf : t.listLeafPaneIds ≠ [])
    (hnew : newId ∉ t.listLeafPaneIds) (hno : t.getNodeAtPath path = some node)
    (hrm : removeLeaf newId (edit node) = .removed restNode) (hlv : restNode.listLeafPaneIds = node.listLeafPaneIds)
    (hs : normalizeLayoutTree t.listLeafPaneIds restNode = normalizeLayoutTree t.listLeafPaneIds node) :
    ∃ ed, t.editNodeAtPath edit path = some ed ∧ removePaneAndNormalize ed newId = some (.ok t) := by
  obtain ⟨ed, restTree, hed, hrv, hrest⟩ := removeLeaf_editNodeAtPath hnew hno hrm
  have hrestLeaves : restTree.listLeafPaneIds = t.listLeafPaneIds := by
    obtain ⟨before, after, htr, hedit⟩ := getNodeAtPath_leaves hno
    obtain ⟨other, ho, hotherLeaves⟩ := hedit fun _ => restNode
    rw [hrest] at ho
    rw [Option.some.inj ho, hotherLeaves, hlv, htr]
  have hnormalize := normalizeTree_editNodeAtPath hno hrest hs
  rw [hnormal.normalizeLayoutTree_eq fun paneId hpa => contains_iff_mem.2 hpa] at hnormalize
  refine ⟨ed, hed, ?_⟩
  rw [removePaneAndNormalize, removePane, hrv]
  dsimp only
  rw [if_neg (by rw [hrestLeaves]; exact hleaf)]
  dsimp only
  rw [hrestLeaves, hnormalize]
  rfl

theorem removeLeaf_buildOperandSplit (hnew : newId ∉ node.listLeafPaneIds)
    (dir : Direction) : removeLeaf newId (buildOperandSplit newId dir node) =
      .removed (.split ⟨computeSplitDirection dir, [node], [.default], 0⟩) := by
  have hno := removeLeaf_of_not_mem hnew
  have hpa : removeLeaf newId (.pane newId) = .subtreeEmpty := if_pos rfl
  cases dir <;>
    simp [buildOperandSplit, SplitNode.withEqualWeights, removeLeaf, removeLeafInChildren, hno, dropEmptiedChild,
      setActiveChildAfterRemoval, SplitNode.getActiveChildIndex]

theorem removeLeaf_appendStackMembers {sp : SplitNode LayoutNode} (hnew : newId ∉ (split sp).listLeafPaneIds)
    (hlengths : sp.weights.length = sp.children.length) (hact : sp.activeChildIndex < sp.children.length) :
    removeLeaf newId (appendStackMembers [newId] (.split sp)) = .removed (.split sp) := by
  obtain ⟨dir, children, weights, activeChildIndex⟩ := sp
  dsimp only at hlengths hact
  rw [listLeafPaneIds_split] at hnew
  have hpa : removeLeaf newId (.pane newId) = .subtreeEmpty := if_pos rfl
  have hem : removeLeafInChildren newId 0 (children ++ [.pane newId]) = .childEmpty children.length := by
    rw [removeLeafInChildren_skip hnew, removeLeafInChildren, hpa, Nat.zero_add]
  have hcs : (children ++ [pane newId]).eraseIdx children.length = children := by
    rw [eraseIdx_append_of_length_le (Nat.le_refl _), Nat.sub_self]
    simp
  have hws : (weights ++ [SizeWeight.default]).eraseIdx children.length = weights := by
    rw [← hlengths, eraseIdx_append_of_length_le (Nat.le_refl _), Nat.sub_self]
    simp
  have hne : children ≠ [] := length_pos_iff.1 (by omega)
  simp only [appendStackMembers, map_cons, map_nil, length_singleton, replicate_one, removeLeaf,
    hem, dropEmptiedChild, hcs, hws]
  rw [if_neg hne]
  have hclamped : min activeChildIndex (children.length - 1) = activeChildIndex := Nat.min_eq_left (by omega)
  simp only [setActiveChildAfterRemoval, SplitNode.getActiveChildIndex]
  rw [if_neg (by omega), hclamped]

/-- A tree that some normalization gives. -/
def LayoutNode.IsNormalized (tree : LayoutNode) : Prop :=
  ∃ livePaneIds sourceTree, normalizeLayoutTree livePaneIds sourceTree = some (some tree)

/-- **Splitting a leaf of a normalized tree and removing the new pane gives the tree back.** -/
theorem splitLeaf_roundTrip (hnormal : t.IsNormal) {targetId : PaneId} (htgt : targetId ∈ t.listLeafPaneIds)
    (hnew : newId ∉ t.listLeafPaneIds) (dir : Direction) :
    ∃ ed, splitLeaf t targetId newId dir = some (.ok ed) ∧ removePaneAndNormalize ed newId = some (.ok t) := by
  obtain ⟨panePath, hpath⟩ := isSome_iff_exists.1 (findPanePath_isSome htgt)
  have hleaf := getNodeAtPath_findPanePath hpath
  obtain ⟨found, hfo, -⟩ := findStackDepth_spec hleaf (List.range panePath.length)
  -- the operand is a stack or the leaf
  have hoperand : ∃ node, t.getNodeAtPath (panePath.take (found.getD panePath.length)) = some node ∧
      ∀ inner, node = .split inner → inner.direction = .stacked := by
    cases found with
    | none =>
      rw [getD_none, take_length]
      exact ⟨_, hleaf, fun inner heq => by cases heq⟩
    | some depth =>
      obtain ⟨sp, hno, hsk⟩ := findStackDepth_isStack hfo
      refine ⟨_, hno, fun inner heq => ?_⟩
      obtain rfl := split.inj heq
      exact hsk
  obtain ⟨node, hno, hsk⟩ := hoperand
  obtain ⟨before, after, hlv, -⟩ := getNodeAtPath_leaves hno
  have hbelow : ∀ paneId ∈ node.listLeafPaneIds, paneId ∈ t.listLeafPaneIds := by
    intro paneId hpa
    rw [hlv]
    exact mem_append_left _ (mem_append_right _ hpa)
  have hfixed := (hnormal.getNodeAtPath hno).normalizeLayoutTree_eq
    fun paneId hpa => contains_iff_mem.2 (hbelow paneId hpa)
  obtain ⟨ed, hed, hrv⟩ := removePaneAndNormalize_editNodeAtPath hnormal (ne_nil_of_mem htgt) hnew hno
    (removeLeaf_buildOperandSplit (fun hm => hnew (hbelow _ hm)) dir) (by simp)
    ((normalizeTree_singleChild hfixed hsk _ _).trans hfixed.symm)
  refine ⟨ed, ?_, hrv⟩
  simp only [splitLeaf, hpath, hfo, bind_eq_bind, bind_some, hed]

/-- **Stacking a pane onto a leaf of a normalized tree and removing it gives the tree back.** -/
theorem addPanesToStack_roundTrip (hnormal : t.IsNormal) {anchorId : PaneId} (hanc : anchorId ∈ t.listLeafPaneIds)
    (hnew : newId ∉ t.listLeafPaneIds) :
    ∃ ed, addPanesToStack t anchorId [newId] = some (.ok ed) ∧ removePaneAndNormalize ed newId = some (.ok t) := by
  obtain ⟨panePath, hpath⟩ := isSome_iff_exists.1 (findPanePath_isSome hanc)
  have hleaf := getNodeAtPath_findPanePath hpath
  obtain ⟨found, hfo, -⟩ := findStackDepth_spec hleaf (List.range panePath.length).reverse
  have hpa : t.hasPane anchorId = true := (hasPane_iff_mem _ _).2 hanc
  cases found with
  | some depth =>
    obtain ⟨sp, hno, hsk⟩ := findStackDepth_isStack hfo
    obtain ⟨before, after, hlv, -⟩ := getNodeAtPath_leaves hno
    have hnewNode : newId ∉ (split sp).listLeafPaneIds := by
      intro hm
      rw [hlv] at hnew
      exact hnew (mem_append_left _ (mem_append_right _ hm))
    have hparts : sp.weights.length = sp.children.length ∧ sp.activeChildIndex < sp.children.length := by
      cases hnormal.getNodeAtPath hno with
      | split _ _ lengths _ active =>
        rw [if_pos hsk] at active
        exact ⟨lengths, active⟩
    obtain ⟨ed, hed, hrv⟩ := removePaneAndNormalize_editNodeAtPath hnormal
      (ne_nil_of_mem hanc) hnew hno (removeLeaf_appendStackMembers hnewNode hparts.1 hparts.2) rfl rfl
    refine ⟨ed, ?_, hrv⟩
    simp [addPanesToStack, hpa, hpath, hfo, hed]
  | none =>
    have hne : newId ≠ anchorId := fun heq => hnew (heq ▸ hanc)
    have hrm : removeLeaf newId (.split (.fromStackedPaneIds [anchorId, newId] 0)) =
        .removed (.split ⟨.stacked, [.pane anchorId], [.default], 0⟩) := by
      simp [SplitNode.fromStackedPaneIds, removeLeaf, removeLeafInChildren, hne.symm, dropEmptiedChild,
        setActiveChildAfterRemoval, SplitNode.getActiveChildIndex]
    have hfixed : normalizeLayoutTree t.listLeafPaneIds (.pane anchorId) = some (some (.pane anchorId)) := by
      rw [normalizeLayoutTree, if_pos (contains_iff_mem.2 hanc)]
    obtain ⟨ed, hed, hrv⟩ := @removePaneAndNormalize_editNodeAtPath _ _ _ _ _
      (fun _ => .split (.fromStackedPaneIds [anchorId, newId] 0)) hnormal (ne_nil_of_mem hanc) hnew hleaf
      hrm (by simp)
      ((normalizeTree_singleChild hfixed (fun inner heq => by cases heq) _ _).trans hfixed.symm)
    refine ⟨ed, ?_, hrv⟩
    simp [addPanesToStack, hpa, hpath, hfo, hed]

/-- **Putting a pane into a normalized tree and removing it again is the identity**: by a split in any direction, and
by stacking. -/
theorem splitLeaf_addPanesToStack_roundTrip (tree : LayoutNode) (target newId : PaneId) (direction : Direction)
    (hnormalized : tree.IsNormalized) (htarget : target ∈ tree.listLeafPaneIds) (hnew : newId ∉ tree.listLeafPaneIds) :
    (∃ edited, splitLeaf tree target newId direction = some (.ok edited) ∧
      removePaneAndNormalize edited newId = some (.ok tree)) ∧
    ∃ edited, addPanesToStack tree target [newId] = some (.ok edited) ∧
      removePaneAndNormalize edited newId = some (.ok tree) := by
  obtain ⟨livePaneIds, sourceTree, hnormalize⟩ := hnormalized
  have hnormal := normalizeTree_isNormal livePaneIds sourceTree tree hnormalize
  exact ⟨splitLeaf_roundTrip hnormal htarget hnew direction, addPanesToStack_roundTrip hnormal htarget hnew⟩

/-- A pane below a stack in a row, put in beside and onto one of the members. -/
theorem splitLeaf_addPanesToStack_roundTrip_stackInRow :
    (∃ edited, splitLeaf (.split ⟨.horizontal, [.pane ⟨1⟩,
        .split ⟨.stacked, [.pane ⟨2⟩, .pane ⟨3⟩], [.default, .default], 1⟩], [.default, .default], 0⟩) ⟨3⟩ ⟨4⟩ .left =
        some (.ok edited) ∧
      removePaneAndNormalize edited ⟨4⟩ = some (.ok (.split ⟨.horizontal, [.pane ⟨1⟩,
        .split ⟨.stacked, [.pane ⟨2⟩, .pane ⟨3⟩], [.default, .default], 1⟩], [.default, .default], 0⟩))) := by
  refine (splitLeaf_addPanesToStack_roundTrip _ ⟨3⟩ ⟨4⟩ .left ⟨[⟨1⟩, ⟨2⟩, ⟨3⟩], .split ⟨.horizontal, [.pane ⟨1⟩,
    .split ⟨.stacked, [.pane ⟨2⟩, .pane ⟨3⟩], [.default, .default], 1⟩], [.default, .default], 0⟩, rfl⟩ ?_ ?_).1
  · decide
  · decide

end Koshi.Layout
