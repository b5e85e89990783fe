import Mathlib.Tactic
import Mathlib.Data.List.Sort
import Koshi.Layout.Placement
import Koshi.Layout.Proof.Edit

/-!
# Placements keep the panes

A placement that is carried out holds exactly the panes of the trees it was given, and its destination tree fits
the rectangle it was checked against. The anchor is validated before the source leaf is removed and looked up
again after it; a node with another leaf survives the removal, so the second lookup finds it.
-/

namespace Koshi.Layout

open Koshi.Core List Option LayoutNode

/-! ### Leaf sets -/

theorem sortPaneIds_eq_iff (fst second : List PaneId) : sortPaneIds fst = sortPaneIds second ↔ fst.Perm second := by
  constructor
  · intro heq
    have hf := mergeSort_perm fst fun a b => decide (a.uuid ≤ b.uuid)
    have hse := mergeSort_perm second fun a b => decide (a.uuid ≤ b.uuid)
    unfold sortPaneIds at heq
    rw [heq] at hf
    exact hf.symm.trans hse
  · intro hperm
    have hsrt : ∀ ps : List PaneId, (sortPaneIds ps).Pairwise (fun a b => a.uuid ≤ b.uuid) := by
      intro ps
      have := @List.pairwise_mergeSort _ (fun a b : PaneId => decide (a.uuid ≤ b.uuid))
        (by intro a b c; simp only [decide_eq_true_eq]; omega)
        (by intro a b; simp only [Bool.or_eq_true, decide_eq_true_eq]; omega) ps
      simpa [sortPaneIds] using this
    refine List.Perm.eq_of_pairwise ?_ (hsrt fst) (hsrt second) ?_
    · rintro ⟨a⟩ ⟨b⟩ - - hab hba
      simp only at hab hba
      rw [Nat.le_antisymm hab hba]
    · exact ((mergeSort_perm _ _).trans hperm).trans (mergeSort_perm _ _).symm

theorem hasLeafSet_sortPaneIds (ps : List PaneId) (nd : LayoutNode) :
    hasLeafSet (sortPaneIds ps) nd = true ↔ nd.listLeafPaneIds.Perm ps := by
  unfold hasLeafSet
  rw [decide_eq_true_eq, sortPaneIds_eq_iff]
  constructor
  · exact fun h => h.2
  · intro hperm
    refine ⟨?_, hperm⟩
    rw [hperm.length_eq]
    exact (mergeSort_perm ps _).length_eq.symm

theorem findSplitInSubtree_split (wanted : List PaneId) (nd : SplitNode LayoutNode) :
    findSplitInSubtree wanted (.split nd) =
      if hasLeafSet wanted (.split nd) then some []
      else findSplitInChildren wanted 0 nd.children := rfl

variable {wanted : List PaneId} {nodePath : List Nat}

theorem findSplitInChildren_some {place : Nat} {children : List LayoutNode}
    (hfi : findSplitInChildren wanted place children = some nodePath) :
    ∃ index child path, nodePath = (place + index) :: path ∧ children[index]? = some child ∧
      findSplitInSubtree wanted child = some path := by
  induction children generalizing place with
  | nil => simp [findSplitInChildren] at hfi
  | cons child children ih =>
    rw [findSplitInChildren] at hfi
    cases hch : findSplitInSubtree wanted child with
    | some path =>
      rw [hch] at hfi
      exact ⟨0, child, path, (Option.some.inj hfi).symm, rfl, hch⟩
    | none =>
      rw [hch] at hfi
      obtain ⟨index, other, path, hpath, hg, ho⟩ := ih hfi
      refine ⟨index + 1, other, path, ?_, by simpa using hg, ho⟩
      rw [hpath, Nat.add_right_comm, Nat.add_assoc]

theorem findSplitInSubtree_node {layoutNode : LayoutNode} (hfi : findSplitInSubtree wanted layoutNode = some nodePath) :
    ∃ node, layoutNode.getNodeAtPath nodePath = some node ∧ hasLeafSet wanted node = true := by
  induction layoutNode generalizing nodePath with
  | pane paneId =>
    rw [findSplitInSubtree] at hfi
    split at hfi
    · next hset =>
      obtain rfl : [] = nodePath := Option.some.inj hfi
      exact ⟨.pane paneId, by simp [getNodeAtPath], hset⟩
    · simp at hfi
  | split splitNode ih =>
    rw [findSplitInSubtree_split] at hfi
    split at hfi
    · next hset =>
      obtain rfl : [] = nodePath := Option.some.inj hfi
      exact ⟨.split splitNode, by simp [getNodeAtPath], hset⟩
    · obtain ⟨index, child, path, rfl, hg, hch⟩ := findSplitInChildren_some hfi
      rw [Nat.zero_add, getNodeAtPath, hg]
      exact ih child (mem_of_getElem? hg) hch

theorem findSplitInChildren_isSome {children : List LayoutNode}
    (hcs : ∃ child ∈ children, (findSplitInSubtree wanted child).isSome) (place : Nat) :
    (findSplitInChildren wanted place children).isSome := by
  induction children generalizing place with
  | nil => simp at hcs
  | cons child children ih =>
    rw [findSplitInChildren]
    cases hch : findSplitInSubtree wanted child with
    | some path => rfl
    | none =>
      refine ih ?_ (place + 1)
      obtain ⟨other, hm, ho⟩ := hcs
      rcases mem_cons.1 hm with rfl | hm
      · rw [hch] at ho
        simp at ho
      · exact ⟨other, hm, ho⟩

theorem findSplitInSubtree_isSome {nd layoutNode : LayoutNode} (hsub : LayoutNode.Subnode nd layoutNode)
    (hset : hasLeafSet wanted nd = true) :
    (findSplitInSubtree wanted layoutNode).isSome := by
  induction hsub with
  | self =>
    cases nd with
    | pane paneId => simp [findSplitInSubtree, hset]
    | split splitNode => simp [findSplitInSubtree_split, hset]
  | inChild mem _ ih =>
    rw [findSplitInSubtree_split]
    split_ifs
    · rfl
    · exact findSplitInChildren_isSome ⟨_, mem, ih⟩ 0

/-! ### Anchors -/

/-- What a validated anchor names in the tree it was checked against. -/
def PanePlacementAnchor.NamesIn (tree : LayoutNode) (sourcePaneId : PaneId) : PanePlacementAnchor → Prop
  | .tab => True
  | .pane anchorId => anchorId ≠ sourcePaneId ∧ anchorId ∈ tree.listLeafPaneIds
  | .group groupIds => (∃ paneId ∈ groupIds, paneId ≠ sourcePaneId) ∧
      ∃ node, LayoutNode.Subnode node tree ∧ node.listLeafPaneIds.Perm groupIds

variable {anchor : PanePlacementAnchor} {sid : PaneId}

theorem findAnchorPath_namesIn {dt : LayoutNode} {anchorPath : List Nat}
    (hfi : findAnchorPath dt sid anchor = .ok anchorPath) :
    anchor.NamesIn dt sid ∧ ∃ node, dt.getNodeAtPath anchorPath = some node := by
  cases anchor with
  | tab =>
    obtain rfl : [] = anchorPath := Except.ok.inj hfi
    exact ⟨trivial, dt, by simp [getNodeAtPath]⟩
  | pane anchorId =>
    rw [findAnchorPath] at hfi
    split at hfi
    · simp at hfi
    · next hne =>
      split at hfi
      · simp at hfi
      · next panePath hpath =>
        obtain rfl := Except.ok.inj hfi
        have hno := getNodeAtPath_findPanePath hpath
        have hleaf := (subnode_of_getNodeAtPath hno).leaves_subset
        exact ⟨⟨hne, hleaf (by simp)⟩, _, hno⟩
  | group groupIds =>
    rw [findAnchorPath, findGroupAnchorPath] at hfi
    split at hfi
    · simp at hfi
    · split at hfi
      · simp at hfi
      · split at hfi
        · simp at hfi
        · next hall =>
          split at hfi
          · simp at hfi
          · next nodePath hpath =>
            obtain rfl := Except.ok.inj hfi
            obtain ⟨node, hno, hset⟩ := findSplitInSubtree_node hpath
            refine ⟨⟨?_, node, subnode_of_getNodeAtPath hno, (hasLeafSet_sortPaneIds _ _).1 hset⟩, node, hno⟩
            simpa using hall

theorem findOutermostStackAbove_isSome {tree nd : LayoutNode} (hno : tree.getNodeAtPath nodePath = some nd) :
    ∃ stackPaneIds, findOutermostStackAbove tree nodePath = some stackPaneIds := by
  obtain ⟨found, hfo, hstk⟩ := findStackDepth_spec hno (List.range nodePath.length)
  unfold findOutermostStackAbove
  simp only [bind, Option.bind, hfo]
  cases found with
  | none => exact ⟨none, rfl⟩
  | some stackDepth =>
    obtain ⟨sp, hsplitNode⟩ := hstk stackDepth rfl
    simp only
    rw [hsplitNode]
    exact ⟨_, rfl⟩

theorem validateAnchor_spec (dt : LayoutNode) (sid : PaneId) (anchor : PanePlacementAnchor) :
    ∃ result, validatePlacementAnchor dt sid anchor = some result ∧ (result = .ok () → anchor.NamesIn dt sid) := by
  unfold validatePlacementAnchor
  cases hfi : findAnchorPath dt sid anchor with
  | error refusal => exact ⟨.error refusal, rfl, by simp⟩
  | ok anchorPath =>
    obtain ⟨hnames, node, hno⟩ := findAnchorPath_namesIn hfi
    obtain ⟨stackPaneIds, hstk⟩ := findOutermostStackAbove_isSome hno
    simp only
    rw [hstk]
    exact ⟨_, rfl, fun _ => hnames⟩

/-- What an anchor must name in the tree that receives `newNode`. -/
def PanePlacementAnchor.ResolvesIn (tree newNode : LayoutNode) : PanePlacementAnchor → Prop
  | .tab => True
  | .pane anchorId => anchorId ∈ tree.listLeafPaneIds
  | .group groupIds => ∃ node, LayoutNode.Subnode node tree ∧
      node.listLeafPaneIds.Perm (groupIds.filter fun groupId => !newNode.hasPane groupId)

theorem PanePlacementAnchor.NamesIn.resolvesIn_removeLeaf {tree removed : LayoutNode} (hnames : anchor.NamesIn tree sid)
    (hnd : tree.listLeafPaneIds.Nodup) (hrm : removeLeaf sid tree = .removed removed) :
    anchor.ResolvesIn removed (.pane sid) := by
  have hspec := removeLeaf_spec sid tree
  rw [hrm] at hspec
  cases anchor with
  | tab => trivial
  | pane anchorId =>
    obtain ⟨hne, hm⟩ := hnames
    rw [PanePlacementAnchor.ResolvesIn, hspec.2]
    exact (mem_erase_of_ne hne).2 hm
  | group groupIds =>
    obtain ⟨⟨j, ho, hne⟩, node, hsub, hperm⟩ := hnames
    obtain ⟨survivingNode, hsurviving, hlv⟩ := hsub.removeLeaf hnd ⟨j, hperm.symm.subset ho, hne⟩ hrm
    refine ⟨survivingNode, hsurviving, ?_⟩
    have hgroupNodup : groupIds.Nodup := hperm.nodup_iff.1 (hsub.nodup hnd)
    have hfilter : (groupIds.filter fun groupId => !(LayoutNode.pane sid).hasPane groupId) = groupIds.erase sid := by
      rw [hgroupNodup.erase_eq_filter]
      apply filter_congr
      intro groupId _
      simp [hasPane, bne, Bool.beq_comm]
    rw [hlv, hfilter]
    exact hperm.erase sid

theorem PanePlacementAnchor.NamesIn.resolvesIn_disjoint {tree inserted : LayoutNode} (hnames : anchor.NamesIn tree sid)
    (hdisj : ∀ paneId ∈ tree.listLeafPaneIds, paneId ∉ inserted.listLeafPaneIds) :
    anchor.ResolvesIn tree inserted := by
  cases anchor with
  | tab => trivial
  | pane anchorId => exact hnames.2
  | group groupIds =>
    obtain ⟨-, nd, hsub, hperm⟩ := hnames
    refine ⟨nd, hsub, ?_⟩
    rwa [filter_eq_self.2]
    intro groupId hm
    have := hdisj groupId (hsub.leaves_subset (hperm.symm.subset hm))
    rw [← hasPane_iff_mem] at this
    simpa using this

/-! ### Insertions and stacks -/

variable {tree : LayoutNode}

theorem normalizeAllLeaves_leaves (hleaf : tree.listLeafPaneIds ≠ []) :
    ∃ normalized, normalizeAllLeaves tree = some normalized ∧ normalized.listLeafPaneIds = tree.listLeafPaneIds := by
  obtain ⟨normalized, hnormalized, hlv⟩ := normalizeTree_self hleaf
  refine ⟨normalized, ?_, hlv⟩
  unfold normalizeAllLeaves
  rw [hnormalized]
  rfl

theorem splitBesideAnchor_leaves (inserted : LayoutNode) (dir : Direction) (anchorSubtree : LayoutNode) :
    (splitBesideAnchor inserted dir anchorSubtree).listLeafPaneIds.Perm
      (anchorSubtree.listLeafPaneIds ++ inserted.listLeafPaneIds) := by
  cases dir <;> simp [splitBesideAnchor, SplitNode.withEqualWeights, perm_append_comm]

/-- The panes the anchor spans in the tree that receives `newNode`. -/
def PanePlacementAnchor.listSpanPaneIds (tree newNode : LayoutNode) : PanePlacementAnchor → List PaneId
  | .tab => tree.listLeafPaneIds
  | .pane anchorId => [anchorId]
  | .group groupIds => groupIds.filter fun groupId => !newNode.hasPane groupId

theorem findInsertionPath_of_resolvesIn {dt inserted : LayoutNode} (hresolves : anchor.ResolvesIn dt inserted) :
    ∃ anchorPath node, findInsertionPath dt inserted anchor = some anchorPath ∧
      dt.getNodeAtPath anchorPath = some node ∧
      node.listLeafPaneIds.Perm (anchor.listSpanPaneIds dt inserted) := by
  cases anchor with
  | tab => exact ⟨[], dt, rfl, by simp [getNodeAtPath], .refl _⟩
  | pane anchorId =>
    obtain ⟨anchorPath, hpath⟩ := isSome_iff_exists.1 (findPanePath_isSome hresolves)
    exact ⟨anchorPath, _, hpath, getNodeAtPath_findPanePath hpath, .refl _⟩
  | group groupIds =>
    obtain ⟨groupNode, hsub, hperm⟩ := hresolves
    obtain ⟨anchorPath, hpath⟩ := isSome_iff_exists.1
      (findSplitInSubtree_isSome hsub ((hasLeafSet_sortPaneIds _ _).2 hperm))
    obtain ⟨node, hno, hset⟩ := findSplitInSubtree_node hpath
    exact ⟨anchorPath, node, hpath, hno, (hasLeafSet_sortPaneIds _ _).1 hset⟩

theorem insertNodeBesideAnchor_leaves {dt inserted : LayoutNode} (hresolves : anchor.ResolvesIn dt inserted)
    (hleaf : inserted.listLeafPaneIds ≠ []) (dir : Direction) :
    ∃ grown, insertLayoutNodeBesideAnchor dt inserted anchor dir = some grown ∧
      grown.listLeafPaneIds.Perm (dt.listLeafPaneIds ++ inserted.listLeafPaneIds) := by
  obtain ⟨anchorPath, node, hpath, hno, -⟩ := findInsertionPath_of_resolvesIn hresolves
  obtain ⟨before, after, hlv, hedit⟩ := getNodeAtPath_leaves hno
  obtain ⟨ed, hed, heditedLeaves⟩ := hedit (splitBesideAnchor inserted dir)
  have hperm : ed.listLeafPaneIds.Perm (dt.listLeafPaneIds ++ inserted.listLeafPaneIds) := by
    rw [heditedLeaves, hlv]
    refine (((splitBesideAnchor_leaves inserted dir node).append_left before).append_right after).trans ?_
    simp only [append_assoc]
    exact (perm_append_comm.append_left _).append_left _
  have hne : ed.listLeafPaneIds ≠ [] := by
    intro hnil
    rw [hnil] at hperm
    exact hleaf (append_eq_nil_iff.1 hperm.symm.eq_nil).2
  obtain ⟨norm, hnormalized, hleaves⟩ := normalizeAllLeaves_leaves hne
  refine ⟨norm, ?_, by rw [hleaves]; exact hperm⟩
  unfold insertLayoutNodeBesideAnchor
  simp only [bind, Option.bind, hpath, hed, hnormalized]

theorem stackPanesOntoTarget_leaves (tree : LayoutNode) (sourceIds : List PaneId) (target : PaneId) :
    (target ∉ tree.listLeafPaneIds ∧ stackPanesOntoTarget tree sourceIds target =
        some (.error (.targetPaneNotFound target))) ∨
      ∃ stacked, stackPanesOntoTarget tree sourceIds target = some (.ok stacked) ∧
        stacked.listLeafPaneIds.Perm (tree.listLeafPaneIds ++ sourceIds) := by
  by_cases htgt : target ∈ tree.listLeafPaneIds
  · right
    obtain ⟨stacked, hsk, hperm⟩ := addPanesToStack_leaves ((hasPane_iff_mem _ _).2 htgt) sourceIds
    have hne : stacked.listLeafPaneIds ≠ [] := by
      intro hnil
      rw [hnil] at hperm
      rw [(append_eq_nil_iff.1 hperm.symm.eq_nil).1] at htgt
      simp at htgt
    obtain ⟨norm, hnormalized, hleaves⟩ := normalizeAllLeaves_leaves hne
    refine ⟨norm, ?_, by rw [hleaves]; exact hperm⟩
    unfold stackPanesOntoTarget
    simp only [bind, Option.bind, hsk, hnormalized]
  · left
    refine ⟨htgt, ?_⟩
    have hnot : tree.hasPane target = false := by
      rw [← hasPane_iff_mem] at htgt
      simpa using htgt
    unfold stackPanesOntoTarget addPanesToStack
    rw [hnot]
    rfl

/-! ### The placements -/

theorem validateLayoutFit_ok {tree result : LayoutNode} {tabRc : Rect} {sz : PaneSizing}
    (hfit : validateLayoutFit tree tabRc sz = .ok result) :
    result = tree ∧ isLayoutWithinRect result tabRc sz = true := by
  unfold validateLayoutFit at hfit
  split at hfit
  · simp at hfit
  · next hw =>
    obtain rfl := Except.ok.inj hfit
    exact ⟨rfl, by simpa using hw⟩

theorem swapLeaves_leaves {sid target : PaneId} {sourcePath targetPath : List Nat}
    (hsr : tree.findPanePath sid = some sourcePath) (htgt : tree.findPanePath target = some targetPath)
    (hne : target ≠ sid) :
    ∃ swapped, swapLeaves tree sourcePath targetPath sid target = some swapped ∧
      swapped.listLeafPaneIds.Perm tree.listLeafPaneIds := by
  have hsrcNode := getNodeAtPath_findPanePath hsr
  have htargetNode := getNodeAtPath_findPanePath htgt
  have hpaths : sourcePath ≠ targetPath := by
    rintro rfl
    rw [hsrcNode] at htargetNode
    exact hne (pane.inj (Option.some.inj htargetNode)).symm
  obtain ⟨before, after, hlv, hedit⟩ := getNodeAtPath_leaves hsrcNode
  obtain ⟨firstTree, hf, hfstLeaves⟩ := hedit fun _ => .pane target
  obtain ⟨secondBefore, secondAfter, hsndLeaves, hsndEdit⟩ := getNodeAtPath_leaves
    (getNodeAtPath_editNodeAtPath_leaf hsrcNode htargetNode hpaths hf)
  obtain ⟨swapped, hswp, hswapLeaves⟩ := hsndEdit fun _ => .pane sid
  refine ⟨swapped, by simp only [swapLeaves, bind, Option.bind, hf, hswp], ?_⟩
  -- both edits turn one leaf into another, so what is left beside the two leaves is the same
  have hmid : ∀ (before after : List PaneId) (paneId : PaneId),
      (before ++ (pane paneId).listLeafPaneIds ++ after).Perm (paneId :: (before ++ after)) := by
    intro before after paneId
    rw [listLeafPaneIds_pane, append_assoc, singleton_append]
    exact perm_middle
  have hr : (secondBefore ++ secondAfter).Perm (before ++ after) := by
    refine List.Perm.cons_inv (a := target) ((hmid _ _ _).symm.trans ?_)
    rw [← hsndLeaves, hfstLeaves]
    exact hmid before after target
  rw [hswapLeaves, hlv]
  exact (hmid _ _ _).trans ((hr.cons sid).trans (hmid _ _ _).symm)

/-- The placements `placePaneWithinTree` answers without a check of the rectangle: a pane swapped or stacked with
itself, and the only pane of a tree inserted beside the tab. -/
def IsUncheckedPlacement (tree : LayoutNode) (sourcePaneId : PaneId) (target : PlacementTarget)
    (placed : LayoutNode) : Prop :=
  (placed = tree ∧ (target = .swap sourcePaneId ∨ target = .stack sourcePaneId)) ∨
    (placed = .pane sourcePaneId ∧ tree.listLeafPaneIds = [sourcePaneId] ∧ ∃ dir, target = .insert .tab dir)

theorem placePaneWithinTree_leaves (hnd : tree.listLeafPaneIds.Nodup) (sid : PaneId) (target : PlacementTarget)
    (ar : Rect) (sz : PaneSizing) :
    ∃ outcome, placePaneWithinTree tree sid target ar sz = some outcome ∧
      ∀ placed, outcome = .ok placed → placed.listLeafPaneIds.Perm tree.listLeafPaneIds ∧
        (isLayoutWithinRect placed ar sz = true ∨ IsUncheckedPlacement tree sid target placed) := by
  -- a tree with the same leaves that is then checked
  have hchecked : ∀ ed : LayoutNode, ed.listLeafPaneIds.Perm tree.listLeafPaneIds →
      ∀ placed, validateLayoutFit ed ar sz = .ok placed →
        placed.listLeafPaneIds.Perm tree.listLeafPaneIds ∧
          (isLayoutWithinRect placed ar sz = true ∨ IsUncheckedPlacement tree sid target placed) := by
    intro ed hperm placed hfit
    obtain ⟨rfl, hw⟩ := validateLayoutFit_ok hfit
    exact ⟨hperm, Or.inl hw⟩
  unfold placePaneWithinTree
  cases hsr : tree.findPanePath sid with
  | none => exact ⟨_, rfl, by simp⟩
  | some sourcePath =>
    have hsrcMem : sid ∈ tree.listLeafPaneIds :=
      (subnode_of_getNodeAtPath (getNodeAtPath_findPanePath hsr)).leaves_subset (by simp)
    have hremove := removeLeaf_spec sid tree
    have hpermErase : (tree.listLeafPaneIds.erase sid ++ [sid]).Perm tree.listLeafPaneIds :=
      (perm_append_singleton _ _).trans (perm_cons_erase hsrcMem).symm
    cases target with
    | swap targetId =>
      simp only
      split_ifs with hself
      · subst hself
        refine ⟨_, rfl, ?_⟩
        rintro placed ⟨⟩
        exact ⟨List.Perm.refl _, Or.inr (Or.inl ⟨rfl, Or.inl rfl⟩)⟩
      · cases htgt : tree.findPanePath targetId with
        | none => exact ⟨_, rfl, by simp⟩
        | some targetPath =>
          obtain ⟨swapped, hswp, hperm⟩ := swapLeaves_leaves hsr htgt hself
          simp only [bind, Option.bind, hswp]
          exact ⟨_, rfl, hchecked swapped hperm⟩
    | insert anchor dir =>
      obtain ⟨result, hcheck, hnames⟩ := validateAnchor_spec tree sid anchor
      simp only [bind, Option.bind, hcheck]
      cases result with
      | error refusal => exact ⟨_, rfl, by simp⟩
      | ok _ =>
        have hnames := hnames rfl
        cases hrm : removeLeaf sid tree with
        | paneNotFound =>
          rw [hrm] at hremove
          exact absurd hsrcMem hremove
        | subtreeEmpty =>
          rw [hrm] at hremove
          have honly : tree.listLeafPaneIds = [sid] := hremove
          refine ⟨_, rfl, ?_⟩
          rintro placed ⟨⟩
          refine ⟨by rw [honly, listLeafPaneIds_pane], Or.inr (Or.inr ⟨rfl, honly, dir, ?_⟩)⟩
          -- an anchor that names another pane needs one in the tree
          cases anchor with
          | tab => rfl
          | pane anchorId =>
            obtain ⟨hne, hm⟩ := hnames
            rw [honly, mem_singleton] at hm
            exact absurd hm hne
          | group groupIds =>
            obtain ⟨⟨j, ho, hne⟩, node, hsub, hperm⟩ := hnames
            have hm := hsub.leaves_subset (hperm.symm.subset ho)
            rw [honly, mem_singleton] at hm
            exact absurd hm hne
        | removed removedTree =>
          rw [hrm] at hremove
          obtain ⟨grown, hins, hperm⟩ := insertNodeBesideAnchor_leaves
            (hnames.resolvesIn_removeLeaf hnd hrm) (by simp) dir
          simp only [hins]
          refine ⟨_, rfl, hchecked grown ?_⟩
          rw [hremove.2, listLeafPaneIds_pane] at hperm
          exact hperm.trans hpermErase
    | stack targetId =>
      simp only
      split_ifs with hself habsent
      · subst hself
        refine ⟨_, rfl, ?_⟩
        rintro placed ⟨⟩
        exact ⟨List.Perm.refl _, Or.inr (Or.inl ⟨rfl, Or.inr rfl⟩)⟩
      · exact ⟨_, rfl, by simp⟩
      · have htargetMem : targetId ∈ tree.listLeafPaneIds := by
          rw [← hasPane_iff_mem]
          simpa using habsent
        cases hrm : removeLeaf sid tree with
        | paneNotFound =>
          rw [hrm] at hremove
          exact absurd hsrcMem hremove
        | subtreeEmpty =>
          rw [hrm] at hremove
          have honly : tree.listLeafPaneIds = [sid] := hremove
          rw [honly, mem_singleton] at htargetMem
          exact absurd htargetMem hself
        | removed removedTree =>
          rw [hrm] at hremove
          rcases stackPanesOntoTarget_leaves removedTree [sid] targetId with
            ⟨-, herr⟩ | ⟨stacked, hsk, hperm⟩
          · simp only [bind, Option.bind, herr]
            exact ⟨_, rfl, by simp⟩
          · simp only [bind, Option.bind, hsk]
            refine ⟨_, rfl, hchecked stacked ?_⟩
            rw [hremove.2] at hperm
            exact hperm.trans hpermErase

def CrossTabPlacement.listLeafPaneIds (placement : CrossTabPlacement) : List PaneId :=
  (placement.sourceTree.map LayoutNode.listLeafPaneIds).getD [] ++ placement.destinationTree.listLeafPaneIds

theorem removeSourceLeaf_leaves (hsr : sid ∈ tree.listLeafPaneIds) :
    ∃ rest, removeSourceLeaf tree sid = some rest ∧
      (rest.map listLeafPaneIds).getD [] = tree.listLeafPaneIds.erase sid := by
  obtain ⟨result, hres, hspec⟩ := removePaneAndNormalize_spec tree sid
  unfold removeSourceLeaf
  simp only [bind, Option.bind, hres]
  cases result with
  | ok rest => exact ⟨some rest, rfl, hspec.2.2⟩
  | error removeError =>
    cases removeError with
    | paneNotFound paneId => exact absurd hsr hspec.2
    | lastPane paneId =>
      refine ⟨none, rfl, ?_⟩
      rw [hspec.2]
      simp

theorem placePaneAcrossTabs_leaves (tree : LayoutNode) (sid : PaneId) (dt : LayoutNode) (target : PlacementTarget)
    (tabRect : Rect) (sz : PaneSizing) :
    ∃ outcome, placePaneAcrossTabs tree sid dt target tabRect sz = some outcome ∧
      ∀ pl, outcome = .ok pl →
        pl.listLeafPaneIds.Perm (tree.listLeafPaneIds ++ dt.listLeafPaneIds) ∧
        sid ∈ pl.destinationTree.listLeafPaneIds ∧
        isLayoutWithinRect pl.destinationTree tabRect sz = true := by
  -- the destination tree holds the source pane and is then checked
  have hchecked : ∀ (rest : Option LayoutNode) (ed : LayoutNode),
      ((rest.map listLeafPaneIds).getD [] ++ ed.listLeafPaneIds).Perm (tree.listLeafPaneIds ++ dt.listLeafPaneIds) →
      sid ∈ ed.listLeafPaneIds →
      ∀ pl, (validateLayoutFit ed tabRect sz).map (fun dt => CrossTabPlacement.mk rest dt) = .ok pl →
        pl.listLeafPaneIds.Perm (tree.listLeafPaneIds ++ dt.listLeafPaneIds) ∧
        sid ∈ pl.destinationTree.listLeafPaneIds ∧
        isLayoutWithinRect pl.destinationTree tabRect sz = true := by
    intro rest ed hperm hm pl hfit
    cases hcheck : validateLayoutFit ed tabRect sz with
    | error refusal =>
      rw [hcheck] at hfit
      simp [Except.map] at hfit
    | ok placed =>
      rw [hcheck] at hfit
      obtain rfl := Except.ok.inj hfit
      obtain ⟨rfl, hw⟩ := validateLayoutFit_ok hcheck
      exact ⟨hperm, hm, hw⟩
  unfold placePaneAcrossTabs
  split_ifs with hboth
  · exact ⟨_, rfl, by simp⟩
  have hnotTarget : sid ∉ dt.listLeafPaneIds := by
    rw [← hasPane_iff_mem]
    exact hboth
  cases hsr : tree.findPanePath sid with
  | none => exact ⟨_, rfl, by simp⟩
  | some sourcePath =>
    have hsrcNode := getNodeAtPath_findPanePath hsr
    have hsrcMem : sid ∈ tree.listLeafPaneIds :=
      (subnode_of_getNodeAtPath hsrcNode).leaves_subset (by simp)
    obtain ⟨rest, hleft, hrestLeaves⟩ := removeSourceLeaf_leaves hsrcMem
    -- moving the source from one list of leaves to the other
    have hmoved : ∀ editedLeaves : List PaneId,
        editedLeaves.Perm (dt.listLeafPaneIds ++ [sid]) →
        ((rest.map listLeafPaneIds).getD [] ++ editedLeaves).Perm
            (tree.listLeafPaneIds ++ dt.listLeafPaneIds) ∧ sid ∈ editedLeaves := by
      intro editedLeaves hperm
      refine ⟨?_, hperm.symm.subset (by simp)⟩
      rw [hrestLeaves]
      refine (hperm.append_left _).trans ?_
      refine ((@List.perm_append_comm _ dt.listLeafPaneIds _).append_left _).trans ?_
      rw [← append_assoc]
      exact ((perm_append_singleton _ _).trans (perm_cons_erase hsrcMem).symm).append_right _
    cases target with
    | swap targetId =>
      simp only
      split_ifs with htargetBoth
      · exact ⟨_, rfl, by simp⟩
      · cases htgt : dt.findPanePath targetId with
        | none => exact ⟨_, rfl, by simp⟩
        | some targetPath =>
          obtain ⟨before, after, hlv, hedit⟩ := getNodeAtPath_leaves hsrcNode
          obtain ⟨swappedSrcTree, hswappedSrc, hsrcLeaves⟩ := hedit fun _ => .pane targetId
          obtain ⟨targetBefore, targetAfter, htargetLeaves, htargetEdit⟩ :=
            getNodeAtPath_leaves (getNodeAtPath_findPanePath htgt)
          obtain ⟨swapped, hswp, hswapLeaves⟩ := htargetEdit fun _ => .pane sid
          simp only [bind, Option.bind, hswappedSrc, hswp]
          refine ⟨_, rfl, hchecked (some swappedSrcTree) swapped ?_ (by rw [hswapLeaves]; simp)⟩
          simp only [map_some, getD_some]
          rw [hsrcLeaves, hswapLeaves, hlv, htargetLeaves]
          simp only [listLeafPaneIds_pane]
          rw [← Multiset.coe_eq_coe]
          simp only [← Multiset.coe_add]
          abel
    | insert anchor dir =>
      obtain ⟨result, hcheck, hnames⟩ := validateAnchor_spec dt sid anchor
      simp only [bind, Option.bind, hcheck]
      cases result with
      | error refusal => exact ⟨_, rfl, by simp⟩
      | ok _ =>
        have hresolves := @(hnames rfl).resolvesIn_disjoint _ _ _ (.pane sid) fun paneId hm => by
          rw [listLeafPaneIds_pane, mem_singleton]
          rintro rfl
          exact hnotTarget hm
        obtain ⟨grown, hins, hperm⟩ := insertNodeBesideAnchor_leaves hresolves (by simp) dir
        simp only [hleft, hins]
        exact ⟨_, rfl, hchecked rest grown (hmoved _ hperm).1 (hmoved _ hperm).2⟩
    | stack targetId =>
      rcases stackPanesOntoTarget_leaves dt [sid] targetId with
        ⟨-, herr⟩ | ⟨stacked, hsk, hperm⟩
      · simp only [bind, Option.bind, herr]
        exact ⟨_, rfl, by simp⟩
      · simp only [bind, Option.bind, hsk, hleft]
        exact ⟨_, rfl, hchecked rest stacked (hmoved _ hperm).1 (hmoved _ hperm).2⟩

theorem placeDockingTreeInTab_leaves {docking : LayoutNode} (hleaf : docking.listLeafPaneIds ≠ []) (tree : LayoutNode)
    (target : PlacementTarget) (tabRc : Rect) (sz : PaneSizing) :
    ∃ outcome, placeDockingTreeInTab tree docking target tabRc sz = some outcome ∧
      ∀ placed, outcome = .ok placed →
        placed.listLeafPaneIds.Perm (tree.listLeafPaneIds ++ docking.listLeafPaneIds) ∧
        isLayoutWithinRect placed tabRc sz = true := by
  have hchecked : ∀ ed : LayoutNode,
      ed.listLeafPaneIds.Perm (tree.listLeafPaneIds ++ docking.listLeafPaneIds) →
      ∀ placed, validateLayoutFit ed tabRc sz = .ok placed →
        placed.listLeafPaneIds.Perm (tree.listLeafPaneIds ++ docking.listLeafPaneIds) ∧
          isLayoutWithinRect placed tabRc sz = true := by
    intro ed hperm placed hfit
    obtain ⟨rfl, hw⟩ := validateLayoutFit_ok hfit
    exact ⟨hperm, hw⟩
  unfold placeDockingTreeInTab
  cases hdocking : docking.listLeafPaneIds with
  | nil => exact absurd hdocking hleaf
  | cons firstPaneId otherPaneIds =>
    simp only
    cases hfi : (firstPaneId :: otherPaneIds).find? (tree.hasPane ·) with
    | some paneId => exact ⟨_, rfl, by simp⟩
    | none =>
      rw [hdocking] at hchecked
      cases target with
      | swap targetId => exact ⟨_, rfl, by simp⟩
      | insert anchor dir =>
        obtain ⟨result, hcheck, hnames⟩ := validateAnchor_spec tree firstPaneId anchor
        simp only [bind, Option.bind, hcheck]
        cases result with
        | error refusal => exact ⟨_, rfl, by simp⟩
        | ok _ =>
          have hresolves := @(hnames rfl).resolvesIn_disjoint _ _ _ docking fun paneId hm ho => by
            rw [hdocking] at ho
            have := List.find?_eq_none.1 hfi paneId ho
            rw [hasPane_iff_mem] at this
            exact this hm
          obtain ⟨grown, hins, hperm⟩ := insertNodeBesideAnchor_leaves hresolves hleaf dir
          simp only [hins]
          rw [hdocking] at hperm
          exact ⟨_, rfl, hchecked grown hperm⟩
      | stack targetId =>
        rcases stackPanesOntoTarget_leaves tree (firstPaneId :: otherPaneIds) targetId with
          ⟨-, herr⟩ | ⟨stacked, hsk, hperm⟩
        · simp only [bind, Option.bind, herr]
          exact ⟨_, rfl, by simp⟩
        · simp only [bind, Option.bind, hsk]
          exact ⟨_, rfl, hchecked stacked hperm⟩

/-- **A placement loses and repeats no pane.** None of the three placements panics (a docking tree must hold a
leaf). What they give back holds exactly the panes they were given, with the moved ones in the destination, and the
destination fits its rectangle unless the placement changes nothing. -/
theorem placements_keep_panes :
    (∀ (layoutTree : LayoutNode) (sourcePaneId : PaneId) (goal : PlacementTarget) (rect : Rect)
        (paneSizing : PaneSizing), layoutTree.listLeafPaneIds.Nodup →
      ∃ outcome, placePaneWithinTree layoutTree sourcePaneId goal rect paneSizing = some outcome ∧
        ∀ placed, outcome = .ok placed → placed.listLeafPaneIds.Perm layoutTree.listLeafPaneIds ∧
          ((computeMinimumSize paneSizing placed).canFitInside rect.size = true ∨
            IsUncheckedPlacement layoutTree sourcePaneId goal placed)) ∧
    (∀ (sourceTree : LayoutNode) (sourcePaneId : PaneId) (destinationTree : LayoutNode)
        (goal : PlacementTarget) (movedRect : Rect) (paneSizing : PaneSizing),
      ∃ outcome, placePaneAcrossTabs sourceTree sourcePaneId destinationTree goal movedRect paneSizing = some outcome ∧
        ∀ placement, outcome = .ok placement →
          placement.listLeafPaneIds.Perm (sourceTree.listLeafPaneIds ++ destinationTree.listLeafPaneIds) ∧
          sourcePaneId ∈ placement.destinationTree.listLeafPaneIds ∧
          (computeMinimumSize paneSizing placement.destinationTree).canFitInside movedRect.size = true) ∧
    (∀ (layoutTree docking : LayoutNode) (goal : PlacementTarget) (tabRect : Rect)
        (paneSizing : PaneSizing), docking.listLeafPaneIds ≠ [] →
      ∃ outcome, placeDockingTreeInTab layoutTree docking goal tabRect paneSizing = some outcome ∧
        ∀ placed, outcome = .ok placed →
          placed.listLeafPaneIds.Perm (layoutTree.listLeafPaneIds ++ docking.listLeafPaneIds) ∧
          (computeMinimumSize paneSizing placed).canFitInside tabRect.size = true) := by
  refine ⟨?_, ?_, ?_⟩
  · intro layoutTree sourcePaneId goal rect paneSizing hnodup
    exact placePaneWithinTree_leaves hnodup sourcePaneId goal rect paneSizing
  · intro sourceTree sourcePaneId destinationTree goal movedRect paneSizing
    exact placePaneAcrossTabs_leaves sourceTree sourcePaneId destinationTree goal movedRect paneSizing
  · intro layoutTree docking goal tabRect paneSizing hleaf
    exact placeDockingTreeInTab_leaves hleaf layoutTree goal tabRect paneSizing

/-- Two panes side by side. -/
def twoPaneTree : LayoutNode := .split (.withEqualWeights .horizontal [.pane ⟨1⟩, .pane ⟨2⟩])

/-- The theorem at a group anchor that holds the source, and at a docking tree of one pane. -/
theorem placements_keep_panes_twoPaneTree :
    (∃ outcome, placePaneWithinTree twoPaneTree ⟨1⟩ (.insert (.group [⟨1⟩, ⟨2⟩]) .down)
        (.fromSizeAtOrigin ⟨80, 24⟩) .default = some outcome ∧
      ∀ placed, outcome = .ok placed → placed.listLeafPaneIds.Perm [⟨1⟩, ⟨2⟩] ∧
        ((computeMinimumSize .default placed).canFitInside ⟨80, 24⟩ = true ∨
          IsUncheckedPlacement twoPaneTree ⟨1⟩ (.insert (.group [⟨1⟩, ⟨2⟩]) .down) placed)) ∧
    (∃ outcome, placeDockingTreeInTab twoPaneTree (.pane ⟨3⟩) (.stack ⟨2⟩) (.fromSizeAtOrigin ⟨80, 24⟩)
        .default = some outcome ∧
      ∀ placed, outcome = .ok placed → placed.listLeafPaneIds.Perm [⟨1⟩, ⟨2⟩, ⟨3⟩] ∧
        (computeMinimumSize .default placed).canFitInside ⟨80, 24⟩ = true) :=
  ⟨placements_keep_panes.1 twoPaneTree ⟨1⟩ _ _ _ (by decide),
    placements_keep_panes.2.2 twoPaneTree (.pane ⟨3⟩) _ _ _ (by decide)⟩

/-- A pane swapped with itself comes back unchecked in a rectangle the tree does not fit, and a docking tree
without a leaf panics. -/
theorem placements_unchecked_and_leafless :
    (placePaneWithinTree twoPaneTree ⟨1⟩ (.swap ⟨1⟩) (.fromSizeAtOrigin ⟨0, 0⟩) .default = some (.ok twoPaneTree) ∧
      (computeMinimumSize .default twoPaneTree).canFitInside (Rect.fromSizeAtOrigin ⟨0, 0⟩).size = false) ∧
    placeDockingTreeInTab twoPaneTree (.split (.withEqualWeights .horizontal [])) (.stack ⟨2⟩)
      (.fromSizeAtOrigin ⟨80, 24⟩) .default = none :=
  ⟨⟨rfl, by decide⟩, rfl⟩

end Koshi.Layout
