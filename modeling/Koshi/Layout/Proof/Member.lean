import Koshi.Layout.Proof.Canonical
import Koshi.Layout.Proof.Edit
import Koshi.Layout.Placement

/-!
# Members of a split through normalization

A pane that is a child of a split, with its neighbours before and after it, is still a child of a split of that
direction beside the same neighbours when the tree is normalized: a merge puts the children of the inner split into the
outer one in their place.
-/

namespace Koshi.Layout

open Koshi.Core List Option LayoutNode NormalizedChild

variable {direction : SplitDirection} {paneId : PaneId} {earlier later livePaneIds : List PaneId}
  {children kept : List NormalizedChild} {child : NormalizedChild} {layoutNode : LayoutNode}

/-- The pane is a child of a split of the direction, with `earlier` right before it and `later` right after it. -/
def LayoutNode.HasMember (tree : LayoutNode) (direction : SplitDirection) (paneId : PaneId)
    (earlier later : List PaneId) : Prop :=
  ∃ splitNode before after, Subnode (.split splitNode) tree ∧ splitNode.direction = direction ∧
    splitNode.children = before ++ .pane paneId :: after ∧ earlier <:+ before.flatMap listLeafPaneIds ∧
    later <+: after.flatMap listLeafPaneIds

theorem LayoutNode.HasMember.of_subnode {node tree : LayoutNode} (h : node.HasMember direction paneId earlier later)
    (hsub : Subnode node tree) :
    tree.HasMember direction paneId earlier later := by
  obtain ⟨splitNode, before, after, hsplit, hrest⟩ := h
  refine ⟨splitNode, before, after, ?_, hrest⟩
  induction hsub with
  | self => exact hsplit
  | inChild mem _ ih => exact .inChild mem ih

/-! ### Merging -/

/-- What one child becomes in its parent: itself, or the children of a split of the parent's direction. -/
def Gathers (direction : SplitDirection) (child : NormalizedChild) (gathered : List NormalizedChild) : Prop :=
  gathered.map (·.layoutNode) = [child.layoutNode] ∨
    ∃ inner, child.layoutNode = .split inner ∧ inner.direction = direction ∧
      gathered.map (·.layoutNode) = inner.children

theorem gathers_inlineChild (hpaired : child.layoutNode.WeightsPaired) (product : Nat) :
    Gathers direction child (child.inlineChild direction product) := by
  by_cases hkept : child.mergeFactor direction = 1
  · rw [inlineChild_of_kept hkept]
    exact .inl rfl
  · obtain ⟨inner, hnode, hdirection, -, -⟩ := mergeFactor_ne_one hkept
    rw [inlineChild_of_split hkept hnode]
    refine .inr ⟨inner, hnode, hdirection, ?_⟩
    rw [hnode] at hpaired
    cases hpaired with
    | split _ lengths _ => simpa [List.map_map, Function.comp_def] using map_fst_zip (Nat.le_of_eq lengths.symm)

theorem exists_gathered (hpaired : ∀ child ∈ children, child.layoutNode.WeightsPaired) :
    ∃ gather : NormalizedChild → List NormalizedChild,
      (if direction = .stacked then some children else mergeSameDirection direction children) =
        some (children.flatMap gather) ∧ ∀ child ∈ children, Gathers direction child (gather child) := by
  have hself : some children = some (children.flatMap fun child => [child]) ∧
      ∀ child ∈ children, Gathers direction child [child] := ⟨by simp, fun child _ => .inl rfl⟩
  by_cases hstacked : direction = .stacked
  · exact ⟨_, (if_pos hstacked).trans hself.1, hself.2⟩
  · rw [if_neg hstacked]
    by_cases hsettled : IsSettled direction children
    · exact ⟨_, (mergeSameDirection_of_isSettled hpaired hsettled).trans hself.1, hself.2⟩
    · exact ⟨_, mergeSameDirection_of_not_isSettled hpaired hsettled,
        fun child hchild => gathers_inlineChild (hpaired child hchild) _⟩

theorem Gathers.leaves {gathered : List NormalizedChild} (h : Gathers direction child gathered) :
    listNormalizedLeafPaneIds gathered = child.layoutNode.listLeafPaneIds := by
  have hmap : listNormalizedLeafPaneIds gathered = (gathered.map (·.layoutNode)).flatMap listLeafPaneIds := by
    rw [flatMap_map]
    rfl
  rw [hmap]
  rcases h with h | ⟨inner, hnode, -, h⟩
  · rw [h, flatMap_cons, flatMap_nil, append_nil]
  · rw [h, hnode, listLeafPaneIds_split]

theorem leaves_flatMap_gather {gather : NormalizedChild → List NormalizedChild}
    (h : ∀ child ∈ children, Gathers direction child (gather child)) :
    listNormalizedLeafPaneIds (children.flatMap gather) = listNormalizedLeafPaneIds children := by
  rw [listNormalizedLeafPaneIds, flatMap_assoc]
  exact flatMap_congr fun child hchild => (h child hchild).leaves

/-- The split over kept children, or the only one. -/
theorem buildNormalizedSplit_kept {activeChildIndex : Nat}
    (hpaired : ∀ child ∈ children, child.layoutNode.WeightsPaired)
    (hbuilt : buildNormalizedSplit direction activeChildIndex children = some (some layoutNode)) :
    ∃ gather : NormalizedChild → List NormalizedChild, (∀ child ∈ children, Gathers direction child (gather child)) ∧
      ((children.flatMap gather).map (·.layoutNode) = [layoutNode] ∨ ∃ splitNode, layoutNode = .split splitNode ∧
        splitNode.direction = direction ∧ splitNode.children = (children.flatMap gather).map (·.layoutNode)) := by
  obtain ⟨gather, hkept, hgather⟩ := @exists_gathered direction children hpaired
  refine ⟨gather, hgather, ?_⟩
  unfold buildNormalizedSplit at hbuilt
  by_cases hnone : children = []
  · rw [if_pos hnone] at hbuilt
    cases hbuilt
  rw [if_neg hnone] at hbuilt
  simp only [hkept] at hbuilt
  split at hbuilt
  · cases hbuilt
  · next only heq =>
    rw [Option.some.inj heq]
    exact .inl (congrArg (fun node => [node]) (Option.some.inj (Option.some.inj hbuilt)))
  · next heq =>
    obtain rfl := Option.some.inj (Option.some.inj hbuilt)
    exact .inr ⟨_, rfl, rfl, by rw [Option.some.inj heq]⟩

theorem mem_of_map_eq_singleton {nodes : List LayoutNode} {node : LayoutNode} (hnode : node ∈ nodes)
    (h : nodes = [layoutNode]) : node = layoutNode := mem_singleton.1 (h ▸ hnode)

/-- A pane among the nodes a split keeps is a member of it, with a neighbour that keeps the split from collapsing. -/
theorem LayoutNode.HasMember.of_kept {nodes : List LayoutNode} (front back : List LayoutNode)
    (hne : earlier ++ later ≠ [])
    (hkept : nodes = [layoutNode] ∨ ∃ splitNode, layoutNode = .split splitNode ∧
      splitNode.direction = direction ∧ splitNode.children = nodes)
    (hnodes : nodes = front ++ .pane paneId :: back) (hearlier : earlier <:+ front.flatMap listLeafPaneIds)
    (hlater : later <+: back.flatMap listLeafPaneIds) : layoutNode.HasMember direction paneId earlier later := by
  rcases hkept with honly | ⟨splitNode, rfl, hdirection, hchildren⟩
  · rw [hnodes, append_eq_singleton_iff] at honly
    rcases honly with ⟨rfl, honly⟩ | ⟨-, honly⟩
    · obtain rfl := (cons.inj honly).2
      rw [suffix_nil.1 hearlier, prefix_nil.1 hlater] at hne
      exact absurd rfl hne
    · exact absurd honly (cons_ne_nil _ _)
  · exact ⟨splitNode, front, back, .self, hdirection, hchildren.trans hnodes, hearlier, hlater⟩

variable {activeChildIndex : Nat} {outerDirection : SplitDirection}

theorem LayoutNode.HasMember.buildNormalizedSplit (hpaired : ∀ child ∈ children, child.layoutNode.WeightsPaired)
    (hne : earlier ++ later ≠ []) (hchild : child ∈ children)
    (h : child.layoutNode.HasMember direction paneId earlier later)
    (hbuilt : Layout.buildNormalizedSplit outerDirection activeChildIndex children = some (some layoutNode)) :
    layoutNode.HasMember direction paneId earlier later := by
  obtain ⟨gather, hgather, hkept⟩ := buildNormalizedSplit_kept hpaired hbuilt
  -- a node that a kept child holds is below the new node
  have hbelow : ∀ node ∈ (children.flatMap gather).map (·.layoutNode), Subnode node layoutNode := by
    intro node hnode
    rcases hkept with honly | ⟨splitNode, rfl, -, hchildren⟩
    · rw [mem_of_map_eq_singleton hnode honly]
      exact .self
    · exact .inChild (hchildren ▸ hnode) .self
  obtain ⟨front, back, rfl⟩ := append_of_mem hchild
  have hsplitKept : ((front ++ child :: back).flatMap gather).map (·.layoutNode) =
      (front.flatMap gather).map (·.layoutNode) ++ ((gather child).map (·.layoutNode) ++
        (back.flatMap gather).map (·.layoutNode)) := by
    rw [flatMap_append, flatMap_cons, map_append, map_append]
  rw [hsplitKept] at hkept hbelow
  rcases hgather child hchild with hself | ⟨inner, hnode, hdirection, hinner⟩
  · exact h.of_subnode (hbelow _ (mem_append_right _ (mem_append_left _ (by rw [hself]; exact mem_cons_self))))
  · rw [hinner] at hkept hbelow
    rw [hnode] at h
    obtain ⟨memberSplit, before, after, hsub, hmemberDirection, hmember, hearlier, hlater⟩ := h
    -- the split itself is merged away, any other split is in one of its children
    cases hsub with
    | self =>
      rw [hmember, ← hdirection, hmemberDirection] at hkept
      refine HasMember.of_kept ((front.flatMap gather).map (·.layoutNode) ++ before)
        (after ++ (back.flatMap gather).map (·.layoutNode)) hne hkept (by simp) ?_ ?_
      · rw [flatMap_append]
        exact hearlier.trans (suffix_append ..)
      · rw [flatMap_append]
        exact hlater.trans (prefix_append ..)
    | inChild mem hinnerSub =>
      exact HasMember.of_subnode ⟨memberSplit, before, after, hinnerSub, hmemberDirection, hmember, hearlier, hlater⟩
        (hbelow _ (mem_append_right _ (mem_append_left _ mem)))

/-! ### The whole tree -/

/-- The kept children around one that is kept. -/
theorem normalizeChildren_around {weights : List SizeWeight} {childIndex : Nat} {before after : List LayoutNode}
    {child' newNode : LayoutNode} (hchild : normalizeLayoutTree livePaneIds child' = some (some newNode))
    (hkept : normalizeChildren livePaneIds weights childIndex (before ++ child' :: after) = some kept) :
    ∃ front normalized back, kept = front ++ normalized :: back ∧
      normalized.layoutNode = newNode ∧
      listNormalizedLeafPaneIds front = (before.flatMap listLeafPaneIds).filter (livePaneIds.contains ·) ∧
      listNormalizedLeafPaneIds back = (after.flatMap listLeafPaneIds).filter (livePaneIds.contains ·) := by
  induction before generalizing childIndex kept with
  | nil =>
    obtain ⟨back, hback, hleaves, -⟩ := @normalizeChildren_leaves livePaneIds weights (childIndex + 1) _
      fun other (_ : other ∈ after) => normalizeTree_normalizes livePaneIds other
    rw [nil_append, normalizeChildren, hchild] at hkept
    simp only [hback, map_some] at hkept
    obtain rfl := Option.some.inj hkept
    exact ⟨[], _, back, rfl, rfl, rfl, hleaves⟩
  | cons first before ih =>
    obtain ⟨result, hresult⟩ := normalizeTree_normalizes livePaneIds first
    have hfirstLeaves := hresult.leaves
    rw [cons_append, normalizeChildren, hresult.runs] at hkept
    rw [flatMap_cons, filter_append, ← hfirstLeaves]
    cases result with
    | none =>
      obtain ⟨front, normalized, back, hparts⟩ := ih hkept
      exact ⟨front, normalized, back, hparts⟩
    | some firstNode =>
      obtain ⟨rest, hrest, rfl⟩ := Option.map_eq_some_iff.1 hkept
      obtain ⟨front, normalized, back, rfl, hnode, hfront, hback⟩ := ih hrest
      refine ⟨_ :: front, normalized, back, rfl, hnode, ?_, hback⟩
      rw [listNormalizedLeafPaneIds, flatMap_cons, ← hfront]
      rfl

/-- **Normalization keeps every member** in a split of its direction between the same neighbours. -/
theorem LayoutNode.HasMember.normalizeLayoutTree {tree newTree : LayoutNode}
    (hlive : tree.listLeafPaneIds ⊆ livePaneIds) (hne : earlier ++ later ≠ [])
    (h : tree.HasMember direction paneId earlier later)
    (hnormalized : Layout.normalizeLayoutTree livePaneIds tree = some (some newTree)) :
    newTree.HasMember direction paneId earlier later := by
  obtain ⟨memberSplit, before, after, hsub, hdirection, hmember, hearlier, hlater⟩ := h
  induction hsub generalizing newTree with
  | self =>
    obtain ⟨splitDirection, children, weights, activeChildIndex⟩ := memberSplit
    subst hdirection hmember
    obtain ⟨kept, hkept, -, hpaired⟩ := @normalizeChildren_leaves livePaneIds weights 0 _
      fun other (_ : other ∈ before ++ .pane paneId :: after) => normalizeTree_normalizes livePaneIds other
    rw [Layout.normalizeLayoutTree, hkept] at hnormalized
    rw [listLeafPaneIds_split, flatMap_append, flatMap_cons, append_subset, append_subset] at hlive
    obtain ⟨hbeforeLive, hpaneLive, hafterLive⟩ := hlive
    have hpane : Layout.normalizeLayoutTree livePaneIds (.pane paneId) = some (some (.pane paneId)) := by
      have hcontains : livePaneIds.contains paneId = true := by simpa using hpaneLive
      simp only [Layout.normalizeLayoutTree, hcontains, if_true]
    obtain ⟨front, normalized, back, rfl, hnode, hfront, hback⟩ := normalizeChildren_around hpane hkept
    obtain ⟨gather, hgather, hbuilt⟩ := buildNormalizedSplit_kept (fun other hother => (hpaired other hother).2)
      hnormalized
    have hself : (gather normalized).map (·.layoutNode) = [.pane paneId] := by
      rcases hgather normalized (by simp) with hself | ⟨inner, hsplit, -⟩
      · rw [hself, hnode]
      · rw [hnode] at hsplit
        cases hsplit
    have hgathered : ∀ side : List NormalizedChild, (∀ other ∈ side, Gathers splitDirection other (gather other)) →
        ((side.flatMap gather).map (·.layoutNode)).flatMap listLeafPaneIds = listNormalizedLeafPaneIds side :=
      fun side hside => by
        rw [← leaves_flatMap_gather hside, flatMap_map]
        rfl
    refine HasMember.of_kept ((front.flatMap gather).map (·.layoutNode))
      ((back.flatMap gather).map (·.layoutNode)) hne hbuilt ?_ ?_ ?_
    · rw [flatMap_append, flatMap_cons, map_append, map_append, hself, singleton_append]
    · rw [hgathered front fun other hother => hgather other (mem_append_left _ hother), hfront,
        filter_eq_self.2 fun other hother => by simpa using hbeforeLive hother]
      exact hearlier
    · rw [hgathered back fun other hother => hgather other (mem_append_right _ (mem_cons_of_mem _ hother)), hback,
        filter_eq_self.2 fun other hother => by simpa using hafterLive hother]
      exact hlater
  | @inChild outerSplit child' mem hsub ih =>
    obtain ⟨splitDirection, children, weights, activeChildIndex⟩ := outerSplit
    obtain ⟨kept, hkept, -, hpaired⟩ := @normalizeChildren_leaves livePaneIds weights 0 _
      fun other (_ : other ∈ children) => normalizeTree_normalizes livePaneIds other
    rw [Layout.normalizeLayoutTree, hkept] at hnormalized
    obtain ⟨before, after, rfl⟩ := append_of_mem mem
    have hchildLive : child'.listLeafPaneIds ⊆ livePaneIds := by
      rw [listLeafPaneIds_split, flatMap_append, flatMap_cons, append_subset, append_subset] at hlive
      exact hlive.2.1
    obtain ⟨result, hresult⟩ := normalizeTree_normalizes livePaneIds child'
    have hresultLeaves := hresult.leaves
    have hleaf : paneId ∈ child'.listLeafPaneIds :=
      hsub.leaves_subset (by rw [listLeafPaneIds_split, hmember]; simp)
    rw [filter_eq_self.2 fun other hother => by simpa using hchildLive hother] at hresultLeaves
    cases result with
    | none => exact absurd hleaf (hresultLeaves ▸ not_mem_nil)
    | some newNode =>
      obtain ⟨front, normalized, back, rfl, rfl, -, -⟩ := normalizeChildren_around hresult.runs hkept
      exact (ih hchildLive hresult.runs).buildNormalizedSplit (fun other hother => (hpaired other hother).2) hne
        (mem_append_right _ mem_cons_self) hnormalized

/-! ### Editing one node -/

theorem LayoutNode.getNodeAtPath_editNodeAtPath {edit : LayoutNode → LayoutNode} {path : List Nat}
    {tree edited : LayoutNode} (h : tree.editNodeAtPath edit path = some edited) :
    ∃ node, tree.getNodeAtPath path = some node ∧ edited.getNodeAtPath path = some (edit node) := by
  induction path generalizing tree edited with
  | nil => exact ⟨tree, by simp [getNodeAtPath], by simpa [editNodeAtPath, getNodeAtPath, eq_comm] using h⟩
  | cons childIndex path ih =>
    cases tree with
    | pane paneId => simp [editNodeAtPath] at h
    | split splitNode =>
      rw [editNodeAtPath] at h
      cases hchild : splitNode.children[childIndex]? with
      | none =>
        rw [hchild] at h
        simp at h
      | some child =>
        rw [hchild] at h
        obtain ⟨editedChild, hedited, rfl⟩ := Option.map_eq_some_iff.1 h
        obtain ⟨node, hnode, heditedNode⟩ := ih hedited
        refine ⟨node, by rw [getNodeAtPath, hchild]; exact hnode, ?_⟩
        rw [getNodeAtPath, getElem?_set_self (List.getElem?_eq_some_iff.1 hchild).1]
        exact heditedNode

/-- The node at the end of a path is below every node on it. -/
theorem LayoutNode.subnode_getNodeAtPath_take {path : List Nat} {tree node ancestor : LayoutNode} {depth : Nat}
    (hnode : tree.getNodeAtPath path = some node)
    (hancestor : tree.getNodeAtPath (path.take depth) = some ancestor) : Subnode node ancestor := by
  induction path generalizing tree depth with
  | nil =>
    rw [take_nil, hnode] at hancestor
    rw [Option.some.inj hancestor]
    exact .self
  | cons childIndex path ih =>
    cases depth with
    | zero =>
      obtain rfl : tree = ancestor := by simpa [getNodeAtPath] using hancestor
      exact subnode_of_getNodeAtPath hnode
    | succ depth =>
      cases tree with
      | pane paneId => simp [getNodeAtPath] at hnode
      | split splitNode =>
        rw [take_succ_cons] at hancestor
        rw [getNodeAtPath] at hnode hancestor
        cases hchild : splitNode.children[childIndex]? with
        | none =>
          rw [hchild] at hnode
          simp at hnode
        | some child =>
          rw [hchild] at hnode hancestor
          exact ih hnode hancestor

/-- A member of the node an edit puts in is a member of the tree after the edit and normalization. -/
theorem LayoutNode.HasMember.edit_normalize {edit : LayoutNode → LayoutNode} {path : List Nat}
    {tree edited newTree node : LayoutNode} (hne : earlier ++ later ≠ [])
    (hedit : tree.editNodeAtPath edit path = some edited) (hnode : tree.getNodeAtPath path = some node)
    (h : (edit node).HasMember direction paneId earlier later)
    (hnormalized : normalizeAllLeaves edited = some newTree) :
    newTree.HasMember direction paneId earlier later := by
  obtain ⟨other, hother, hedited⟩ := getNodeAtPath_editNodeAtPath hedit
  obtain rfl := Option.some.inj (hnode.symm.trans hother)
  obtain ⟨result, hresult, hsome⟩ := Option.bind_eq_some_iff.1 hnormalized
  subst hsome
  exact (h.of_subnode (subnode_of_getNodeAtPath hedited)).normalizeLayoutTree (Subset.refl _) hne hresult

end Koshi.Layout
