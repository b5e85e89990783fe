import Koshi.Layout.Destinations
import Koshi.Layout.Proof.Member
import Koshi.Layout.Proof.Placement
import Koshi.Layout.Proof.SplitRemove

/-!
# Listed destinations can be placed

Every destination `list_placement_destinations` lists is one `place_pane_within_tree` carries out, the source standing
at the slot, span or stack it names, or refuses because that tree does not fit. The lister walks the tree with the
source still in it and lists only spans under no stack; the mover checks the anchor against the same tree, where a path
to a leaf set is the path to the node the lister stood on or to one above it.
-/

namespace Koshi.Layout

open Koshi.Core List Option LayoutNode InsertionSpanWalk

variable {t : LayoutNode}

/-! ### Nodes under no stack -/

inductive LayoutNode.StandsUnstacked (node : LayoutNode) : LayoutNode → Prop
  | self : StandsUnstacked node node
  | inChild {splits : SplitNode LayoutNode} {child : LayoutNode} (hdir : splits.direction ≠ .stacked)
      (mem : child ∈ splits.children) (hchild : StandsUnstacked node child) : StandsUnstacked node (.split splits)

theorem LayoutNode.StandsUnstacked.subnode {node layoutNode : LayoutNode} (h : StandsUnstacked node layoutNode) :
    Subnode node layoutNode := by
  induction h with
  | self => exact .self
  | inChild _ mem _ ih => exact .inChild mem ih

def LayoutNode.NoStackAbove : LayoutNode → List Nat → Prop
  | _, [] => True
  | .pane _, _ :: _ => False
  | .split splits, place :: path =>
    splits.direction ≠ .stacked ∧ ∃ child, splits.children[place]? = some child ∧ child.NoStackAbove path

variable {node : LayoutNode}

theorem LayoutNode.NoStackAbove.isStack_take {path : List Nat} (h : node.NoStackAbove path) {depth : Nat}
    (hdepth : depth < path.length) :
    ∃ ancestor, node.getNodeAtPath (path.take depth) = some ancestor ∧ ancestor.isStack = false := by
  induction path generalizing node depth with
  | nil => exact absurd hdepth (Nat.not_lt_zero depth)
  | cons place path ih =>
    cases node with
    | pane paneId => exact h.elim
    | split sp =>
      obtain ⟨hdir, child, hg, hch⟩ := h
      cases depth with
      | zero => exact ⟨.split sp, by simp [getNodeAtPath], by simp [isStack, hdir]⟩
      | succ depth =>
        rw [take_succ_cons, getNodeAtPath, hg]
        exact ih hch (Nat.lt_of_succ_lt_succ hdepth)

theorem LayoutNode.NoStackAbove.findOutermostStackAbove {nodePath : List Nat}
    (h : t.NoStackAbove nodePath) : findOutermostStackAbove t nodePath = some none := by
  have hnone : ∀ depths : List Nat, (∀ depth ∈ depths, depth < nodePath.length) →
      t.findStackDepth nodePath depths = some none := by
    intro depths hdepths
    induction depths with
    | nil => rfl
    | cons depth depths ih =>
      obtain ⟨ancestor, hancestor, hstk⟩ := h.isStack_take (hdepths depth mem_cons_self)
      have hr := ih fun other ho => hdepths other (mem_cons_of_mem depth ho)
      unfold findStackDepth at hr ⊢
      rw [List.findM?, hancestor, map_some, hstk]
      exact hr
  have hrng := hnone (List.range nodePath.length) fun depth hdepth => mem_range.1 hdepth
  simp only [Layout.findOutermostStackAbove, bind, Option.bind, hrng]

variable {paneId : PaneId}

theorem child_eq_of_shared_leaf {children : List LayoutNode} (hnodup : (children.flatMap listLeafPaneIds).Nodup)
    {fst second : LayoutNode} (hf : fst ∈ children) (hse : second ∈ children) (hpaneFst : paneId ∈ fst.listLeafPaneIds)
    (hpaneSnd : paneId ∈ second.listLeafPaneIds) : fst = second := by
  by_contra hne
  have hsymm : Std.Symm (Function.onFun List.Disjoint listLeafPaneIds) := ⟨fun _ _ h => h.symm⟩
  exact (nodup_flatMap.1 hnodup).2.forall hf hse hne hpaneFst hpaneSnd

theorem noStackAbove_findPanePath (hnodup : t.listLeafPaneIds.Nodup) (hsd : LayoutNode.StandsUnstacked (.pane paneId) t)
    {panePath : List Nat} (hpath : t.findPanePath paneId = some panePath) : t.NoStackAbove panePath := by
  generalize hleaf : pane paneId = leaf at hsd
  induction hsd generalizing panePath with
  | self =>
    subst hleaf
    obtain rfl : [] = panePath := by simpa [findPanePath] using hpath
    trivial
  | inChild hdir mem hch ih =>
    subst hleaf
    rw [listLeafPaneIds_split] at hnodup
    rw [findPanePath_split] at hpath
    obtain ⟨index, other, otherPath, rfl, hg, ho⟩ := findPanePathInChildren_some hpath
    have hpaneOther := (subnode_of_getNodeAtPath (getNodeAtPath_findPanePath ho)).leaves_subset
      (mem_singleton_self paneId)
    have hpa := hch.subnode.leaves_subset (mem_singleton_self paneId)
    obtain rfl := child_eq_of_shared_leaf hnodup mem (mem_of_getElem? hg) hpa hpaneOther
    refine ⟨hdir, _, by simpa using hg, ?_⟩
    exact ih ((nodup_flatMap.1 hnodup).1 _ mem) ho

theorem noStackAbove_findSplitInSubtree (hnodup : t.listLeafPaneIds.Nodup) (hsd : node.StandsUnstacked t)
    {wantPaneIds : List PaneId} (hset : hasLeafSet (sortPaneIds wantPaneIds) node = true)
    (hpa : paneId ∈ node.listLeafPaneIds) {nodePath : List Nat}
    (hpath : findSplitInSubtree (sortPaneIds wantPaneIds) t = some nodePath) :
    t.NoStackAbove nodePath := by
  induction hsd generalizing nodePath with
  | self =>
    obtain rfl : [] = nodePath := by
      cases node with
      | pane leafPaneId => simpa [findSplitInSubtree, hset] using hpath
      | split sp => simpa [findSplitInSubtree_split, hset] using hpath
    trivial
  | inChild hdir mem hch ih =>
    rw [listLeafPaneIds_split] at hnodup
    rw [findSplitInSubtree_split] at hpath
    split_ifs at hpath with hroot
    · obtain rfl := Option.some.inj hpath
      trivial
    · obtain ⟨index, other, otherPath, rfl, hg, ho⟩ := findSplitInChildren_some hpath
      obtain ⟨found, hfo, hfoundSet⟩ := findSplitInSubtree_node ho
      have hs := ((hasLeafSet_sortPaneIds _ _).1 hset).trans ((hasLeafSet_sortPaneIds _ _).1 hfoundSet).symm
      have hpaneOther := (subnode_of_getNodeAtPath hfo).leaves_subset (hs.subset hpa)
      obtain rfl := child_eq_of_shared_leaf hnodup mem (mem_of_getElem? hg) (hch.subnode.leaves_subset hpa) hpaneOther
      refine ⟨hdir, _, by simpa using hg, ?_⟩
      exact ih ((nodup_flatMap.1 hnodup).1 _ mem) ho

/-! ### What the walk lists -/

/-- The spans the lister may list: the tab of another pane, a pane other than the source under no stack, or the leaves
of a node under no stack, two at least. -/
def IsListable (tree : LayoutNode) (sourcePaneId : PaneId) : PanePlacementAnchor → Prop
  | .tab => ∃ paneId ∈ tree.listLeafPaneIds, paneId ≠ sourcePaneId
  | .pane paneId => paneId ≠ sourcePaneId ∧ LayoutNode.StandsUnstacked (.pane paneId) tree
  | .group paneIds => 2 ≤ paneIds.length ∧
      ∃ node : LayoutNode, node.StandsUnstacked tree ∧ node.listLeafPaneIds = paneIds

/-- Every span of the walk so far may be listed. -/
structure SpansListable (tree : LayoutNode) (sourcePaneId : PaneId) (spanWalk : InsertionSpanWalk) : Prop where
  source : spanWalk.sourcePaneId = sourcePaneId
  spans : ∀ span ∈ spanWalk.paneSpans ++ spanWalk.groupSpans, IsListable tree sourcePaneId span.anchor

section Walk

variable {t : LayoutNode} {sid : PaneId} {spanWalk : InsertionSpanWalk}

theorem SpansListable.collectPaneSpan (h : SpansListable t sid spanWalk) {paneId : PaneId}
    (hsd : LayoutNode.StandsUnstacked (.pane paneId) t) :
    SpansListable t sid (spanWalk.collectPaneSpan paneId) := by
  unfold InsertionSpanWalk.collectPaneSpan
  split_ifs with hself
  · exact h
  · split
    · exact h
    · split_ifs
      · refine ⟨h.source, ?_⟩
        intro span hspan
        simp only [mem_append, mem_singleton] at hspan
        rcases hspan with (hspan | rfl) | hspan
        · exact h.spans span (mem_append_left _ hspan)
        · exact ⟨h.source ▸ hself, hsd⟩
        · exact h.spans span (mem_append_right _ hspan)
      · exact h

theorem SpansListable.collectGroupSpan (h : SpansListable t sid spanWalk) {node : LayoutNode}
    (hsd : node.StandsUnstacked t) :
    SpansListable t sid (spanWalk.collectGroupSpan node.listLeafPaneIds) := by
  unfold InsertionSpanWalk.collectGroupSpan
  dsimp only
  split_ifs with hskip
  · exact h
  · split
    · exact h
    · refine ⟨h.source, ?_⟩
      intro span hspan
      simp only [mem_append, mem_singleton] at hspan
      rcases hspan with hspan | hspan | rfl
      · exact h.spans span (mem_append_left _ hspan)
      · exact h.spans span (mem_append_right _ hspan)
      · exact ⟨not_lt.1 fun hshort => hskip (Or.inl hshort), node, hsd, rfl⟩

theorem LayoutNode.StandsUnstacked.child {sp : SplitNode LayoutNode} (hsd : StandsUnstacked (.split sp) t)
    (hdir : sp.direction ≠ .stacked) {child : LayoutNode} (mem : child ∈ sp.children) : StandsUnstacked child t := by
  generalize hno : split sp = node at hsd
  induction hsd with
  | self =>
    subst hno
    exact .inChild hdir mem .self
  | inChild habove hm _ ih => exact .inChild habove hm ih

theorem collectChildSpans_keeps {Keeps : InsertionSpanWalk → Prop} {isChildInside : Bool}
    {children : List LayoutNode} (hstep : ∀ child ∈ children, ∀ spanWalk : InsertionSpanWalk, Keeps spanWalk →
      Keeps (spanWalk.collectInsertionSpans isChildInside child)) {spanWalk : InsertionSpanWalk}
    (h : Keeps spanWalk) : Keeps (spanWalk.collectChildSpans isChildInside children) := by
  induction children generalizing spanWalk with
  | nil => exact h
  | cons child children ih =>
    rw [collectChildSpans]
    apply ih
    · exact fun other ho => hstep other (mem_cons_of_mem child ho)
    · exact hstep child mem_cons_self spanWalk h

theorem SpansListable.collectInsertionSpans (h : SpansListable t sid spanWalk) {isInside : Bool} {node : LayoutNode}
    (hsd : isInside = false → node.StandsUnstacked t) :
    SpansListable t sid (spanWalk.collectInsertionSpans isInside node) := by
  induction node generalizing spanWalk isInside with
  | pane paneId =>
    rw [collectInsertionSpans]
    cases isInside with
    | true => exact h
    | false => exact h.collectPaneSpan (hsd rfl)
  | split sp ih =>
    obtain ⟨dir, children, weights, active⟩ := sp
    rw [collectInsertionSpans]
    apply collectChildSpans_keeps
    · intro child mem childWalk hwalk
      apply ih child mem hwalk
      intro hfree
      simp only [Bool.or_eq_false_iff, decide_eq_false_iff_not] at hfree
      exact (hsd hfree.1).child hfree.2 mem
    · cases isInside with
      | true => exact h
      | false => exact h.collectGroupSpan (hsd rfl)

end Walk

/-! ### The panes of a solve -/

/-- The solve recursion names the leaves of the subtree, beside what it was given. -/
def NamesLeaves (state : LayoutSolveState) (leafPaneIds : List PaneId) (solved : LayoutSolveState) : Prop :=
  ∀ entry ∈ solved.paneRects, entry ∈ state.paneRects ∨ entry.1 ∈ leafPaneIds

theorem NamesLeaves.trans {fst snd third : LayoutSolveState} {leaves : List PaneId} (hf : NamesLeaves fst leaves snd)
    (hse : NamesLeaves snd leaves third) :
    NamesLeaves fst leaves third := by
  intro entry he
  rcases hse entry he with he | hleaf
  · exact hf entry he
  · exact Or.inr hleaf

theorem NamesLeaves.mono {st solved : LayoutSolveState} {leaves largerPaneIds : List PaneId}
    (h : NamesLeaves st leaves solved) (hsubset : leaves ⊆ largerPaneIds) :
    NamesLeaves st largerPaneIds solved :=
  fun entry he => (h entry he).imp_right fun hleaf => hsubset hleaf

theorem namesLeaves_foldl {step : LayoutSolveState → PaneId → LayoutSolveState}
    (hstep : ∀ st paneId, NamesLeaves st [paneId] (step st paneId)) (ps : List PaneId)
    (st : LayoutSolveState) : NamesLeaves st ps (ps.foldl step st) := by
  induction ps generalizing st with
  | nil => exact fun entry he => Or.inl he
  | cons paneId ps ih =>
    refine ((hstep st paneId).mono ?_).trans ((ih _).mono ?_)
    · exact cons_subset_cons paneId (nil_subset _)
    · exact subset_cons_self paneId ps

theorem namesLeaves_suppressLayoutSubtree (node : LayoutNode) (st : LayoutSolveState) :
    NamesLeaves st node.listLeafPaneIds (suppressLayoutSubtree node st) := by
  apply namesLeaves_foldl
  intro st paneId entry he
  simp only [mem_append, mem_singleton] at he
  rcases he with he | rfl
  · exact Or.inl he
  · exact Or.inr (mem_singleton_self paneId)

theorem namesLeaves_emitStackHeader (child : LayoutNode) (headerRect : Rect) (memIndex memCount : Nat)
    (st : LayoutSolveState) :
    NamesLeaves st child.listLeafPaneIds (emitStackHeader child headerRect memIndex memCount st) := by
  intro entry he
  unfold emitStackHeader at he
  split at he
  · exact Or.inl he
  · rename_i firstPaneId restPaneIds hlv
    simp only [mem_append, mem_cons, List.mem_map] at he
    rw [hlv]
    rcases he with he | rfl | ⟨paneId, hpa, rfl⟩
    · exact Or.inl he
    · exact Or.inr mem_cons_self
    · exact Or.inr (mem_cons_of_mem _ hpa)

section Solve

def SolvesLeaves (layoutNode : LayoutNode) : Prop :=
  ∀ (area : Rect) (state : LayoutSolveState),
    NamesLeaves state layoutNode.listLeafPaneIds (solveLayoutNode area state layoutNode)

variable {children : List LayoutNode} (hcs : ∀ child ∈ children, SolvesLeaves child)
include hcs

theorem namesLeaves_solveDirectional (rs : List Rect) (st : LayoutSolveState) :
    NamesLeaves st (children.flatMap listLeafPaneIds) (solveDirectionalChildren rs st children) := by
  induction children generalizing rs st with
  | nil => exact fun entry he => Or.inl (by simpa [solveDirectionalChildren] using he)
  | cons child children ih =>
    cases rs with
    | nil => exact fun entry he => Or.inl (by simpa [solveDirectionalChildren] using he)
    | cons childRect rs =>
      rw [flatMap_cons, solveDirectionalChildren]
      refine NamesLeaves.trans (NamesLeaves.mono ?_ (subset_append_left _ _))
        ((ih (fun other ho => hcs other (mem_cons_of_mem child ho)) rs _).mono (subset_append_right _ _))
      split_ifs
      · exact namesLeaves_suppressLayoutSubtree child st
      · exact hcs child mem_cons_self childRect st

theorem namesLeaves_solveStacked (active memCount memIndex : Nat) (rs : List Rect) (st : LayoutSolveState) :
    NamesLeaves st (children.flatMap listLeafPaneIds) (solveStackedChildren active memCount memIndex rs st
      children) := by
  induction children generalizing memIndex rs st with
  | nil => exact fun entry he => Or.inl (by simpa [solveStackedChildren] using he)
  | cons child children ih =>
    cases rs with
    | nil => exact fun entry he => Or.inl (by simpa [solveStackedChildren] using he)
    | cons childRect rs =>
      rw [flatMap_cons, solveStackedChildren]
      refine NamesLeaves.trans (NamesLeaves.mono ?_ (subset_append_left _ _))
        ((ih (fun other ho => hcs other (mem_cons_of_mem child ho)) (memIndex + 1) rs _).mono (subset_append_right _ _))
      split_ifs
      · exact namesLeaves_suppressLayoutSubtree child st
      · exact hcs child mem_cons_self childRect st
      · exact namesLeaves_emitStackHeader child childRect memIndex memCount st

end Solve

theorem solvesLeaves (node : LayoutNode) : SolvesLeaves node := by
  induction node with
  | pane paneId =>
    intro area st entry he
    rw [solveLayoutNode] at he
    split_ifs at he <;>
    · simp only [mem_append, mem_singleton] at he
      rcases he with he | rfl
      · exact Or.inl he
      · exact Or.inr (mem_singleton_self paneId)
  | split sp ih =>
    intro area st
    obtain ⟨dir, children, weights, active⟩ := sp
    rw [listLeafPaneIds_split]
    cases dir with
    | stacked =>
      rw [solveLayoutNode]
      exact namesLeaves_solveStacked ih _ _ _ _ _
    | horizontal =>
      rw [solveLayoutNode]
      · exact namesLeaves_solveDirectional ih _ _
      · exact nofun
    | vertical =>
      rw [solveLayoutNode]
      · exact namesLeaves_solveDirectional ih _ _
      · exact nofun

theorem namesLeaves_zoomLeafStep (focusId : PaneId) (tabRect : Rect) (st : LayoutSolveState)
    (paneId : PaneId) : NamesLeaves st [paneId] (zoomLeafStep focusId tabRect st paneId) := by
  intro entry he
  unfold zoomLeafStep at he
  split_ifs at he <;>
  · simp only [mem_append, mem_singleton] at he
    rcases he with he | rfl
    · exact Or.inl he
    · exact Or.inr (mem_singleton_self paneId)

theorem mem_leaves_of_mem_solve {mode : LayoutMode} {tabRect : Rect} {sz : PaneSizing} {entry : PaneId × Rect}
    (he : entry ∈ (solveLayoutWithMode t mode tabRect sz).paneRects) :
    entry.1 ∈ t.listLeafPaneIds := by
  have htiled : ∀ other ∈ (solveLayoutWithSizing t tabRect sz).paneRects, other.1 ∈ t.listLeafPaneIds := fun other ho =>
    (solvesLeaves t tabRect (.fromPaneSizing sz) other ho).resolve_left not_mem_nil
  unfold solveLayoutWithMode at he
  cases mode with
  | tiled => exact htiled entry he
  | fullscreen focusPaneId =>
    dsimp only at he
    split_ifs at he
    · exact htiled entry he
    · exact (namesLeaves_foldl (namesLeaves_zoomLeafStep focusPaneId tabRect) t.listLeafPaneIds
        (.fromPaneSizing sz) entry he).resolve_left not_mem_nil

theorem listDestinations_spec (t : LayoutNode) (layoutSolve : LayoutSolve) (tabRect : Rect) (sid : PaneId) :
    (∀ slot ∈ (listPlacementDestinations t layoutSolve tabRect sid).targetPaneSlots,
        (slot.paneId, slot.slotRect) ∈ layoutSolve.paneRects ∧ slot.paneId ≠ sid) ∧
      ∀ span ∈ (listPlacementDestinations t layoutSolve tabRect sid).insertionSpans, IsListable t sid span.anchor := by
  constructor
  · intro slot hslot
    obtain ⟨entry, he, rfl⟩ := List.mem_map.1 hslot
    obtain ⟨hmem, hother⟩ := mem_filter.1 he
    exact ⟨hmem, (decide_eq_true_eq.mp hother).1⟩
  · intro span hspan
    rcases mem_append.1 hspan with hspan | hspan
    · have hem : SpansListable t sid ⟨sid, layoutSolve, sortPaneIds t.listLeafPaneIds, [], [], []⟩ :=
        ⟨rfl, fun span hspan => absurd hspan not_mem_nil⟩
      exact (hem.collectInsertionSpans fun _ => .self).spans span hspan
    · split_ifs at hspan with hother
      · obtain rfl := mem_singleton.1 hspan
        obtain ⟨paneId, hmem, hne⟩ := any_eq_true.1 hother
        exact ⟨paneId, (mergeSort_perm _ _).subset hmem, decide_eq_true_eq.mp hne⟩
      · exact absurd hspan not_mem_nil

theorem standsUnstacked_of_applyShown {focusHistory : List PaneId}
    (h : node.StandsUnstacked (t.applyShownStackMembers focusHistory)) :
    ∃ stored : LayoutNode, stored.StandsUnstacked t ∧ stored.applyShownStackMembers focusHistory = node := by
  induction t with
  | pane paneId =>
    cases h with
    | self => exact ⟨.pane paneId, .self, rfl⟩
  | split sp ih =>
    obtain ⟨dir, children, weights, active⟩ := sp
    rw [applyShownStackMembers] at h
    cases h with
    | self => exact ⟨.split ⟨dir, children, weights, active⟩, .self, rfl⟩
    | inChild hdir mem hch =>
      rw [applyShownInChildren_eq] at mem
      obtain ⟨child, hm, rfl⟩ := List.mem_map.1 mem
      obtain ⟨stored, hstored, heq⟩ := ih child hm hch
      exact ⟨stored, .inChild hdir hm hstored, heq⟩

variable {anchor : PanePlacementAnchor}

theorem isListable_of_applyShown {sid : PaneId} {focusHistory : List PaneId}
    (h : IsListable (t.applyShownStackMembers focusHistory) sid anchor) :
    IsListable t sid anchor := by
  cases anchor with
  | tab =>
    obtain ⟨paneId, hmem, hne⟩ := h
    rw [listLeafPaneIds_applyShown] at hmem
    exact ⟨paneId, hmem, hne⟩
  | pane paneId =>
    obtain ⟨hne, hsd⟩ := h
    obtain ⟨stored, hstored, heq⟩ := standsUnstacked_of_applyShown hsd
    cases stored with
    | pane storedPaneId =>
      obtain rfl := pane.inj heq
      exact ⟨hne, hstored⟩
    | split sp => exact absurd heq (by simp [applyShownStackMembers])
  | group ps =>
    obtain ⟨htwo, node, hsd, rfl⟩ := h
    obtain ⟨stored, hstored, rfl⟩ := standsUnstacked_of_applyShown hsd
    refine ⟨htwo, stored, hstored, ?_⟩
    rw [listLeafPaneIds_applyShown]

/-! ### What a placement does -/

/-- The pane stands in one split with the panes of the span, right beside them on the `direction` side. -/
def LayoutNode.StandsBeside (tree : LayoutNode) (paneId : PaneId) (spanIds : List PaneId)
    (direction : Direction) : Prop :=
  match direction with
  | .right | .down => tree.HasMember (computeSplitDirection direction) paneId spanIds []
  | .left | .up => tree.HasMember (computeSplitDirection direction) paneId [] spanIds

/-- The placed tree has the source where the target says: in the target's slot and the target in the source's, every
other pane where it was; beside every other pane of the span; or in the stack of the target, after it. -/
def IsCarriedOut (tree : LayoutNode) (sourcePaneId : PaneId) (placed : LayoutNode) : PlacementTarget → Prop
  | .swap target => ∀ paneId path, tree.findPanePath paneId = some path →
      placed.getNodeAtPath path = some (.pane (Equiv.swap sourcePaneId target paneId))
  | .insert anchor direction => ∃ spanIds : List PaneId,
      spanIds.Perm ((anchor.listSpanPaneIds tree (.pane sourcePaneId)).erase sourcePaneId) ∧
        placed.StandsBeside sourcePaneId spanIds direction
  | .stack target => ∃ earlier, target ∈ earlier ∧ placed.HasMember .stacked sourcePaneId earlier []

/-- The outcome is a tree with the same panes that carries the target out, or the refusal of such a tree because it
does not fit. -/
def IsCarriedOutOrTooSmall (tree : LayoutNode) (sourcePaneId : PaneId) (target : PlacementTarget) (area : Rect)
    (paneSizing : PaneSizing) : Prop :=
  ∃ placed : LayoutNode, placed.listLeafPaneIds.Perm tree.listLeafPaneIds ∧
    IsCarriedOut tree sourcePaneId placed target ∧
    placePaneWithinTree tree sourcePaneId target area paneSizing =
      some (if isLayoutWithinRect placed area paneSizing = true then .ok placed
        else .error (.destinationTooSmall (computeMinimumSize paneSizing placed) area.size))

theorem validateLayoutFit_eq (tree : LayoutNode) (area : Rect) (paneSizing : PaneSizing) :
    validateLayoutFit tree area paneSizing = if isLayoutWithinRect tree area paneSizing = true
      then .ok tree else .error (.destinationTooSmall (computeMinimumSize paneSizing tree) area.size) := by
  unfold validateLayoutFit
  cases isLayoutWithinRect tree area paneSizing <;> rfl

theorem standsBeside_insertLayoutNodeBesideAnchor {destinationTree insertedTree : LayoutNode}
    {anchor : PanePlacementAnchor} {direction : Direction} {sourcePaneId : PaneId} {path : List Nat} {node : LayoutNode}
    (hpath : findInsertionPath destinationTree (.pane sourcePaneId) anchor = some path)
    (hnode : destinationTree.getNodeAtPath path = some node) (hne : node.listLeafPaneIds ≠ [])
    (h : insertLayoutNodeBesideAnchor destinationTree (.pane sourcePaneId) anchor direction = some insertedTree) :
    insertedTree.StandsBeside sourcePaneId node.listLeafPaneIds direction := by
  unfold insertLayoutNodeBesideAnchor at h
  simp only [hpath, bind, Option.bind_some] at h
  obtain ⟨editedTree, hedit, hnormalized⟩ := Option.bind_eq_some_iff.1 h
  have hafter : node.listLeafPaneIds <:+ [node].flatMap listLeafPaneIds := by simp
  have hbefore : node.listLeafPaneIds <+: [node].flatMap listLeafPaneIds := by simp
  cases direction with
  | right | down =>
    exact HasMember.edit_normalize (by simpa using hne) hedit hnode
      ⟨_, [node], [], .self, rfl, rfl, hafter, nil_prefix⟩ hnormalized
  | left | up =>
    exact HasMember.edit_normalize (by simpa using hne) hedit hnode
      ⟨_, [], [node], .self, rfl, rfl, nil_suffix, hbefore⟩ hnormalized

theorem hasMember_stackPanesOntoTarget {tree stackedTree : LayoutNode} {sourcePaneId target : PaneId}
    (htarget : target ∈ tree.listLeafPaneIds)
    (h : stackPanesOntoTarget tree [sourcePaneId] target = some (.ok stackedTree)) :
    ∃ earlier, target ∈ earlier ∧ stackedTree.HasMember .stacked sourcePaneId earlier [] := by
  obtain ⟨path, hpath⟩ := isSome_iff_exists.1 (findPanePath_isSome htarget)
  have hleaf := getNodeAtPath_findPanePath hpath
  obtain ⟨found, hfound, -⟩ := findStackDepth_spec hleaf (List.range path.length).reverse
  have hpane : tree.hasPane target = true := (hasPane_iff_mem _ _).2 htarget
  unfold stackPanesOntoTarget addPanesToStack at h
  simp only [hpane, Bool.not_true, Bool.false_eq_true, if_false, cons_ne_nil, hpath, hfound, bind,
    Option.bind_some] at h
  cases found with
  | some stackDepth =>
    obtain ⟨splitNode, hnode, hstacked⟩ := findStackDepth_isStack hfound
    obtain ⟨_, _, _, hedit⟩ := getNodeAtPath_leaves hnode
    obtain ⟨editedTree, hedited, -⟩ := hedit (appendStackMembers [sourcePaneId])
    simp only [hedited, Option.bind_some] at h
    obtain ⟨normalizedTree, hnormalized, hplaced⟩ := Option.bind_eq_some_iff.1 h
    obtain rfl := Except.ok.inj (Option.some.inj hplaced)
    have hmem : target ∈ (split splitNode).listLeafPaneIds :=
      (subnode_getNodeAtPath_take hleaf hnode).leaves_subset (mem_singleton_self target)
    refine ⟨_, hmem, HasMember.edit_normalize (by simpa using ne_nil_of_mem hmem) hedited hnode
      ⟨_, splitNode.children, [], .self, hstacked, rfl, ?_, nil_prefix⟩ hnormalized⟩
    rw [listLeafPaneIds_split]
  | none =>
    obtain ⟨_, _, _, hedit⟩ := getNodeAtPath_leaves hleaf
    obtain ⟨editedTree, hedited, -⟩ := hedit fun _ => .split (.fromStackedPaneIds [target, sourcePaneId] 0)
    simp only [hedited, Option.bind_some] at h
    obtain ⟨normalizedTree, hnormalized, hplaced⟩ := Option.bind_eq_some_iff.1 h
    obtain rfl := Except.ok.inj (Option.some.inj hplaced)
    exact ⟨[target], mem_singleton_self _, HasMember.edit_normalize (by simp) hedited hleaf
      ⟨_, [.pane target], [], .self, rfl, rfl, by simp, nil_prefix⟩ hnormalized⟩

theorem isCarriedOut_swapLeaves {tree swapped : LayoutNode} {sourcePaneId target : PaneId}
    {sourcePath targetPath : List Nat} (hsource : tree.findPanePath sourcePaneId = some sourcePath)
    (htarget : tree.findPanePath target = some targetPath) (hne : target ≠ sourcePaneId)
    (h : swapLeaves tree sourcePath targetPath sourcePaneId target = some swapped) :
    IsCarriedOut tree sourcePaneId swapped (.swap target) := by
  intro paneId path hpath
  obtain ⟨firstTree, hfirst, hsecond⟩ := Option.bind_eq_some_iff.1 h
  have hsourceNode := getNodeAtPath_findPanePath hsource
  have htargetNode := getNodeAtPath_findPanePath htarget
  have hnode := getNodeAtPath_findPanePath hpath
  have hpaths : ∀ {firstPath secondPath : List Nat} {first second : PaneId},
      tree.getNodeAtPath firstPath = some (.pane first) →
      tree.getNodeAtPath secondPath = some (.pane second) → first ≠ second → firstPath ≠ secondPath := by
    rintro firstPath _ first second hleft hright hdiffer rfl
    exact hdiffer (pane.inj (Option.some.inj (hleft.symm.trans hright)))
  obtain ⟨-, -, hnewSource⟩ := getNodeAtPath_editNodeAtPath hfirst
  obtain ⟨-, -, hnewTarget⟩ := getNodeAtPath_editNodeAtPath hsecond
  have hkeptTarget := getNodeAtPath_editNodeAtPath_leaf hsourceNode htargetNode
    (hpaths hsourceNode htargetNode hne.symm) hfirst
  by_cases hself : paneId = sourcePaneId
  · subst hself
    obtain rfl := Option.some.inj (hsource.symm.trans hpath)
    rw [Equiv.swap_apply_left]
    exact getNodeAtPath_editNodeAtPath_leaf hkeptTarget hnewSource (hpaths htargetNode hsourceNode hne) hsecond
  · by_cases hother : paneId = target
    · subst hother
      obtain rfl := Option.some.inj (htarget.symm.trans hpath)
      rw [Equiv.swap_apply_right]
      exact hnewTarget
    · -- a leaf off both paths is kept by both edits
      rw [Equiv.swap_apply_of_ne_of_ne hself hother]
      have hkept := getNodeAtPath_editNodeAtPath_leaf hsourceNode hnode
        (hpaths hsourceNode hnode (Ne.symm hself)) hfirst
      exact getNodeAtPath_editNodeAtPath_leaf hkeptTarget hkept (hpaths htargetNode hnode (Ne.symm hother)) hsecond

/-! ### Placing what is listed -/

theorem validateGroupPaneIds_ok {dt : LayoutNode} {seen groupIds : List PaneId} (hnodup : groupIds.Nodup)
    (hseen : ∀ paneId ∈ groupIds, paneId ∉ seen) (hsubset : groupIds ⊆ dt.listLeafPaneIds) :
    validateGroupPaneIds dt seen groupIds = .ok () := by
  induction groupIds generalizing seen with
  | nil => rfl
  | cons groupPaneId groupIds ih =>
    obtain ⟨hnot, hr⟩ := nodup_cons.1 hnodup
    have hpa : dt.hasPane groupPaneId = true :=
      (hasPane_iff_mem _ _).2 (hsubset mem_cons_self)
    have hunseen : seen.contains groupPaneId = false := by
      simpa using hseen groupPaneId mem_cons_self
    rw [validateGroupPaneIds, hunseen, hpa]
    apply ih hr
    · intro paneId hm hmemSeen
      rcases mem_cons.1 hmemSeen with rfl | hmemSeen
      · exact hnot hm
      · exact hseen paneId (mem_cons_of_mem _ hm) hmemSeen
    · exact fun paneId hm => hsubset (mem_cons_of_mem _ hm)

section Placeable

variable {t : LayoutNode} (hnodup : t.listLeafPaneIds.Nodup) {sid : PaneId}
include hnodup

theorem validateAnchor_of_isListable (h : IsListable t sid anchor) :
    validatePlacementAnchor t sid anchor = some (.ok ()) := by
  obtain ⟨anchorPath, hpath, hfree⟩ : ∃ anchorPath, findAnchorPath t sid anchor = .ok anchorPath ∧
      t.NoStackAbove anchorPath := by
    cases anchor with
    | tab => exact ⟨[], rfl, by simp [LayoutNode.NoStackAbove]⟩
    | pane paneId =>
      obtain ⟨hne, hsd⟩ := h
      have hleaf := hsd.subnode.leaves_subset (mem_singleton_self paneId)
      obtain ⟨panePath, hpath⟩ := isSome_iff_exists.1 (findPanePath_isSome hleaf)
      refine ⟨panePath, ?_, noStackAbove_findPanePath hnodup hsd hpath⟩
      rw [findAnchorPath, if_neg hne, hpath]
    | group groupIds =>
      obtain ⟨htwo, node, hsd, rfl⟩ := h
      have hgroupNodup := hsd.subnode.nodup hnodup
      have hset : hasLeafSet (sortPaneIds node.listLeafPaneIds) node = true :=
        (hasLeafSet_sortPaneIds _ _).2 (List.Perm.refl _)
      have hnonempty : node.listLeafPaneIds ≠ [] := by
        intro hnil
        rw [hnil] at htwo
        exact absurd htwo (by decide)
      have ho : ¬(node.listLeafPaneIds.all (· == sid)) = true := by
        intro hall
        rw [List.all_eq_true] at hall
        have hone := eq_replicate_of_mem fun paneId hm => eq_of_beq (hall paneId hm)
        rw [hone, nodup_replicate] at hgroupNodup
        omega
      obtain ⟨paneId, hpa⟩ := exists_mem_of_ne_nil _ hnonempty
      obtain ⟨nodePath, hpath⟩ := isSome_iff_exists.1 (findSplitInSubtree_isSome hsd.subnode hset)
      refine ⟨nodePath, ?_, noStackAbove_findSplitInSubtree hnodup hsd hset hpa hpath⟩
      rw [findAnchorPath, findGroupAnchorPath, if_neg hnonempty,
        validateGroupPaneIds_ok hgroupNodup (fun _ _ => not_mem_nil) hsd.subnode.leaves_subset]
      dsimp only
      rw [if_neg ho, findSplitPathByLeafSet, hpath]
  rw [validatePlacementAnchor, hpath]
  dsimp only
  rw [hfree.findOutermostStackAbove]
  rfl

omit hnodup in
/-- A listed span holds a pane of the tree that stays where it is. -/
theorem exists_mem_span_of_isListable (h : IsListable t sid anchor) (hnames : anchor.NamesIn t sid) :
    ∃ other ∈ anchor.listSpanPaneIds t (.pane sid), other ≠ sid ∧ other ∈ t.listLeafPaneIds := by
  cases anchor with
  | tab =>
    obtain ⟨other, hother, hne⟩ := h
    exact ⟨other, hother, hne, hother⟩
  | pane paneId => exact ⟨paneId, mem_singleton_self paneId, hnames⟩
  | group paneIds =>
    obtain ⟨⟨other, hother, hne⟩, node, hsub, hperm⟩ := hnames
    refine ⟨other, mem_filter.2 ⟨hother, ?_⟩, hne, hsub.leaves_subset (hperm.mem_iff.2 hother)⟩
    simpa [hasPane] using hne.symm

omit hnodup in
theorem span_of_isListable (h : IsListable t sid anchor) (hnames : anchor.NamesIn t sid) {removed : LayoutNode}
    (hresolves : anchor.ResolvesIn removed (.pane sid))
    (hremoved : removed.listLeafPaneIds = t.listLeafPaneIds.erase sid) :
    ∃ path node, findInsertionPath removed (.pane sid) anchor = some path ∧
      removed.getNodeAtPath path = some node ∧ node.listLeafPaneIds ≠ [] ∧
      node.listLeafPaneIds.Perm ((anchor.listSpanPaneIds t (.pane sid)).erase sid) := by
  obtain ⟨path, node, hpath, hnode, hperm⟩ := findInsertionPath_of_resolvesIn hresolves
  obtain ⟨other, hother, hne, -⟩ := exists_mem_span_of_isListable h hnames
  have hspan : anchor.listSpanPaneIds removed (.pane sid) = (anchor.listSpanPaneIds t (.pane sid)).erase sid := by
    cases anchor with
    | tab => exact hremoved
    | pane paneId => exact (erase_of_not_mem (by simpa [PanePlacementAnchor.listSpanPaneIds] using h.1.symm)).symm
    | group paneIds =>
      exact (erase_of_not_mem (by simp [PanePlacementAnchor.listSpanPaneIds, hasPane])).symm
  rw [hspan] at hperm
  exact ⟨path, node, hpath, hnode, ne_nil_of_mem (hperm.mem_iff.2 ((mem_erase_of_ne hne).2 hother)), hperm⟩

variable (hsource : sid ∈ t.listLeafPaneIds) (area : Rect) (sz : PaneSizing)
include hsource

theorem placePaneWithinTree_insert (h : IsListable t sid anchor) (dir : Direction) :
    IsCarriedOutOrTooSmall t sid (.insert anchor dir) area sz := by
  obtain ⟨sourcePath, hpath⟩ := isSome_iff_exists.1 (findPanePath_isSome hsource)
  have hv := validateAnchor_of_isListable hnodup h
  obtain ⟨result, hres, hnames⟩ := validateAnchor_spec t sid anchor
  obtain rfl : .ok () = result := Option.some.inj (hv.symm.trans hres)
  have hspec := removeLeaf_spec sid t
  cases hrm : removeLeaf sid t with
  | paneNotFound =>
    rw [hrm] at hspec
    exact absurd hsource hspec
  | subtreeEmpty =>
    rw [hrm] at hspec
    have honly : t.listLeafPaneIds = [sid] := hspec
    obtain ⟨other, -, hne, hother⟩ := exists_mem_span_of_isListable h (hnames rfl)
    rw [honly] at hother
    exact absurd (mem_singleton.1 hother) hne
  | removed removedTree =>
    rw [hrm] at hspec
    have hresolves := (hnames rfl).resolvesIn_removeLeaf hnodup hrm
    obtain ⟨instructionTree, hins, hperm⟩ :=
      insertNodeBesideAnchor_leaves hresolves (cons_ne_nil sid []) dir
    obtain ⟨path, node, hinsertion, hnode, hne, hspan⟩ := span_of_isListable h (hnames rfl) hresolves hspec.2
    refine ⟨instructionTree, ?_, ⟨_, hspan, standsBeside_insertLayoutNodeBesideAnchor hinsertion hnode hne hins⟩, ?_⟩
    · rw [hspec.2] at hperm
      exact hperm.trans ((perm_append_singleton _ _).trans (perm_cons_erase hsource).symm)
    · unfold placePaneWithinTree
      simp only [hpath, hv, bind, Option.bind, hrm, hins, validateLayoutFit_eq]

omit hnodup in
theorem placePaneWithinTree_swap {targetId : PaneId} (htgt : targetId ∈ t.listLeafPaneIds) (hne : targetId ≠ sid) :
    IsCarriedOutOrTooSmall t sid (.swap targetId) area sz := by
  obtain ⟨path, hpath⟩ := isSome_iff_exists.1 (findPanePath_isSome hsource)
  obtain ⟨targetPath, htargetPath⟩ := isSome_iff_exists.1 (findPanePath_isSome htgt)
  obtain ⟨swapped, hswp, hperm⟩ := swapLeaves_leaves hpath htargetPath hne
  refine ⟨swapped, hperm, isCarriedOut_swapLeaves hpath htargetPath hne hswp, ?_⟩
  unfold placePaneWithinTree
  simp only [hpath, htargetPath, if_neg hne, hswp, bind, Option.bind, validateLayoutFit_eq]

omit hnodup in
theorem placePaneWithinTree_stack {targetId : PaneId} (htgt : targetId ∈ t.listLeafPaneIds) (hne : targetId ≠ sid) :
    IsCarriedOutOrTooSmall t sid (.stack targetId) area sz := by
  obtain ⟨path, hpath⟩ := isSome_iff_exists.1 (findPanePath_isSome hsource)
  have hpa : t.hasPane targetId = true := (hasPane_iff_mem _ _).2 htgt
  have hspec := removeLeaf_spec sid t
  cases hrm : removeLeaf sid t with
  | paneNotFound =>
    rw [hrm] at hspec
    exact absurd hsource hspec
  | subtreeEmpty =>
    rw [hrm] at hspec
    have honly : t.listLeafPaneIds = [sid] := hspec
    rw [honly, mem_singleton] at htgt
    exact absurd htgt hne
  | removed removedTree =>
    rw [hrm] at hspec
    have hleft : targetId ∈ removedTree.listLeafPaneIds := by
      rw [hspec.2]
      exact (mem_erase_of_ne hne).2 htgt
    rcases stackPanesOntoTarget_leaves removedTree [sid] targetId with
      ⟨habsent, -⟩ | ⟨stackTree, hsk, hperm⟩
    · exact absurd hleft habsent
    · refine ⟨stackTree, ?_, hasMember_stackPanesOntoTarget hleft hsk, ?_⟩
      · rw [hspec.2] at hperm
        exact hperm.trans ((perm_append_singleton _ _).trans (perm_cons_erase hsource).symm)
      · unfold placePaneWithinTree
        simp only [hpath, if_neg hne, hpa, Bool.not_true, Bool.false_eq_true, if_false, hrm, hsk, bind, Option.bind,
          validateLayoutFit_eq]

/-- Every listed destination, given to the mover, is carried out or too small. -/
structure DestinationsPlaceable (tree : LayoutNode) (sourcePaneId : PaneId) (area : Rect) (paneSizing : PaneSizing)
    (found : PlacementDestinations) : Prop where
  swap : ∀ slot ∈ found.targetPaneSlots, IsCarriedOutOrTooSmall tree sourcePaneId (.swap slot.paneId) area paneSizing
  stack : ∀ slot ∈ found.targetPaneSlots, IsCarriedOutOrTooSmall tree sourcePaneId (.stack slot.paneId) area paneSizing
  insert : ∀ span ∈ found.insertionSpans, ∀ direction,
    IsCarriedOutOrTooSmall tree sourcePaneId (.insert span.anchor direction) area paneSizing

theorem destinationsPlaceable_of_listable {found : PlacementDestinations}
    (hslots : ∀ slot ∈ found.targetPaneSlots, slot.paneId ∈ t.listLeafPaneIds ∧ slot.paneId ≠ sid)
    (hspans : ∀ span ∈ found.insertionSpans, IsListable t sid span.anchor) :
    DestinationsPlaceable t sid area sz found where
  swap slot hslot := placePaneWithinTree_swap hsource area sz (hslots slot hslot).1 (hslots slot hslot).2
  stack slot hslot := placePaneWithinTree_stack hsource area sz (hslots slot hslot).1 (hslots slot hslot).2
  insert span hspan direction :=
    placePaneWithinTree_insert hnodup hsource area sz (hspans span hspan) direction

end Placeable

/-- **Every listed destination can be placed.** What the lister gives for a tree with distinct leaves, solved tiled
or zoomed over any rectangle with any sizing, the mover carries out or refuses as too small: it never calls an anchor
unknown, a target absent or an insertion invalid. The same holds for the destinations listed from the tree as one
client draws it, placed in the tree as it is stored. -/
theorem listPlacementDestinations_placeable (tree : LayoutNode) (hnodup : tree.listLeafPaneIds.Nodup)
    (sourcePaneId : PaneId) (hsource : sourcePaneId ∈ tree.listLeafPaneIds) (paneSizing : PaneSizing) :
    (∀ (mode : LayoutMode) (tabRect : Rect),
      DestinationsPlaceable tree sourcePaneId tabRect paneSizing
        (listPlacementDestinations tree (solveLayoutWithMode tree mode tabRect paneSizing) tabRect sourcePaneId)) ∧
    ∀ (focusHistory : List PaneId) (tabSize : Size),
      DestinationsPlaceable tree sourcePaneId (.fromSizeAtOrigin tabSize) paneSizing
        (listShownPlacementDestinations tree focusHistory tabSize paneSizing sourcePaneId) := by
  have hsolved : ∀ (mode : LayoutMode) (tabRect : Rect),
      DestinationsPlaceable tree sourcePaneId tabRect paneSizing
        (listPlacementDestinations tree (solveLayoutWithMode tree mode tabRect paneSizing) tabRect sourcePaneId) := by
    intro mode tabRect
    obtain ⟨hslots, hspans⟩ := listDestinations_spec tree
      (solveLayoutWithMode tree mode tabRect paneSizing) tabRect sourcePaneId
    exact destinationsPlaceable_of_listable hnodup hsource tabRect paneSizing
      (fun slot hslot => (hslots slot hslot).imp_left mem_leaves_of_mem_solve) hspans
  refine ⟨hsolved, fun focusHistory tabSize => ?_⟩
  unfold listShownPlacementDestinations buildShownLayoutTree
  split_ifs
  · obtain ⟨hslots, hspans⟩ := listDestinations_spec (tree.applyShownStackMembers focusHistory)
      (solveLayoutWithMode (tree.applyShownStackMembers focusHistory) .tiled (.fromSizeAtOrigin tabSize)
        paneSizing) (.fromSizeAtOrigin tabSize) sourcePaneId
    refine destinationsPlaceable_of_listable hnodup hsource _ paneSizing (fun slot hslot => ?_) fun span hspan =>
      isListable_of_applyShown (hspans span hspan)
    have hleaf := mem_leaves_of_mem_solve (hslots slot hslot).1
    rw [listLeafPaneIds_applyShown] at hleaf
    exact ⟨hleaf, (hslots slot hslot).2⟩
  · exact hsolved .tiled _

/-- A pane beside a column of a pane and a stack of two. -/
def stackedCornerTree : LayoutNode :=
  .split (.withEqualWeights .horizontal [.pane ⟨1⟩,
    .split (.withEqualWeights .vertical [.pane ⟨2⟩, .split (.fromStackedPaneIds [⟨3⟩, ⟨4⟩] 0)])])

/-- The theorem at the active member of a stack: every other pane is a slot, the collapsed member on its header. -/
theorem listPlacementDestinations_placeable_stackedCornerTree :
    DestinationsPlaceable stackedCornerTree ⟨3⟩ (.fromSizeAtOrigin ⟨80, 24⟩) .default
        (listPlacementDestinations stackedCornerTree
          (solveLayoutWithMode stackedCornerTree .tiled (.fromSizeAtOrigin ⟨80, 24⟩) .default)
          (.fromSizeAtOrigin ⟨80, 24⟩) ⟨3⟩) ∧
      (listPlacementDestinations stackedCornerTree
          (solveLayoutWithMode stackedCornerTree .tiled (.fromSizeAtOrigin ⟨80, 24⟩) .default)
          (.fromSizeAtOrigin ⟨80, 24⟩) ⟨3⟩).targetPaneSlots.map (·.paneId) = [⟨1⟩, ⟨2⟩, ⟨4⟩] :=
  ⟨(listPlacementDestinations_placeable stackedCornerTree (by decide) ⟨3⟩ (by decide) .default).1 .tiled
    (.fromSizeAtOrigin ⟨80, 24⟩), by decide +kernel⟩

end Koshi.Layout
