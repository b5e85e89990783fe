import Koshi.Layout.Proof.Edit
import Koshi.Layout.Proof.ResizeMeasure

/-!
# The border a resize moves, in its tree

The border resolved for a pane belongs to a split on the way to the pane, between the child on that way and a child
next to it. Putting another split with the same children and the same weights but for offsets in its place changes no
rect on the way down to it.
-/

namespace Koshi.Layout

open Koshi.Base Koshi.Core LayoutNode List

/-! ### Walking to a node -/

variable (layoutNode : LayoutNode)

namespace LayoutNode

/-- Walking along `firstPath ++ secondPath` is walking along the first, then along the second from there. -/
theorem getNodeAtPath_append (firstPath secondPath : List Nat) :
    layoutNode.getNodeAtPath (firstPath ++ secondPath) = (layoutNode.getNodeAtPath firstPath).bind
      (·.getNodeAtPath secondPath) := by
  induction firstPath generalizing layoutNode with
  | nil => simp [getNodeAtPath]
  | cons index firstPath ih =>
    cases layoutNode with
    | pane paneId => simp [getNodeAtPath]
    | split node =>
      rw [cons_append, getNodeAtPath, getNodeAtPath]
      cases node.children[index]? with
      | none => rfl
      | some child => exact ih child

theorem getSplitAtPath_eq_some_iff {layoutNode : LayoutNode} {path : List Nat} {node : SplitNode LayoutNode} :
    layoutNode.getSplitAtPath path = some node ↔ layoutNode.getNodeAtPath path = some (.split node) := by
  unfold getSplitAtPath
  constructor
  · intro h
    split at h
    · next heq => rw [heq, Option.some.inj h]
    · cases h
  · intro h
    rw [h]

end LayoutNode

theorem countVisiblePathLength_le (panePath : List Nat) :
    countVisiblePathLength layoutNode panePath ≤ panePath.length := by
  induction panePath generalizing layoutNode with
  | nil => cases layoutNode <;> exact le_refl _
  | cons index panePath ih =>
    cases layoutNode with
    | pane paneId => exact le_refl _
    | split node =>
      rw [countVisiblePathLength]
      split_ifs
      · exact Nat.zero_le _
      · cases node.children[index]? with
        | none => exact Nat.zero_le _
        | some child => exact Nat.succ_le_succ (ih child)

/-! ### The rects on the way down stay within `u16` -/

section Rects

variable {sz : PaneSizing}

variable {node : SplitNode LayoutNode}

theorem sizeWithinU16_childRects {splitRect : Rect} (hw : SizeWithinU16 splitRect.size) :
    ∀ r ∈ computeDirectionalChildRects node splitRect sz, SizeWithinU16 r.size := by
  obtain ⟨-, -, -, hfl⟩ := @listKeptChildren_together _ _ (.refl node) splitRect sz rfl
  have hav := @sharedCellCount_le node splitRect sz hw
  rw [computeDirectionalChildRects]
  generalize listKeptChildren node splitRect sz = keptChildren at hfl hav ⊢
  refine sizeWithinU16_layChildRects hw fun cellCount hm => ?_
  by_cases hne : keptChildren.keptWeights = []
  · rw [hne] at hfl hm
    rw [distributeAxisCells_nil _ _ (eq_nil_of_length_eq_zero hfl)] at hm
    exact absurd hm not_mem_nil
  · obtain ⟨⟨-, hsum⟩, -⟩ := distributeAxisCells_axis hav hne hfl
    have hle := single_le_sum (by simp) _ hm
    omega

theorem getD_rects_mem {rs : List Rect} {P : Rect → Prop} (hem : P .buildEmptyAtOrigin) (h : ∀ r ∈ rs, P r)
    (i : Nat) : P (rs.getD i .buildEmptyAtOrigin) := by
  by_cases hlt : i < rs.length
  · rw [getD_eq_getElem _ _ hlt]
    exact h _ (getElem_mem hlt)
  · rw [getD_eq_default _ _ (not_lt.1 hlt)]
    exact hem

theorem computeChildRect_of_ne (h : node.direction ≠ .stacked) (r : Rect)
    (index : Nat) : computeChildRect node r sz index =
      (computeDirectionalChildRects node r sz).getD index .buildEmptyAtOrigin := by
  unfold computeChildRect
  split
  · rfl
  · rfl
  · next hsk => exact absurd hsk h

theorem childRect_of_stacked (h : node.direction = .stacked) (r : Rect)
    (index : Nat) : computeChildRect node r sz index =
      (computeStackedChildRects node r sz).getD index .buildEmptyAtOrigin := by
  rw [computeChildRect, h]

theorem sizeWithinU16_childRect (node : SplitNode LayoutNode) {r : Rect} (hw : SizeWithinU16 r.size) (index : Nat) :
    SizeWithinU16 (computeChildRect node r sz index).size := by
  have hz : SizeWithinU16 Rect.buildEmptyAtOrigin.size := ⟨Nat.zero_le _, Nat.zero_le _⟩
  by_cases hdir : node.direction = .stacked
  · rw [childRect_of_stacked hdir]
    exact getD_rects_mem hz (sizeWithinU16_stackedRects hw) index
  · rw [computeChildRect_of_ne hdir]
    exact getD_rects_mem hz (sizeWithinU16_childRects hw) index

theorem sizeWithinU16_rectAtPath {r : Rect} (hw : SizeWithinU16 r.size) (path : List Nat) :
    SizeWithinU16 (computeRectAtPath sz layoutNode r path).size := by
  induction path generalizing layoutNode r with
  | nil =>
    rw [computeRectAtPath]
    exact hw
  | cons index path ih =>
    cases layoutNode with
    | pane paneId => exact hw
    | split node =>
      have hch := @sizeWithinU16_childRect sz node r hw index
      rw [computeRectAtPath]
      cases node.children[index]? with
      | none => exact hch
      | some child => exact ih child hch

end Rects

/-! ### The border of a pane -/

section Border

variable {tree : LayoutNode} {ar : Rect} {paneId : PaneId} {dir : Direction} {isGrowing : Bool} {sz : PaneSizing}
  {border : ResizeBorder}

variable {neighbor : Nat} {panePath : List Nat} {splitAxis : SplitDirection}

theorem findAdjacentChildIndex_some {cc index : Nat} (h : findAdjacentChildIndex dir cc index = some neighbor)
    (hlt : index < cc) : neighbor < cc ∧
      if dir = .right ∨ dir = .down then neighbor = index + 1
      else index = neighbor + 1 := by
  unfold findAdjacentChildIndex at h
  cases dir <;> simp only [reduceCtorEq, or_self, if_false, true_or, or_true, if_true] <;>
    dsimp only at h <;> split_ifs at h <;> have heq := Option.some.inj h <;> omega

/-- The split that owns a border, and the two children beside it. -/
structure FindsBorder (tree : LayoutNode) (panePath : List Nat) (splitAxis : SplitDirection) (dir : Direction)
    (depth index neighbor : Nat) (splitNode : SplitNode LayoutNode) : Prop where
  visible : depth < countVisiblePathLength tree panePath
  split_eq : tree.getSplitAtPath (panePath.take depth) = some splitNode
  direction_eq : splitNode.direction = splitAxis
  child_eq : panePath.getD depth 0 = index
  adjacent_eq : findAdjacentChildIndex dir splitNode.children.length index = some neighbor

theorem findResizeBorder_some {depth index : Nat}
    (h : findResizeBorder tree panePath splitAxis dir = some (depth, index, neighbor)) :
    ∃ node, FindsBorder tree panePath splitAxis dir depth index neighbor
      node := by
  obtain ⟨ancestorDepth, hm, heq⟩ := exists_of_findSome?_eq_some h
  rw [mem_reverse, mem_range] at hm
  cases hsp : tree.getSplitAtPath (panePath.take ancestorDepth) with
  | none =>
    rw [hsp] at heq
    cases heq
  | some node =>
    rw [hsp] at heq
    dsimp only at heq
    split_ifs at heq with hdir
    · obtain ⟨adjacent, hadj, hfo⟩ := Option.map_eq_some_iff.1 heq
      obtain ⟨rfl, rfl, rfl⟩ : ancestorDepth = depth ∧ panePath.getD ancestorDepth 0 = index ∧
          adjacent = neighbor := by simpa using hfo
      exact ⟨node, hm, hsp, not_not.1 hdir, rfl, hadj⟩

theorem findResizeBorder_none (h : findResizeBorder tree panePath splitAxis dir = none) {depth : Nat}
    (hvis : depth < countVisiblePathLength tree panePath) {node : SplitNode LayoutNode}
    (hsp : tree.getSplitAtPath (panePath.take depth) = some node) (hdir : node.direction = splitAxis) :
    findAdjacentChildIndex dir node.children.length (panePath.getD depth 0) = none := by
  have hnone := findSome?_eq_none_iff.1 h depth (mem_reverse.2 (mem_range.2 hvis))
  rw [hsp] at hnone
  dsimp only at hnone
  rw [if_neg (not_not.2 hdir), Option.map_eq_none_iff] at hnone
  exact hnone

theorem FindsBorder.child_lt {depth index : Nat} {node : SplitNode LayoutNode}
    (h : FindsBorder tree panePath splitAxis dir depth index neighbor node)
    (hpath : tree.findPanePath paneId = some panePath) : index < node.children.length := by
  have hdepth : depth < panePath.length := h.visible.trans_le (countVisiblePathLength_le tree panePath)
  have hno := getNodeAtPath_findPanePath hpath
  have hch : panePath[depth] = index := by
    rw [← h.child_eq, getD_eq_getElem _ _ hdepth]
  rw [← take_append_drop depth panePath, getNodeAtPath_append,
    getSplitAtPath_eq_some_iff.1 h.split_eq, Option.bind_some, drop_eq_getElem_cons hdepth,
    getNodeAtPath, hch] at hno
  by_contra hnot
  rw [getElem?_eq_none (not_lt.1 hnot)] at hno
  cases hno

/-- **What a resolved border is.** -/
theorem resolveResizeBorder_ok (h : resolveResizeBorder tree ar paneId dir isGrowing sz = .ok border) :
    ∃ panePath depth index neighbor node,
      tree.findPanePath paneId = some panePath ∧
      FindsBorder tree panePath (computeSplitDirection dir) dir depth index neighbor node ∧
      border = {
        splitPath := panePath.take depth
        splitNode := { node with weights := padWeights node.weights node.children.length }
        splitRect := computeRectAtPath sz tree ar (panePath.take depth)
        paneSizing := sz
        isHorizontalSplit := computeSplitDirection dir = .horizontal
        receivingChildIndex := if isGrowing then index else neighbor
        donatingChildIndex := if isGrowing then neighbor else index } := by
  unfold resolveResizeBorder at h
  cases hpath : tree.findPanePath paneId with
  | none =>
    rw [hpath] at h
    cases h
  | some panePath =>
    rw [hpath] at h
    dsimp only at h
    cases hbrd : findResizeBorder tree panePath (computeSplitDirection dir) dir with
    | none =>
      rw [hbrd] at h
      cases h
    | some found =>
      obtain ⟨depth, index, neighbor⟩ := found
      rw [hbrd] at h
      dsimp only at h
      obtain ⟨node, hfinds⟩ := findResizeBorder_some hbrd
      rw [hfinds.split_eq, Option.getD_some] at h
      exact ⟨panePath, depth, index, neighbor, node, rfl, hfinds, (Except.ok.inj h).symm⟩

/-- **A resolved border is well formed.** -/
theorem resolveResizeBorder_wellFormed (hw : SizeWithinU16 ar.size)
    (h : resolveResizeBorder tree ar paneId dir isGrowing sz = .ok border) :
    border.WellFormed := by
  obtain ⟨panePath, depth, index, neighbor, node, hpath, hfinds, rfl⟩ := resolveResizeBorder_ok h
  have hch := hfinds.child_lt hpath
  obtain ⟨hadj, hn⟩ := findAdjacentChildIndex_some hfinds.adjacent_eq hch
  have hne : index ≠ neighbor := by
    split_ifs at hn <;> omega
  refine ⟨?_, ?_, ?_, ?_, ?_, sizeWithinU16_rectAtPath tree hw _⟩
  · dsimp only
    rw [hfinds.direction_eq]
  · cases isGrowing
    · exact hne.symm
    · exact hne
  · cases isGrowing
    · exact hadj
    · exact hch
  · cases isGrowing
    · exact hch
    · exact hadj
  · dsimp only
    rw [length_padWeights]
    exact le_max_right _ _

theorem resolveResizeBorder_isBorderMovingForward
    (h : resolveResizeBorder tree ar paneId dir isGrowing sz = .ok border) :
    border.isBorderMovingForward = (decide (dir = .right ∨ dir = .down) == isGrowing) := by
  obtain ⟨panePath, depth, index, neighbor, node, hpath, hfinds, rfl⟩ := resolveResizeBorder_ok h
  obtain ⟨-, hn⟩ := findAdjacentChildIndex_some hfinds.adjacent_eq (hfinds.child_lt hpath)
  unfold ResizeBorder.isBorderMovingForward
  dsimp only
  split_ifs at hn with hside <;> cases isGrowing <;> simp [hside, hn]

end Border

/-! ### Another split in place of one -/

section Replaced

variable {sz : PaneSizing}

variable {node : SplitNode LayoutNode} {others : List LayoutNode}

section

variable (hroom : List.Forall₂ (SameRoom sz) node.children others)

include hroom

/-- The rects of a split's children stay where the children need the room they needed. -/
theorem directionalRects_of_sameRoom (r : Rect) :
    computeDirectionalChildRects { node with children := others } r sz = computeDirectionalChildRects node r sz := by
  have hsizes := minimumSizes_of_sameRoom hroom
  simp only [computeDirectionalChildRects, listKeptChildren, hsizes]
  rfl

theorem stackedRects_of_sameRoom (r : Rect) :
    computeStackedChildRects { node with children := others } r sz = computeStackedChildRects node r sz := by
  have hsizes := minimumSizes_of_sameRoom hroom
  have hlen := hroom.length_eq
  simp only [computeStackedChildRects, computeStackMinimumSize, computeStackMinimumSizeFrom,
    SplitNode.getActiveChildIndex, hsizes, hlen]
  rfl

theorem childRect_of_sameRoom (r : Rect) (index : Nat) :
    computeChildRect { node with children := others } r sz index = computeChildRect node r sz index := by
  simp only [computeChildRect, directionalRects_of_sameRoom hroom, stackedRects_of_sameRoom hroom]

end

structure ReplacesSplit (paneSizing : PaneSizing) (tree replacedTree : LayoutNode) (splitPath : List Nat)
    (otherNode : SplitNode LayoutNode) : Prop where
  edit_eq : tree.editNodeAtPath (fun _ => .split otherNode) splitPath = some replacedTree
  room : SameRoom paneSizing tree replacedTree
  split_eq : replacedTree.getSplitAtPath splitPath = some otherNode
  rect_eq : ∀ rect, computeRectAtPath paneSizing replacedTree rect splitPath =
    computeRectAtPath paneSizing tree rect splitPath

/-- **Putting a split that needs the same room in a split's place** changes no rect on the way down to it. -/
theorem replacesSplit {tree : LayoutNode} {splitPath : List Nat} {other : SplitNode LayoutNode}
    (hsp : tree.getSplitAtPath splitPath = some node) (hroom : SameRoom sz (.split node) (.split other)) :
    ∃ replacedTree, ReplacesSplit sz tree replacedTree splitPath other := by
  induction splitPath generalizing tree with
  | nil =>
    obtain rfl : tree = .split node := by
      simpa [getNodeAtPath] using getSplitAtPath_eq_some_iff.1 hsp
    refine ⟨.split other, by simp [editNodeAtPath], hroom, ?_, fun r => ?_⟩
    · simp [getSplitAtPath, getNodeAtPath]
    · simp [computeRectAtPath]
  | cons index splitPath ih =>
    cases tree with
    | pane paneId => simp [getSplitAtPath, getNodeAtPath] at hsp
    | split parent =>
      rw [getSplitAtPath_eq_some_iff, getNodeAtPath] at hsp
      cases hg : parent.children[index]? with
      | none =>
        rw [hg] at hsp
        cases hsp
      | some child =>
        rw [hg] at hsp
        obtain ⟨newChild, hedit, hchildRoom, hchildSplit, hchildRect⟩ :=
          ih (getSplitAtPath_eq_some_iff.2 hsp)
        obtain ⟨hlt, hch⟩ := List.getElem?_eq_some_iff.1 hg
        have hset : (parent.children.set index newChild)[index]? = some newChild :=
          getElem?_set_self hlt
        have hcs : List.Forall₂ (SameRoom sz) parent.children (parent.children.set index newChild) := by
          refine forall₂_iff_get.2 ⟨by simp, fun i hi hi' => ?_⟩
          simp only [get_eq_getElem, getElem_set]
          split_ifs with heq
          · subst heq
            rw [hch]
            exact hchildRoom
          · exact .refl _
        refine ⟨.split { parent with children := parent.children.set index newChild }, ?_,
          SameRoom.split ⟨rfl, fun _ => rfl⟩ rfl hcs, ?_, fun r => ?_⟩
        · rw [editNodeAtPath, hg]
          simp only [hedit, Option.map_some]
        · rw [getSplitAtPath_eq_some_iff, getNodeAtPath]
          dsimp only
          rw [hset]
          exact getSplitAtPath_eq_some_iff.1 hchildSplit
        · rw [computeRectAtPath, computeRectAtPath]
          dsimp only
          rw [hset, hg, childRect_of_sameRoom hcs]
          exact hchildRect _

end Replaced

end Koshi.Layout
