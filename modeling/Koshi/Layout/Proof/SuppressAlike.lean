import Koshi.Layout.Proof.ResizeBorder

/-!
# Solves that suppress the same panes

Two solves agree when they suppress the same panes. Solving a tree over two rects agrees when one axis of the rects is
the same and the tree has room along the other in both: nothing is dropped along that axis, and the drops across it
are decided by the same counts.
-/

namespace Koshi.Layout

open Base Koshi.Core List LayoutNode Option

/-- Two solve states of one sizing that list the same suppressed panes. -/
structure SuppressAlike (paneSizing : PaneSizing) (solved state' : LayoutSolveState) : Prop where
  sizing_eq : solved.paneSizing = paneSizing
  other_sizing_eq : state'.paneSizing = paneSizing
  suppressed_eq : state'.suppressedPaneIds = solved.suppressedPaneIds

/-- What a directional split does with one child. -/
def placeChild (childRect : Rect) (solved : LayoutSolveState) (child : LayoutNode) : LayoutSolveState :=
  if childRect.isEmpty then suppressLayoutSubtree child solved else solveLayoutNode childRect solved child

def placeMember (activeIndex members member : Nat) (childRect : Rect) (solved : LayoutSolveState)
    (child : LayoutNode) : LayoutSolveState :=
  if childRect.isEmpty then suppressLayoutSubtree child solved
  else if member = activeIndex then solveLayoutNode childRect solved child
  else emitStackHeader child childRect member members solved

section Alike

variable {sz : PaneSizing}

variable {solved state' : LayoutSolveState} {child child' : LayoutNode} {rect rect' : Rect} {sp : SplitNode LayoutNode}
  {horizontal : Bool}

/-- Solving the two nodes over their rects keeps states that agree in agreement. -/
def SolvesAlike (paneSizing : PaneSizing) (layoutNode node' : LayoutNode) (rect rect' : Rect) : Prop :=
  ∀ solved state', SuppressAlike paneSizing solved state' →
    SuppressAlike paneSizing (solveLayoutNode rect solved layoutNode) (solveLayoutNode rect' state' node')

/-- Placing the two children in their rects does. -/
def PlacesAlike (paneSizing : PaneSizing) (child child' : LayoutNode) (rect rect' : Rect) : Prop :=
  ∀ solved state', SuppressAlike paneSizing solved state' →
    SuppressAlike paneSizing (placeChild rect solved child) (placeChild rect' state' child')

/-! ### One child -/

theorem SuppressAlike.suppress (h : SuppressAlike sz solved state')
    (hlv : child'.listLeafPaneIds = child.listLeafPaneIds) :
    SuppressAlike sz (suppressLayoutSubtree child solved) (suppressLayoutSubtree child' state') := by
  rw [suppressLayoutSubtree_eq, suppressLayoutSubtree_eq, hlv]
  refine ⟨h.sizing_eq, h.other_sizing_eq, ?_⟩
  simp only [LayoutSolveState.extend, h.suppressed_eq]

theorem SuppressAlike.header (h : SuppressAlike sz solved state') (child child' : LayoutNode) (headerRect rect' : Rect)
    (member members : Nat) :
    SuppressAlike sz (emitStackHeader child headerRect member members solved)
      (emitStackHeader child' rect' member members state') := by
  unfold emitStackHeader
  cases child.listLeafPaneIds <;> cases child'.listLeafPaneIds <;>
    exact ⟨h.sizing_eq, h.other_sizing_eq, h.suppressed_eq⟩

theorem PlacesAlike.of_solves (hlv : child'.listLeafPaneIds = child.listLeafPaneIds)
    (hem : rect'.isEmpty = rect.isEmpty) (hslv : rect.isEmpty = false → SolvesAlike sz child child' rect rect') :
    PlacesAlike sz child child' rect rect' := by
  intro solved state' h
  unfold placeChild
  rw [hem]
  cases hrc : rect.isEmpty with
  | true => exact h.suppress hlv
  | false => exact hslv hrc _ _ h

/-! ### The children of a split -/

variable {children children' : List LayoutNode} {rs others : List Rect}

theorem solveDirectional_alike (hcs : children.length = children'.length) (hrcs : rs.length = others.length)
    (halike : ∀ (i : Nat) child child' rect rect', children[i]? = some child →
      children'[i]? = some child' → rs[i]? = some rect → others[i]? = some rect' →
      PlacesAlike sz child child' rect rect') (h : SuppressAlike sz solved state') :
    SuppressAlike sz (solveDirectionalChildren rs solved children)
      (solveDirectionalChildren others state' children') := by
  induction children generalizing children' rs others solved state' with
  | nil =>
    obtain rfl : children' = [] := eq_nil_of_length_eq_zero hcs.symm
    exact h
  | cons child children ih =>
    obtain _ | ⟨child', children'⟩ := children'
    · cases hcs
    · obtain _ | ⟨rect, rs⟩ := rs
      · obtain rfl : others = [] := eq_nil_of_length_eq_zero hrcs.symm
        exact h
      · obtain _ | ⟨rect', others⟩ := others
        · cases hrcs
        · rw [solveDirectionalChildren, solveDirectionalChildren]
          exact ih (Nat.succ.inj hcs) (Nat.succ.inj hrcs)
            (fun i child child' rect rect' h1 h2 h3 h4 => halike (i + 1) child child' rect rect' h1 h2 h3 h4)
            (halike 0 child child' rect rect' rfl rfl rfl rfl _ _ h)

theorem solveStacked_alike {active members : Nat} (member : Nat) (hcs : children.length = children'.length)
    (hrcs : rs.length = others.length)
    (halike : ∀ (i : Nat) child child' rect rect', children[i]? = some child →
      children'[i]? = some child' → rs[i]? = some rect → others[i]? = some rect' →
      ∀ solved state', SuppressAlike sz solved state' →
        SuppressAlike sz (placeMember active members (member + i) rect solved child)
          (placeMember active members (member + i) rect' state' child'))
    (h : SuppressAlike sz solved state') :
    SuppressAlike sz (solveStackedChildren active members member rs solved children)
      (solveStackedChildren active members member others state' children') := by
  induction children generalizing children' rs others member solved state' with
  | nil =>
    obtain rfl : children' = [] := eq_nil_of_length_eq_zero hcs.symm
    exact h
  | cons child children ih =>
    obtain _ | ⟨child', children'⟩ := children'
    · cases hcs
    · obtain _ | ⟨rect, rs⟩ := rs
      · obtain rfl : others = [] := eq_nil_of_length_eq_zero hrcs.symm
        exact h
      · obtain _ | ⟨rect', others⟩ := others
        · cases hrcs
        · rw [solveStackedChildren, solveStackedChildren]
          refine ih (member + 1) (Nat.succ.inj hcs) (Nat.succ.inj hrcs)
            (fun i child child' rect rect' h1 h2 h3 h4 => ?_)
            (halike 0 child child' rect rect' rfl rfl rfl rfl _ _ h)
          rw [Nat.add_assoc, Nat.add_comm 1 i]
          exact halike (i + 1) child child' rect rect' h1 h2 h3 h4

variable {active members member : Nat}

/-- A member of a stack is placed alike when its rects are empty together and, if it is the shown one, it solves
alike. -/
theorem placeMember_alike (hlv : child'.listLeafPaneIds = child.listLeafPaneIds)
    (hem : rect'.isEmpty = rect.isEmpty) (hslv : member = active → rect.isEmpty = false →
      SolvesAlike sz child child' rect rect') (h : SuppressAlike sz solved state') :
    SuppressAlike sz (placeMember active members member rect solved child)
      (placeMember active members member rect' state' child') := by
  unfold placeMember
  rw [hem]
  cases hrc : rect.isEmpty with
  | true => exact h.suppress hlv
  | false =>
    by_cases hact : member = active
    · simp only [Bool.false_eq_true, if_false, if_pos hact]
      exact hslv hact hrc _ _ h
    · simp only [Bool.false_eq_true, if_false, if_neg hact]
      exact h.header _ _ _ _ _ _

theorem solvesAlike_refl (nd : LayoutNode) (rect : Rect) : SolvesAlike sz nd nd rect rect := by
  induction nd generalizing rect with
  | pane paneId =>
    intro solved state' h
    obtain ⟨hsz, ho, hsupp⟩ := h
    rw [solveLayoutNode, solveLayoutNode, hsz, ho]
    split_ifs
    · exact ⟨rfl, rfl, hsupp⟩
    · exact ⟨rfl, rfl, congrArg (· ++ [paneId]) hsupp⟩
  | split sp ih =>
    intro solved state' h
    by_cases hdir : sp.direction = .stacked
    · rw [solveNode_split_of_stacked hdir, solveNode_split_of_stacked hdir, h.sizing_eq, h.other_sizing_eq]
      refine solveStacked_alike 0 rfl rfl (fun i child child' rect rect' h1 h2 h3 h4 => ?_) h
      obtain rfl : child = child' := some.inj (h1.symm.trans h2)
      obtain rfl : rect = rect' := some.inj (h3.symm.trans h4)
      exact fun _ _ => placeMember_alike rfl rfl fun _ _ => ih child (mem_of_getElem? h1) rect
    · rw [solveNode_split_of_ne hdir, solveNode_split_of_ne hdir, h.sizing_eq, h.other_sizing_eq]
      refine solveDirectional_alike rfl rfl (fun i child child' rect rect' h1 h2 h3 h4 => ?_) h
      obtain rfl : child = child' := some.inj (h1.symm.trans h2)
      obtain rfl : rect = rect' := some.inj (h3.symm.trans h4)
      exact .of_solves rfl rfl fun _ => ih child (mem_of_getElem? h1) rect

/-! ### A split replaced -/

/-- **Replacing a split by one that solves alike in its rect** keeps the suppressed panes of the whole tree. -/
theorem solvesAlike_editNodeAtPath {t replaced : LayoutNode} {splitPath : List Nat} {node' : SplitNode LayoutNode}
    (hsp : t.getSplitAtPath splitPath = some sp) (hroom : SameRoom sz (.split sp) (.split node'))
    (hedit : t.editNodeAtPath (fun _ => .split node') splitPath = some replaced)
    (hslv : SolvesAlike sz (.split sp) (.split node')
      (computeRectAtPath sz t rect splitPath) (computeRectAtPath sz t rect splitPath)) :
    SolvesAlike sz t replaced rect rect := by
  induction splitPath generalizing t replaced rect with
  | nil =>
    obtain rfl : t = .split sp := by
      simpa [getNodeAtPath] using getSplitAtPath_eq_some_iff.1 hsp
    obtain rfl : replaced = .split node' := by simpa [editNodeAtPath, eq_comm] using hedit
    simpa [computeRectAtPath] using hslv
  | cons index splitPath ih =>
    cases t with
    | pane paneId => simp [getSplitAtPath, getNodeAtPath] at hsp
    | split parent =>
      rw [getSplitAtPath_eq_some_iff, getNodeAtPath] at hsp
      rw [editNodeAtPath] at hedit
      rw [computeRectAtPath] at hslv
      cases hg : parent.children[index]? with
      | none =>
        rw [hg] at hsp
        cases hsp
      | some child =>
        rw [hg] at hsp hedit hslv
        dsimp only at hedit hslv
        obtain ⟨replacedChild, hchildEdit, rfl⟩ := map_eq_some_iff.1 hedit
        have hchildSplit := getSplitAtPath_eq_some_iff.2 hsp
        obtain ⟨child', hotherChildEdit, hchildRoom, -, -⟩ := replacesSplit hchildSplit hroom
        obtain rfl : child' = replacedChild := some.inj (hotherChildEdit.symm.trans hchildEdit)
        have hchildSolved := ih hchildSplit hchildEdit hslv
        have hset : ∀ (i : Nat) nd node', parent.children[i]? = some nd →
            (parent.children.set index child')[i]? = some node' →
            i ≠ index ∧ nd = node' ∨ i = index ∧ nd = child ∧ node' = child' := by
          intro i nd other h1 h2
          by_cases heq : i = index
          · subst heq
            rw [List.getElem?_set_self (List.getElem?_eq_some_iff.1 hg).1] at h2
            exact .inr ⟨rfl, some.inj (h1.symm.trans hg), (some.inj h2).symm⟩
          · rw [List.getElem?_set_ne (Ne.symm heq)] at h2
            exact .inl ⟨heq, some.inj (h1.symm.trans h2)⟩
        have hlen : parent.children.length = (parent.children.set index child').length := by
          rw [length_set]
        have hcs : List.Forall₂ (SameRoom sz) parent.children (parent.children.set index child') := by
          refine forall₂_iff_get.2 ⟨hlen, fun i hi hi' => ?_⟩
          obtain ⟨-, heq⟩ | ⟨-, heq, ho⟩ := hset i _ _ (List.getElem?_eq_getElem hi) (List.getElem?_eq_getElem hi')
          · rw [get_eq_getElem, get_eq_getElem, ← heq]
            exact .refl _
          · rw [get_eq_getElem, get_eq_getElem, heq, ho]
            exact hchildRoom
        intro solved state' h
        by_cases hdir : parent.direction = .stacked
        · rw [solveNode_split_of_stacked hdir, @solveNode_split_of_stacked
            { parent with children := parent.children.set index child' } hdir, h.sizing_eq,
            h.other_sizing_eq, stackedRects_of_sameRoom hcs]
          dsimp only [SplitNode.getActiveChildIndex]
          rw [← hlen]
          refine solveStacked_alike 0 hlen rfl (fun i nd other nodeRect rect' h1 h2 h3 h4 => ?_) h
          obtain rfl : nodeRect = rect' := some.inj (h3.symm.trans h4)
          obtain ⟨-, rfl⟩ | ⟨rfl, rfl, rfl⟩ := hset i nd other h1 h2
          · exact fun _ _ => placeMember_alike rfl rfl fun _ _ => solvesAlike_refl _ _
          · refine fun _ _ => placeMember_alike hchildRoom.leaves_eq rfl fun _ _ => ?_
            have hrc : computeChildRect parent rect sz i = nodeRect := by
              rw [childRect_of_stacked hdir, getD_eq_getElem?_getD, h3]
              rfl
            rw [← hrc]
            exact hchildSolved
        · rw [solveNode_split_of_ne hdir, @solveNode_split_of_ne
            { parent with children := parent.children.set index child' } hdir, h.sizing_eq,
            h.other_sizing_eq, directionalRects_of_sameRoom hcs]
          refine solveDirectional_alike hlen rfl (fun i nd other nodeRect rect' h1 h2 h3 h4 => ?_) h
          obtain rfl : nodeRect = rect' := some.inj (h3.symm.trans h4)
          obtain ⟨-, rfl⟩ | ⟨rfl, rfl, rfl⟩ := hset i nd other h1 h2
          · exact .of_solves rfl rfl fun _ => solvesAlike_refl _ _
          · refine .of_solves hchildRoom.leaves_eq rfl fun _ => ?_
            have hrc : computeChildRect parent rect sz i = nodeRect := by
              rw [computeChildRect_of_ne hdir, getD_eq_getElem?_getD, h3]
              rfl
            rw [← hrc]
            exact hchildSolved

/-! ### A subtree with a leaf needs a cell -/

theorem one_le_minimumSize {nd : LayoutNode} (h : nd.listLeafPaneIds ≠ []) :
    1 ≤ (computeMinimumSize sz nd).columnCount ∧ 1 ≤ (computeMinimumSize sz nd).rowCount := by
  induction nd with
  | pane paneId => simp [computeMinimumSize, computeBorderInclusiveMinimum, RequiredSize.fromSizeSum, paneBorderSize]
  | split sp ih =>
    rw [listLeafPaneIds_split, ne_eq, flatMap_eq_nil_iff, not_forall] at h
    obtain ⟨child, hch⟩ := h
    obtain ⟨hm, hleaf⟩ := Classical.not_imp.1 hch
    have hroom := ih child hm hleaf
    by_cases hstk : sp.direction = .stacked
    · rw [minimumSize_split_of_stacked _ hstk]
      have hne := ne_nil_of_mem hm
      have hlt := sp.getActiveChildIndex_lt hne
      obtain ⟨hco, hrows⟩ := stackMinimumSize_axes sp sz (List.getElem?_eq_getElem hlt)
      have hwidest := hco child hm
      refine ⟨by omega, ?_⟩
      rw [hrows]
      by_cases hone : sp.children.length = 1
      · obtain ⟨only, honly⟩ := length_eq_one_iff.1 hone
        have hact : sp.children[sp.getActiveChildIndex] = child := by
          have hactiveMem := getElem_mem hlt
          rw [honly, mem_singleton] at hm
          rw [hm]
          simp only [honly] at hactiveMem ⊢
          exact mem_singleton.1 hactiveMem
        rw [hact]
        unfold satAdd32 u32Max
        omega
      · have hpos := length_pos_iff.2 hne
        unfold satAdd32 tryU32OrMax u32Max
        split_ifs <;> omega
    · rw [minimumSize_split_of_ne _ hstk]
      obtain ⟨haxis, hcross⟩ := directionalMinimumSize_axes sp (computeMinimumSizes sz sp.children) sz
      have hsize : computeMinimumSize sz child ∈ computeMinimumSizes sz sp.children := by
        rw [minimumSizes_eq_map]
        exact List.mem_map_of_mem hm
      have hsum := axisMinimum_le_sum_childFloors sp hsize
      have hmax := @crossMinimum_le_max (sp.direction = .horizontal) _ _ hsize
      rw [← hcross] at hmax
      have hu32 : 1 ≤ u32Max := by decide
      cases hhor : (decide (sp.direction = .horizontal)) with
      | true =>
        rw [hhor] at haxis hcross hsum hmax
        simp only [axisMinimum, crossMinimum, splitAxisAndCrossCellCounts, if_true] at haxis hsum hmax
        omega
      | false =>
        rw [hhor] at haxis hcross hsum hmax
        simp only [axisMinimum, crossMinimum, splitAxisAndCrossCellCounts, Bool.false_eq_true, if_false]
            at haxis hsum hmax
        omega

theorem solveNode_of_leafless {nd : LayoutNode} (hlv : nd.listLeafPaneIds = []) (rect : Rect)
    (solved : LayoutSolveState) :
    (solveLayoutNode rect solved nd).paneSizing = solved.paneSizing ∧
      (solveLayoutNode rect solved nd).suppressedPaneIds = solved.suppressedPaneIds := by
  induction nd generalizing rect solved with
  | pane paneId => simp at hlv
  | split sp ih =>
    rw [listLeafPaneIds_split, flatMap_eq_nil_iff] at hlv
    have hsuppress : ∀ child ∈ sp.children, ∀ solved : LayoutSolveState,
        suppressLayoutSubtree child solved = solved := by
      intro child hm solved
      rw [suppressLayoutSubtree_eq, hlv child hm]
      exact solved.extend_nil
    have hheader : ∀ child ∈ sp.children, ∀ headerRect member members (solved : LayoutSolveState),
        emitStackHeader child headerRect member members solved = solved := by
      intro child hm headerRect member members solved
      rw [emitStackHeader, hlv child hm]
    by_cases hdir : sp.direction = .stacked
    · rw [solveNode_split_of_stacked hdir]
      generalize computeStackedChildRects sp rect solved.paneSizing = rs
      generalize sp.getActiveChildIndex = activeIndex
      generalize sp.children.length = members
      generalize (0 : Nat) = member
      generalize sp.children = children at ih hlv hsuppress hheader
      induction children generalizing rs member solved with
      | nil => exact ⟨rfl, rfl⟩
      | cons child children ihChildren =>
        obtain _ | ⟨childRect, rs⟩ := rs
        · exact ⟨rfl, rfl⟩
        · have hr := fun next => ihChildren next rs (member + 1) (fun other hm => ih other (mem_cons_of_mem _ hm))
            (fun other hm => hlv other (mem_cons_of_mem _ hm))
            (fun other hm => hsuppress other (mem_cons_of_mem _ hm))
            (fun other hm => hheader other (mem_cons_of_mem _ hm))
          have hch := ih child mem_cons_self (hlv child mem_cons_self) childRect solved
          rw [solveStackedChildren, hsuppress child mem_cons_self, hheader child mem_cons_self]
          split_ifs
          · exact hr solved
          · exact ⟨(hr _).1.trans hch.1, (hr _).2.trans hch.2⟩
          · exact hr solved
    · rw [solveNode_split_of_ne hdir]
      generalize computeDirectionalChildRects sp rect solved.paneSizing = rs
      generalize sp.children = children at ih hlv hsuppress hheader
      induction children generalizing rs solved with
      | nil => exact ⟨rfl, rfl⟩
      | cons child children ihChildren =>
        obtain _ | ⟨childRect, rs⟩ := rs
        · exact ⟨rfl, rfl⟩
        · have hr := fun next => ihChildren next rs (fun other hm => ih other (mem_cons_of_mem _ hm))
            (fun other hm => hlv other (mem_cons_of_mem _ hm))
            (fun other hm => hsuppress other (mem_cons_of_mem _ hm))
            (fun other hm => hheader other (mem_cons_of_mem _ hm))
          have hch := ih child mem_cons_self (hlv child mem_cons_self) childRect solved
          rw [solveDirectionalChildren, hsuppress child mem_cons_self]
          split_ifs
          · exact hr solved
          · exact ⟨(hr _).1.trans hch.1, (hr _).2.trans hch.2⟩

/-! ### Two rects with room along one axis -/

structure RoomAlike (paneSizing : PaneSizing) (horizontal : Bool) (child : LayoutNode) (rect rect' : Rect) :
    Prop where
  within : SizeWithinU16 rect.size
  other_within : SizeWithinU16 rect'.size
  cross_eq : crossCount horizontal rect' = crossCount horizontal rect
  room : (rect.isEmpty = true ∧ rect'.isEmpty = true) ∨
    (axisMinimum horizontal (computeMinimumSize paneSizing child) ≤ axisCount horizontal rect ∧
      axisMinimum horizontal (computeMinimumSize paneSizing child) ≤ axisCount horizontal rect')

theorem isEmpty_iff_axes (horizontal : Bool) (rect : Rect) :
    rect.isEmpty = true ↔ axisCount horizontal rect = 0 ∨ crossCount horizontal rect = 0 := by
  rw [Rect.isEmpty_iff]
  cases horizontal with
  | true => exact Iff.rfl
  | false => exact or_comm

theorem one_le_axisMinimum {child : LayoutNode} (hleaf : child.listLeafPaneIds ≠ []) (horizontal : Bool) :
    1 ≤ axisMinimum horizontal (computeMinimumSize sz child) := by
  obtain ⟨hco, hrows⟩ := @one_le_minimumSize sz child hleaf
  cases horizontal with
  | true => exact hco
  | false => exact hrows

theorem RoomAlike.isEmpty_eq (h : RoomAlike sz horizontal child rect rect') (hleaf : child.listLeafPaneIds ≠ []) :
    rect'.isEmpty = rect.isEmpty := by
  obtain ⟨hem, ho⟩ | ⟨haxis, ho⟩ := h.room
  · rw [hem, ho]
  · have hone := @one_le_axisMinimum sz child hleaf horizontal
    rw [Bool.eq_iff_iff, isEmpty_iff_axes horizontal, isEmpty_iff_axes horizontal, h.cross_eq]
    omega

/-- Solving the node over two rects that differ along one axis only agrees when both have room along it. -/
def RoomSolves (paneSizing : PaneSizing) (horizontal : Bool) (layoutNode : LayoutNode) : Prop :=
  ∀ rect rect' : Rect, SizeWithinU16 rect.size → SizeWithinU16 rect'.size →
    crossCount horizontal rect' = crossCount horizontal rect →
    axisMinimum horizontal (computeMinimumSize paneSizing layoutNode) ≤ axisCount horizontal rect →
    axisMinimum horizontal (computeMinimumSize paneSizing layoutNode) ≤ axisCount horizontal rect' →
    SolvesAlike paneSizing layoutNode layoutNode rect rect'

theorem placeChild_of_leafless (hlv : child.listLeafPaneIds = []) (rect : Rect)
    (solved : LayoutSolveState) : (placeChild rect solved child).paneSizing = solved.paneSizing ∧
      (placeChild rect solved child).suppressedPaneIds = solved.suppressedPaneIds := by
  unfold placeChild
  split_ifs
  · rw [suppressLayoutSubtree_eq, hlv]
    exact ⟨rfl, append_nil _⟩
  · exact solveNode_of_leafless hlv rect solved

theorem RoomAlike.places (h : RoomAlike sz horizontal child rect rect') (hslv : RoomSolves sz horizontal child) :
    PlacesAlike sz child child rect rect' := by
  by_cases hlv : child.listLeafPaneIds = []
  · intro solved state' hsts
    obtain ⟨hsz, hsupp⟩ := placeChild_of_leafless hlv rect solved
    obtain ⟨ho, hotherSuppressed⟩ := placeChild_of_leafless hlv rect' state'
    exact ⟨hsz.trans hsts.sizing_eq, ho.trans hsts.other_sizing_eq,
      hotherSuppressed.trans (hsts.suppressed_eq.trans hsupp.symm)⟩
  · refine .of_solves rfl (h.isEmpty_eq hlv) fun hfull => ?_
    obtain ⟨hem, -⟩ | ⟨haxis, ho⟩ := h.room
    · rw [hfull] at hem
      cases hem
    · exact hslv rect rect' h.within h.other_within h.cross_eq haxis ho

/-! ### The child rects of a directional split -/

variable {index : Nat}

section ChildRects

variable {sp : SplitNode LayoutNode} {ar : Rect}

theorem axisMinimum_le_floorAt {child : LayoutNode} (hch : sp.children[index]? = some child) :
    axisMinimum (sp.direction = .horizontal) (computeMinimumSize sz child) ≤ floorAt sp sz index := by
  rw [floorAt, computeSlotFloor, hch]
  exact axisMinimum_le_childFloor sp index _

theorem flag_false_or_true {keeps : List Bool} (hlt : index < keeps.length) :
    keeps[index]? = some false ∨ keeps[index]? = some true := by
  rw [List.getElem?_eq_getElem hlt]
  cases keeps[index] with
  | false => exact .inl rfl
  | true => exact .inr rfl

/-- **A child of a directional split is dropped, or holds its floor** along the axis and the whole split across it. -/
theorem getElem?_directionalRects (hw : SizeWithinU16 ar.size) (hlt : index < sp.children.length) :
    ∃ rect, (computeDirectionalChildRects sp ar sz)[index]? = some rect ∧
      (((listKeptChildren sp ar sz).isChildKept[index]? = some false ∧ rect = .buildEmptyAtOrigin) ∨
        ((listKeptChildren sp ar sz).isChildKept[index]? = some true ∧
          floorAt sp sz index ≤ axisCount (sp.direction = .horizontal) rect ∧
          crossCount (sp.direction = .horizontal) rect = crossCount (sp.direction = .horizontal) ar)) := by
  obtain ⟨-, hkeptWeights, hlen, hfloorsLen⟩ :=
    @listKeptChildren_together _ _ (.refl sp) ar sz rfl
  have hfl := listKeptChildren_floors sp ar sz
  have hsum := sum_keptFloors_le sp sz hw
  have hav := @sharedCellCount_le sp ar sz hw
  rw [computeDirectionalChildRects]
  generalize listKeptChildren sp ar sz = kept at *
  obtain hflag | hflag := @flag_false_or_true index kept.isChildKept (by omega)
  · exact ⟨_, getElem?_layChildRects_dropped hflag _ _, .inl ⟨hflag, rfl⟩⟩
  · refine ⟨_, getElem?_layChildRects hflag _ _, .inr ⟨hflag, ?_, ?_⟩⟩
    · have hne : kept.keptWeights ≠ [] := by
        intro hnil
        have hpc := keptPlace_lt hflag
        rw [hkeptWeights] at hnil
        rw [map_eq_nil_iff.1 hnil] at hpc
        exact absurd hpc (Nat.not_lt_zero _)
      have hpc : kept.keptFloors.getD (keptPlace kept.isChildKept index) 0 = floorAt sp sz index := by
        rw [hfl, getD_eq_getElem?_getD, List.getElem?_map, keptPlace, ← keptPlace, getElem?_listKeptIndexes hflag]
        rfl
      rw [← hpc]
      refine le_trans ((distributeAxisCells_axis hav hne hfloorsLen).2 hsum _) (le_of_eq ?_)
      cases hhor : decide (sp.direction = .horizontal) <;> rfl
    · cases hhor : decide (sp.direction = .horizontal) <;> rfl

theorem length_directionalRects : (computeDirectionalChildRects sp ar sz).length = sp.children.length := by
  obtain ⟨-, -, hlen, -⟩ := @listKeptChildren_together _ _ (.refl sp) ar sz rfl
  rw [computeDirectionalChildRects, ← hlen]
  generalize (listKeptChildren sp ar sz).isChildKept = keeps
  generalize distributeAxisCells _ _ _ = counts
  generalize (0 : Nat) = offset
  induction keeps generalizing counts offset with
  | nil => rfl
  | cons isKept keeps ih => cases isKept <;> exact congrArg Nat.succ (ih _ _)

/-- Where the axis has room for every floor, the kept children are decided by the cells across it. -/
theorem listKeptChildren_flags (hw : SizeWithinU16 ar.size)
    (hfit : axisMinimum (sp.direction = .horizontal) (computeDirectionalMinimumSize sp
      (computeMinimumSizes sz sp.children) sz) ≤ axisCount (sp.direction = .horizontal) ar) :
    (listKeptChildren sp ar sz).isChildKept =
      (computeMinimumSizes sz sp.children).map fun size =>
        decide (crossMinimum (sp.direction = .horizontal) size ≤ crossCount (sp.direction = .horizontal) ar) := by
  have horigin := withinU16_fromAtOrigin hw
  have hu16 : axisCount (sp.direction = .horizontal) (.fromSizeAtOrigin ar.size) ≤ u16Max :=
    axisCount_le_u16Max horigin
  have hlen : (computeMinimumSizes sz sp.children).length = sp.children.length := by
    rw [minimumSizes_eq_map, length_map]
  obtain ⟨haxis, -⟩ := directionalMinimumSize_axes sp (computeMinimumSizes sz sp.children) sz
  rw [haxis] at hfit
  change _ ≤ axisCount (sp.direction = .horizontal) (.fromSizeAtOrigin ar.size) at hfit
  rw [@listKeptChildren_congr ar (.fromSizeAtOrigin ar.size) rfl]
  refine @foldl_keepChildStep_flags _ sz ⟨[], [], [], true, 0⟩ sp horigin _ [] 0
    ⟨.nil, rfl, by simp, Nat.zero_le _⟩ rfl fun _ => ?_
  unfold u32Max at hfit
  unfold u16Max at hu16
  rw [hlen]
  simp only [if_true, listChildFloors] at hfit ⊢
  omega

/-- Two split rects of one axis length in which no child is too large across keep the same children. -/
theorem listKeptChildren_of_axis {rect' : Rect} (haxis : axisCount (sp.direction = .horizontal) rect' =
      axisCount (sp.direction = .horizontal) ar)
    (hcross : maxCrossMinimum (sp.direction = .horizontal) (computeMinimumSizes sz sp.children) ≤
      crossCount (sp.direction = .horizontal) ar)
    (ho : maxCrossMinimum (sp.direction = .horizontal) (computeMinimumSizes sz sp.children) ≤
      crossCount (sp.direction = .horizontal) rect') :
    listKeptChildren sp rect' sz = listKeptChildren sp ar sz := by
  have hstep : ∀ slot ∈ (computeMinimumSizes sz sp.children).zipIdx, ∀ kept : KeptState,
      keepChildStep sp rect' sz kept slot = keepChildStep sp ar sz kept slot := by
    rintro ⟨size, index⟩ hm kept
    have hsize : crossMinimum (sp.direction = .horizontal) size ≤ _ :=
      crossMinimum_le_max (fst_mem_of_mem_zipIdx hm)
    rw [keepChildStep_eq, keepChildStep_eq]
    dsimp only
    rw [if_neg (not_lt.2 (hsize.trans ho)), if_neg (not_lt.2 (hsize.trans hcross)), haxis]
  have hfold : ∀ (slots : List (RequiredSize × Nat)) (kept : KeptState),
      (∀ slot ∈ slots, ∀ kept : KeptState, keepChildStep sp rect' sz kept slot = keepChildStep sp ar sz kept slot) →
      slots.foldl (keepChildStep sp rect' sz) kept = slots.foldl (keepChildStep sp ar sz) kept := by
    intro slots kept hsteps
    exact foldl_ext _ _ _ fun st slot hm => hsteps slot hm st
  unfold axisCount at haxis
  simp only [listKeptChildren, hfold _ _ hstep, haxis]

end ChildRects

/-! ### A tree with room along one axis -/

theorem axisCount_not (horizontal : Bool) (rect : Rect) :
    axisCount (!horizontal) rect = crossCount horizontal rect := by
  cases horizontal <;> rfl

theorem crossCount_not (horizontal : Bool) (rect : Rect) :
    crossCount (!horizontal) rect = axisCount horizontal rect := by
  cases horizontal <;> rfl

theorem axisMinimum_not (horizontal : Bool) (size : RequiredSize) :
    axisMinimum (!horizontal) size = crossMinimum horizontal size := by
  cases horizontal <;> rfl

variable {childRect otherRc : Rect}

theorem roomAlike_childRects_along {other : SplitNode LayoutNode} (hdir : other.direction = sp.direction)
    (hcs : other.children = sp.children) (hw : SizeWithinU16 rect.size) (ho : SizeWithinU16 rect'.size)
    (hcross : crossCount (sp.direction = .horizontal) rect' = crossCount (sp.direction = .horizontal) rect)
    (hflags : (listKeptChildren other rect' sz).isChildKept = (listKeptChildren sp rect sz).isChildKept)
    (hch : sp.children[index]? = some child) (hrc : (computeDirectionalChildRects sp rect sz)[index]? = some childRect)
    (hother : (computeDirectionalChildRects other rect' sz)[index]? = some otherRc) :
    RoomAlike sz (sp.direction = .horizontal) child childRect otherRc := by
  have hlt := (List.getElem?_eq_some_iff.1 hch).1
  have hfloor := @axisMinimum_le_floorAt sz _ _ _ hch
  have hotherFloor := @axisMinimum_le_floorAt sz index other child (by rw [hcs]; exact hch)
  obtain ⟨_, hg, hspec⟩ := @getElem?_directionalRects sz index sp rect hw hlt
  obtain ⟨_, hget', hspec'⟩ :=
    @getElem?_directionalRects sz index other rect' ho (hcs ▸ hlt)
  obtain rfl := some.inj (hg.symm.trans hrc)
  obtain rfl := some.inj (hget'.symm.trans hother)
  rw [hflags, hdir] at hspec'
  rw [hdir] at hotherFloor
  refine ⟨sizeWithinU16_childRects hw _ (mem_of_getElem? hrc),
    sizeWithinU16_childRects ho _ (mem_of_getElem? hother), ?_, ?_⟩
  · obtain ⟨hflag, rfl⟩ | ⟨hflag, -, hc⟩ := hspec
    · obtain ⟨-, rfl⟩ | ⟨hflag', -⟩ := hspec'
      · rfl
      · rw [hflag] at hflag'
        cases hflag'
    · obtain ⟨hflag', -⟩ | ⟨-, -, hcount'⟩ := hspec'
      · rw [hflag] at hflag'
        cases hflag'
      · rw [hc, hcount', hcross]
  · obtain ⟨hflag, rfl⟩ | ⟨hflag, hle, -⟩ := hspec
    · obtain ⟨-, rfl⟩ | ⟨hflag', -⟩ := hspec'
      · exact .inl ⟨rfl, rfl⟩
      · rw [hflag] at hflag'
        cases hflag'
    · obtain ⟨hflag', -⟩ | ⟨-, hle', -⟩ := hspec'
      · rw [hflag] at hflag'
        cases hflag'
      · exact .inr ⟨hfloor.trans hle, hotherFloor.trans hle'⟩

theorem roomAlike_childRects_across (hw : SizeWithinU16 rect.size) (ho : SizeWithinU16 rect'.size)
    (haxis : axisCount (sp.direction = .horizontal) rect' = axisCount (sp.direction = .horizontal) rect)
    (hroom : maxCrossMinimum (sp.direction = .horizontal) (computeMinimumSizes sz sp.children) ≤
      crossCount (sp.direction = .horizontal) rect) (hroom' : maxCrossMinimum (sp.direction = .horizontal)
      (computeMinimumSizes sz sp.children) ≤ crossCount (sp.direction = .horizontal) rect')
    (hch : sp.children[index]? = some child)
    (hrc : (computeDirectionalChildRects sp rect sz)[index]? = some childRect)
    (hother : (computeDirectionalChildRects sp rect' sz)[index]? = some otherRc) :
    RoomAlike sz (!decide (sp.direction = .horizontal)) child childRect otherRc := by
  have hlt := (List.getElem?_eq_some_iff.1 hch).1
  have hsize : computeMinimumSize sz child ∈ computeMinimumSizes sz sp.children := by
    rw [minimumSizes_eq_map]
    exact List.mem_map_of_mem (mem_of_getElem? hch)
  have hmax : crossMinimum (sp.direction = .horizontal) (computeMinimumSize sz child) ≤ _ :=
    crossMinimum_le_max hsize
  have hk := listKeptChildren_of_axis haxis hroom hroom'
  obtain ⟨-, -, hlen, -⟩ := @listKeptChildren_together _ _ (.refl sp) rect sz rfl
  refine ⟨sizeWithinU16_childRects hw _ (mem_of_getElem? hrc),
    sizeWithinU16_childRects ho _ (mem_of_getElem? hother), ?_, ?_⟩ <;>
    rw [computeDirectionalChildRects] at hrc hother <;> rw [hk] at hother <;>
    generalize listKeptChildren sp rect sz = kept at * <;>
    generalize distributeAxisCells _ _ _ = counts at *
  · rw [crossCount_not, crossCount_not]
    obtain hdp | hsh := @flag_false_or_true _ kept.isChildKept (hlen ▸ hlt)
    · rw [getElem?_layChildRects_dropped hdp, some.injEq] at hrc hother
      rw [← hrc, ← hother]
    · rw [getElem?_layChildRects hsh, some.injEq] at hrc hother
      rw [← hrc, ← hother]
      cases hhor : decide (sp.direction = .horizontal) <;> rfl
  · rw [axisMinimum_not, axisCount_not, axisCount_not]
    obtain hdp | hsh := @flag_false_or_true _ kept.isChildKept (hlen ▸ hlt)
    · rw [getElem?_layChildRects_dropped hdp, some.injEq] at hrc hother
      rw [← hrc, ← hother]
      exact .inl ⟨rfl, rfl⟩
    · rw [getElem?_layChildRects hsh, some.injEq] at hrc hother
      rw [← hrc, ← hother]
      refine .inr ⟨hmax.trans (hroom.trans ?_), hmax.trans (hroom'.trans ?_)⟩ <;>
        cases hhor : decide (sp.direction = .horizontal) <;> exact le_refl _

theorem placeMember_of_leafless {child : LayoutNode} (hlv : child.listLeafPaneIds = []) (rect : Rect)
    (solved : LayoutSolveState) :
    (placeMember active members member rect solved child).paneSizing = solved.paneSizing ∧
      (placeMember active members member rect solved child).suppressedPaneIds = solved.suppressedPaneIds := by
  unfold placeMember
  split_ifs
  · rw [suppressLayoutSubtree_eq, hlv]
    exact ⟨rfl, append_nil _⟩
  · exact solveNode_of_leafless hlv rect solved
  · rw [emitStackHeader, hlv]
    exact ⟨rfl, rfl⟩

theorem activeRows_le {nd : SplitNode LayoutNode} {rect : Rect} {activeChild : LayoutNode}
    (hw : SizeWithinU16 rect.size) (hact : nd.children[nd.getActiveChildIndex]? = some activeChild)
    (hrows : (computeStackMinimumSize nd sz).rowCount ≤ rect.size.rowCount) :
    (computeMinimumSize sz activeChild).rowCount ≤ rect.size.rowCount - asU16 (nd.children.length - 1) := by
  obtain ⟨-, hstk⟩ := stackMinimumSize_axes nd sz hact
  have hu16 := hw.2
  rw [hstk] at hrows
  unfold u16Max at hu16
  unfold satAdd32 tryU32OrMax u32Max at hrows
  have hheaders : nd.children.length - 1 ≤ u16Max := by
    unfold u16Max
    split_ifs at hrows <;> omega
  rw [asU16_of_le hheaders]
  split_ifs at hrows <;> omega

/-- The members of a stack in two rects that differ along one axis with room for the stack. -/
theorem placeMember_alike_of_room (hw : SizeWithinU16 rect.size) (ho : SizeWithinU16 rect'.size)
    (hcross : crossCount horizontal rect' = crossCount horizontal rect)
    (hroom : axisMinimum horizontal (computeStackMinimumSize sp sz) ≤ axisCount horizontal rect)
    (hroom' : axisMinimum horizontal (computeStackMinimumSize sp sz) ≤
      axisCount horizontal rect') {member : Nat} (hch : sp.children[member]? = some child)
    (hslv : RoomSolves sz horizontal child) {memRect otherMem : Rect}
    (hrc : (computeStackedChildRects sp rect sz)[member]? = some memRect)
    (hother : (computeStackedChildRects sp rect' sz)[member]? = some otherMem)
    {members : Nat} (h : SuppressAlike sz solved state') :
    SuppressAlike sz (placeMember sp.getActiveChildIndex members member memRect solved child)
      (placeMember sp.getActiveChildIndex members member otherMem state' child) := by
  by_cases hlv : child.listLeafPaneIds = []
  · have hpld := @placeMember_of_leafless sp.getActiveChildIndex members member _ hlv memRect solved
    have hotherPlaced := @placeMember_of_leafless sp.getActiveChildIndex members member _ hlv otherMem state'
    exact ⟨hpld.1.trans h.sizing_eq, hotherPlaced.1.trans h.other_sizing_eq,
      hotherPlaced.2.trans (h.suppressed_eq.trans hpld.2.symm)⟩
  · have hne := ne_nil_of_mem (mem_of_getElem? hch)
    have hact := List.getElem?_eq_getElem (sp.getActiveChildIndex_lt hne)
    have hft : (computeStackMinimumSize sp sz).canFitInside rect'.size =
        (computeStackMinimumSize sp sz).canFitInside rect.size := by
      rw [Bool.eq_iff_iff, canFitInside_iff_axes horizontal, canFitInside_iff_axes horizontal, hcross]
      simp only [hroom, hroom', true_and]
    have hmemWithin := sizeWithinU16_stackedRects hw _ (mem_of_getElem? hrc)
    have hwithin' := sizeWithinU16_stackedRects ho _ (mem_of_getElem? hother)
    unfold computeStackedChildRects at hrc hother
    dsimp only at hrc hother
    rw [if_neg (length_pos_iff.2 hne).ne'] at hrc hother
    rw [hft] at hother
    cases hfit : (computeStackMinimumSize sp sz).canFitInside rect.size with
    | false =>
      rw [hfit] at hrc hother
      obtain rfl := eq_of_mem_replicate (mem_of_getElem? hrc)
      obtain rfl := eq_of_mem_replicate (mem_of_getElem? hother)
      exact placeMember_alike rfl rfl (fun _ hfull => by cases hfull) h
    | true =>
      rw [hfit] at hrc hother
      have hsize := getElem?_layMemberRects _ _ _ _ _ _ _ hrc
      have hotherSize := getElem?_layMemberRects _ _ _ _ _ _ _ hother
      rw [Nat.zero_add] at hsize hotherSize
      obtain ⟨hco, -⟩ := stackMinimumSize_axes sp sz hact
      have hwide := hco child (mem_of_getElem? hch)
      cases horizontal with
      | true =>
        have hs : rect'.size.rowCount = rect.size.rowCount := hcross
        have halike : RoomAlike sz true child memRect otherMem := by
          refine ⟨hmemWithin, hwithin', ?_, .inr ⟨?_, ?_⟩⟩
          · change otherMem.size.rowCount = memRect.size.rowCount
            rw [hsize, hotherSize, hs]
          · change _ ≤ memRect.size.columnCount
            rw [hsize]
            exact hwide.trans hroom
          · change _ ≤ otherMem.size.columnCount
            rw [hotherSize]
            exact hwide.trans hroom'
        refine placeMember_alike rfl (halike.isEmpty_eq hlv) (fun _ hfull => ?_) h
        obtain ⟨hem, -⟩ | ⟨haxis, hotherAxis⟩ := halike.room
        · rw [hfull] at hem
          cases hem
        · exact hslv _ _ hmemWithin hwithin' halike.cross_eq haxis hotherAxis
      | false =>
        have hs : rect'.size.columnCount = rect.size.columnCount := hcross
        by_cases hsh : member = sp.getActiveChildIndex
        · rw [if_pos hsh] at hsize hotherSize
          rw [hsh] at hch
          have hrows := @activeRows_le sz sp rect child hw hch hroom
          have hotherRows := @activeRows_le sz sp rect' child ho hch hroom'
          have halike : RoomAlike sz false child memRect otherMem := by
            refine ⟨hmemWithin, hwithin', ?_, .inr ⟨?_, ?_⟩⟩
            · change otherMem.size.columnCount = memRect.size.columnCount
              rw [hsize, hotherSize, hs]
            · change _ ≤ memRect.size.rowCount
              rw [hsize]
              exact hrows
            · change _ ≤ otherMem.size.rowCount
              rw [hotherSize]
              exact hotherRows
          refine placeMember_alike rfl (halike.isEmpty_eq hlv) (fun _ hfull => ?_) h
          obtain ⟨hem, -⟩ | ⟨haxis, hotherAxis⟩ := halike.room
          · rw [hfull] at hem
            cases hem
          · exact hslv _ _ hmemWithin hwithin' halike.cross_eq haxis hotherAxis
        · rw [if_neg hsh] at hsize hotherSize
          refine placeMember_alike rfl ?_ (fun heq => absurd heq hsh) h
          rw [Bool.eq_iff_iff, Rect.isEmpty_iff, Rect.isEmpty_iff, hsize, hotherSize, hs]

theorem length_stackedRects (nd : SplitNode LayoutNode) (ar : Rect) :
    (computeStackedChildRects nd ar sz).length = nd.children.length := by
  simp only [computeStackedChildRects]
  split_ifs with hnone
  · exact hnone.symm
  · rw [length_replicate]
  · rw [length_layMemberRects]

/-- **A node with room along one axis in both rects** suppresses the same panes in them. -/
theorem roomSolves (horizontal : Bool) (node : LayoutNode) : RoomSolves sz horizontal node := by
  induction node with
  | pane paneId =>
    intro rect rect' _ _ hcross hroom hroom' solved state' h
    obtain ⟨hsz, ho, hsupp⟩ := h
    have hft : isLeafWithinMinimum rect' sz = isLeafWithinMinimum rect sz := by
      change axisMinimum horizontal (computeBorderInclusiveMinimum sz.minimumSize) ≤ _ at hroom
      change axisMinimum horizontal (computeBorderInclusiveMinimum sz.minimumSize) ≤ _ at hroom'
      unfold isLeafWithinMinimum
      rw [Bool.eq_iff_iff, canFitInside_iff_axes horizontal, canFitInside_iff_axes horizontal, hcross]
      simp only [hroom, hroom', true_and]
    rw [solveLayoutNode, solveLayoutNode, hsz, ho, hft]
    split_ifs
    · exact ⟨rfl, rfl, hsupp⟩
    · exact ⟨rfl, rfl, congrArg (· ++ [paneId]) hsupp⟩
  | split sp ih =>
    intro rect rect' hw hwithin' hcross hroom hroom' solved state' h
    by_cases hsk : sp.direction = .stacked
    · rw [minimumSize_split_of_stacked _ hsk] at hroom hroom'
      rw [solveNode_split_of_stacked hsk, solveNode_split_of_stacked hsk, h.sizing_eq, h.other_sizing_eq]
      refine solveStacked_alike 0 rfl ?_ (fun i child child' memRect otherMem h1 h2 h3 h4 => ?_) h
      · rw [length_stackedRects, length_stackedRects]
      · obtain rfl : child = child' := some.inj (h1.symm.trans h2)
        rw [Nat.zero_add]
        exact fun _ _ => placeMember_alike_of_room hw hwithin' hcross hroom hroom' h1
          (ih child (mem_of_getElem? h1)) h3 h4
    · rw [minimumSize_split_of_ne _ hsk] at hroom hroom'
      rw [solveNode_split_of_ne hsk, solveNode_split_of_ne hsk, h.sizing_eq, h.other_sizing_eq]
      refine solveDirectional_alike rfl ?_ (fun i child child' childRect otherRc h1 h2 h3 h4 => ?_) h
      · rw [length_directionalRects, length_directionalRects]
      · obtain rfl : child = child' := some.inj (h1.symm.trans h2)
        have hch := ih child (mem_of_getElem? h1)
        obtain ⟨-, hmax⟩ := directionalMinimumSize_axes sp (computeMinimumSizes sz sp.children) sz
        by_cases halong : horizontal = decide (sp.direction = .horizontal)
        · subst halong
          have hflags : (listKeptChildren sp rect' sz).isChildKept = (listKeptChildren sp rect sz).isChildKept := by
            rw [listKeptChildren_flags hw hroom, listKeptChildren_flags hwithin' hroom', hcross]
          exact (roomAlike_childRects_along rfl rfl hw hwithin' hcross hflags h1 h3 h4).places hch
        · obtain rfl : horizontal = !decide (sp.direction = .horizontal) := by
            cases horizontal <;> cases hside : decide (sp.direction = .horizontal) <;>
              first | rfl | exact absurd hside.symm halong
          rw [axisMinimum_not, axisCount_not, hmax] at hroom hroom'
          rw [crossCount_not, crossCount_not] at hcross
          exact (roomAlike_childRects_across hw hwithin' hcross hroom hroom' h1 h3 h4).places hch

end Alike

end Koshi.Layout
