import Koshi.Layout.Proof.ResizeSearch
import Koshi.Layout.Proof.SuppressAlike

/-!
# What a resize does

The count of offset cells a resize keeps is the one a scan over every count keeps, and the resized tree is the old one
with that count written: its border stands exactly the reported cells away, and no pane loses its room.
-/

namespace Koshi.Layout

open Base Koshi.Core ResizeBorder

section Search

variable {tree : LayoutNode} {rect : Rect} {paneId : PaneId} {direction : Direction} {isGrowing : Bool}
  {paneSizing : PaneSizing} {border : ResizeBorder}

/-- **The search of a resize is a scan over every added count.** The halving over the candidates of both windows keeps
the count a scan over all counts keeps; while the donor has a cell to spare one more added cell moves the border by no
cell or by one, and a donor with none never has one again; a count outside both windows gives the children the rects
of the split before the resize, or those at a last count of a window. -/
theorem resolveResizeBorder_search (hwithin : SizeWithinU16 rect.size)
    (hborder : resolveResizeBorder tree rect paneId direction isGrowing paneSizing = .ok border) :
    (∀ requested bound : Nat, border.receivingOffsetWindow.lastCount ≤ bound →
      border.donatingOffsetWindow.lastCount ≤ bound →
      border.selectAddedCellCount requested =
        (((linearScan border.movedAt border.supplyAt requested bound).1 : Int),
          (linearScan border.movedAt border.supplyAt requested bound).2.toNat)) ∧
    (∀ count : Nat, border.supplyAt count ≠ 0 →
      border.movedAt count ≤ border.movedAt (count + 1) ∧ border.movedAt (count + 1) ≤ border.movedAt count + 1) ∧
    (∀ count : Nat, border.supplyAt count = 0 → border.supplyAt (count + 1) = 0) ∧
    ∀ count : Nat, ¬border.receivingOffsetWindow.Contains count →
      ¬border.donatingOffsetWindow.Contains count →
      ∃ edgeCount : Int, (edgeCount = 0 ∨ edgeCount = border.receivingOffsetWindow.lastCount ∨
          edgeCount = border.donatingOffsetWindow.lastCount) ∧ 0 ≤ edgeCount ∧ edgeCount ≤ count ∧
        computeDirectionalChildRects (border.setAddedCellCount count) border.splitRect border.paneSizing =
          computeDirectionalChildRects (border.setAddedCellCount edgeCount) border.splitRect border.paneSizing := by
  have hwell := resolveResizeBorder_wellFormed hwithin hborder
  have hsteps := stepsWhileSupplied hwell
  refine ⟨fun requested bound hgets hdonating => ?_, hsteps.step, hsteps.spent, fun count hgets hdonating => ?_⟩
  · exact selectAddedCount_eq_linearScan hwell requested hgets hdonating
  · exact exists_sameRects_of_outside hwell count hgets hdonating

/-- Three panes side by side. -/
def threePaneRow : LayoutNode :=
  .split ⟨.horizontal, [.pane ⟨0⟩, .pane ⟨1⟩, .pane ⟨2⟩], [.default, .default, .default], 0⟩

theorem resolveResizeBorder_search_threePaneRow :
    ∃ border, resolveResizeBorder threePaneRow (.fromSizeAtOrigin ⟨30, 24⟩) ⟨0⟩ .right true .default = .ok border ∧
      border.selectAddedCellCount 3 =
        (((linearScan border.movedAt border.supplyAt (3 : Nat) 40).1 : Int),
          (linearScan border.movedAt border.supplyAt (3 : Nat) 40).2.toNat) := by
  refine ⟨_, rfl, ?_⟩
  exact (@resolveResizeBorder_search threePaneRow (.fromSizeAtOrigin ⟨30, 24⟩) ⟨0⟩ .right true .default _ (by decide)
    rfl).1 3 40 (by decide) (by decide)

/-- Four panes of which the second is at its floor: taking more from it lets the fourth one's cells go to the panes
before it. -/
def fourPaneRow : LayoutNode :=
  .split ⟨.horizontal, [.pane ⟨0⟩, .pane ⟨1⟩, .pane ⟨2⟩, .pane ⟨3⟩],
    [{ SizeWeight.default with resizeDelta := 2 },
      { SizeWeight.fromPrimaryConstraint (.fixed 4) with resizeDelta := 3 },
      { SizeWeight.default with resizeDelta := -4 },
      { SizeWeight.fromPrimaryConstraint (.fixed 6) with resizeDelta := 3 }], 0⟩

/-- Inside both windows, once the donor has nothing to spare, an added cell can move the border back. -/
theorem not_monotone_fourPaneRow :
    ∃ border, resolveResizeBorder fourPaneRow (.fromSizeAtOrigin ⟨17, 24⟩) ⟨2⟩ .left true .default = .ok border ∧
      (border.receivingOffsetWindow.firstCount ≤ 7 ∧ 8 ≤ border.receivingOffsetWindow.lastCount) ∧
      (border.donatingOffsetWindow.firstCount ≤ 7 ∧ 8 ≤ border.donatingOffsetWindow.lastCount) ∧
      border.movedAt 8 < border.movedAt 7 := by
  refine ⟨_, rfl, by decide +kernel, by decide +kernel, by decide +kernel⟩

end Search

/-! ### The resized tree -/

namespace ResizeBorder

/-- The cell on the split axis at which the border stands in a tree. -/
def borderCellIn (border : ResizeBorder) (tree : LayoutNode) (rect : Rect) : Option Nat :=
  (tree.getSplitAtPath border.splitPath).map fun node =>
    axisOrigin border.isHorizontalSplit (computeChildRect node
      (computeRectAtPath border.paneSizing tree rect border.splitPath) border.paneSizing
      border.borderChildIndex)

/-- A resize can go to this count: the donor has a cell to spare at every count before it. -/
def IsReachable (border : ResizeBorder) (added : Nat) : Prop :=
  ∀ earlierCount < added, border.supplyAt earlierCount ≠ 0

end ResizeBorder

/-- Two splits of which the second is the first with missing weights filled in and two offsets changed. -/
structure DiffersInOffsets (node other : SplitNode LayoutNode) (firstIndex secondIndex : Nat) : Prop where
  direction_eq : other.direction = node.direction
  children_eq : other.children = node.children
  active_eq : other.activeChildIndex = node.activeChildIndex
  length_eq : other.weights.length = max node.weights.length node.children.length
  weights_eq : ∀ index, (other.weights.getD index .default).withoutDelta =
    (node.weights.getD index .default).withoutDelta
  others_eq : ∀ index, index ≠ firstIndex → index ≠ secondIndex →
    other.weights.getD index .default = node.weights.getD index .default

structure ResizesTo (tree resized : LayoutNode) (rect : Rect) (paneSizing : PaneSizing) (border : ResizeBorder)
    (isMovingForward : Bool) (movedCellCount : Nat) : Prop where
  /-- The border stands `movedCellCount` cells away. -/
  border_moves : ∃ oldCell newCell, border.borderCellIn tree rect = some oldCell ∧
    border.borderCellIn resized rect = some newCell ∧
    if isMovingForward then newCell = oldCell + movedCellCount else oldCell = newCell + movedCellCount
  /-- The resized tree is the old one with two offsets of one split changed, and every child of that split either has
  no rect in either tree or holds its floor in both. -/
  only_offsets : ∃ node other, tree.getSplitAtPath border.splitPath = some node ∧
    tree.editNodeAtPath (fun _ => .split other) border.splitPath = some resized ∧
    DiffersInOffsets node other border.receivingChildIndex border.donatingChildIndex ∧
    ∀ index < node.children.length,
      (computeChildRect node border.splitRect paneSizing index = .buildEmptyAtOrigin ∧
        computeChildRect other border.splitRect paneSizing index = .buildEmptyAtOrigin) ∨
      (floorAt node paneSizing index ≤ axisCount border.isHorizontalSplit
          (computeChildRect node border.splitRect paneSizing index) ∧
        floorAt node paneSizing index ≤ axisCount border.isHorizontalSplit
          (computeChildRect other border.splitRect paneSizing index))
  /-- Solving it suppresses the panes that solving the old tree does. -/
  suppressed_eq : (solveLayoutWithSizing resized rect paneSizing).suppressedPaneIds =
    (solveLayoutWithSizing tree rect paneSizing).suppressedPaneIds

section Resized

variable {tree : LayoutNode} {rect : Rect} {paneId : PaneId} {direction : Direction} {isGrowing : Bool}
  {paneSizing : PaneSizing} {border : ResizeBorder}

theorem resolveResizeBorder_split
    (hbrd : resolveResizeBorder tree rect paneId direction isGrowing paneSizing = .ok border) :
    ∃ node, tree.getSplitAtPath border.splitPath = some node ∧ node.direction ≠ .stacked ∧
      border.splitNode = { node with weights := padWeights node.weights node.children.length } ∧
      border.splitRect = computeRectAtPath paneSizing tree rect border.splitPath ∧
      border.paneSizing = paneSizing := by
  obtain ⟨panePath, depth, index, adjacent, node, -, hfinds, rfl⟩ := resolveResizeBorder_ok hbrd
  refine ⟨node, hfinds.split_eq, ?_, rfl, rfl, rfl⟩
  rw [hfinds.direction_eq]
  cases direction <;> decide

variable (node : SplitNode LayoutNode)

theorem listKeptChildren_padWeights (ar : Rect) (cc : Nat) :
    listKeptChildren { node with weights := padWeights node.weights cc } ar paneSizing =
      listKeptChildren node ar paneSizing := by
  have hs : SameButDeltas node { node with weights := padWeights node.weights cc } :=
    ⟨rfl, fun index => by dsimp only; rw [getD_padWeights]⟩
  obtain ⟨hkt, hws, -⟩ := @listKeptChildren_together _ _ hs ar paneSizing rfl
  rw [hkt]
  have hpadded : listWeightsAt (padWeights node.weights cc)
      (listKeptIndexes (listKeptChildren node ar paneSizing).isChildKept) =
        (listKeptChildren node ar paneSizing).keptWeights := by
    rw [hws, listWeightsAt, listWeightsAt]
    exact List.map_congr_left fun index _ => getD_padWeights _ _ _
  dsimp only
  rw [hpadded]

theorem directionalRects_padWeights (ar : Rect) (cc : Nat) :
    computeDirectionalChildRects { node with weights := padWeights node.weights cc } ar
        paneSizing = computeDirectionalChildRects node ar paneSizing := by
  rw [computeDirectionalChildRects, listKeptChildren_padWeights, computeDirectionalChildRects]

theorem differsInOffsets_setAddedCount {node : SplitNode LayoutNode}
    (hsp : border.splitNode = { node with weights := padWeights node.weights node.children.length })
    (d : Int) : DiffersInOffsets node (border.setAddedCellCount d)
      border.receivingChildIndex border.donatingChildIndex := by
  refine ⟨?_, ?_, ?_, ?_, fun index => ?_, fun index hgets hdon => ?_⟩
  · rw [setAddedCount_direction, hsp]
  · rw [setAddedCount_children, hsp]
  · change border.splitNode.activeChildIndex = _
    rw [hsp]
  · rw [length_weights_setAddedCount, hsp, length_padWeights]
  · rw [withoutDelta_setAddedCount, hsp]
    dsimp only
    rw [getD_padWeights]
  · rw [setAddedCellCount]
    dsimp only
    rw [getD_modify_weight, if_neg (fun hor => hdon hor.1.symm), getD_modify_weight,
      if_neg (fun hor => hgets hor.1.symm), hsp]
    dsimp only
    rw [getD_padWeights]

theorem DiffersInOffsets.solvesAlike {node node' : SplitNode LayoutNode} {i₀ secondIndex : Nat}
    (h : DiffersInOffsets node node' i₀ secondIndex) (hdir : node.direction ≠ .stacked) {r : Rect}
    (hw : SizeWithinU16 r.size) :
    SameRoom paneSizing (.split node) (.split node') ∧ SolvesAlike paneSizing (.split node) (.split node') r r := by
  have hs : SameButDeltas node node' := ⟨h.direction_eq.symm, fun index => (h.weights_eq index).symm⟩
  have hotherDir : node'.direction ≠ .stacked := h.direction_eq ▸ hdir
  obtain ⟨hkt, -⟩ := @listKeptChildren_together _ _ hs r paneSizing (by rw [h.children_eq])
  refine ⟨SameRoom.split hs h.active_eq (h.children_eq ▸ forall₂_sameRoom_refl _), fun st state' hsts => ?_⟩
  rw [solveNode_split_of_ne hdir, solveNode_split_of_ne hotherDir, hsts.sizing_eq, hsts.other_sizing_eq, h.children_eq]
  refine solveDirectional_alike rfl ?_ (fun i child child' childRect otherChildRect h1 h2 h3 h4 => ?_) hsts
  · rw [length_directionalRects, length_directionalRects, h.children_eq]
  · obtain rfl : child = child' := Option.some.inj (h1.symm.trans h2)
    exact (roomAlike_childRects_along h.direction_eq h.children_eq hw hw rfl (by rw [hkt]) h1 h3 h4).places
      (roomSolves _ child)

/-- **The tree with an added count written**: its border stands the cells moved at that count away, only the two offsets
changed, and no pane lost its room. -/
theorem resizesTo_setAddedCount (hw : SizeWithinU16 rect.size)
    (hbrd : resolveResizeBorder tree rect paneId direction isGrowing paneSizing = .ok border) {d movedCellCount : Nat}
    (hmoved : border.movedAt d = movedCellCount) :
    ∃ resized', tree.editNodeAtPath (fun _ => .split (border.setAddedCellCount d)) border.splitPath = some resized' ∧
      ResizesTo tree resized' rect paneSizing border
        (decide (direction = .right ∨ direction = .down) == isGrowing) movedCellCount := by
  have hwell := resolveResizeBorder_wellFormed hw hbrd
  have hforward := resolveResizeBorder_isBorderMovingForward hbrd
  obtain ⟨node, hsp, hdir, hpadded, hrc, hsz⟩ := resolveResizeBorder_split hbrd
  have hdiffers := differsInOffsets_setAddedCount hpadded d
  have hsplitWithin := hwell.within
  obtain ⟨hroom, hslv⟩ := @DiffersInOffsets.solvesAlike paneSizing _ _ _ _ hdiffers hdir _ hsplitWithin
  obtain ⟨resized', hedit, -, hresizedSplit, hresizedRect⟩ := replacesSplit hsp hroom
  have hhor : border.isHorizontalSplit = decide (node.direction = .horizontal) := by
    rw [hwell.axis_eq, hpadded]
  have hotherDir : (border.setAddedCellCount d).direction ≠ .stacked :=
    hdiffers.direction_eq ▸ hdir
  have holdRects : computeDirectionalChildRects node border.splitRect paneSizing =
      computeDirectionalChildRects border.splitNode border.splitRect border.paneSizing := by
    rw [hpadded, directionalRects_padWeights, hsz]
  refine ⟨resized', hedit, ?_, ?_, ?_⟩
  · refine ⟨border.borderCellAt 0, border.borderCellAt d, ?_, ?_, ?_⟩
    · have hmeasured : (border.measureBorder border.splitNode).1 = border.borderCellAt 0 :=
        congrArg Prod.fst (measureBorder_splitNode hwell)
      rw [borderCellIn, hsp, Option.map_some, hsz, ← hrc, computeChildRect_of_ne hdir, holdRects, ← hmeasured]
      unfold measureBorder axisOrigin axisCoordinate splitAxisAndCrossCellCounts
      dsimp only
      split_ifs <;> rfl
    · have hmeasured : (border.measureBorder (border.setAddedCellCount d)).1 = border.borderCellAt d :=
        congrArg Prod.fst (measureBorder_setAddedCount hwell d)
      rw [borderCellIn, hresizedSplit, Option.map_some, hsz, hresizedRect, ← hrc,
        computeChildRect_of_ne hotherDir, ← hmeasured, ← hsz]
      unfold measureBorder axisOrigin axisCoordinate splitAxisAndCrossCellCounts
      dsimp only
      split_ifs <;> rfl
    · rw [movedAt, measureAddedCount_eq hwell] at hmoved
      rw [← hforward]
      dsimp only at hmoved
      split_ifs at hmoved ⊢ <;> omega
  · refine ⟨node, _, hsp, hedit, hdiffers, fun index hlt => ?_⟩
    have hs : SameButDeltas node (border.setAddedCellCount d) :=
      ⟨hdiffers.direction_eq.symm, fun index => (hdiffers.weights_eq index).symm⟩
    obtain ⟨hkt, -⟩ := @listKeptChildren_together _ _ hs border.splitRect paneSizing (by rw [hdiffers.children_eq])
    have hfloor : floorAt (border.setAddedCellCount d) paneSizing index = floorAt node paneSizing index := by
      simp only [floorAt, computeSlotFloor, hs.computeChildFloor_eq, hdiffers.direction_eq, hdiffers.children_eq]
    obtain ⟨r, hg, hspec⟩ :=
      @getElem?_directionalRects paneSizing index node border.splitRect hsplitWithin hlt
    obtain ⟨rect', hotherGet, hotherSpec⟩ := @getElem?_directionalRects paneSizing index
      (border.setAddedCellCount d) border.splitRect hsplitWithin (hdiffers.children_eq ▸ hlt)
    rw [hkt, hfloor, hdiffers.direction_eq] at hotherSpec
    rw [computeChildRect_of_ne hdir, computeChildRect_of_ne hotherDir, List.getD_eq_getElem?_getD,
      List.getD_eq_getElem?_getD, hg, hotherGet, hhor]
    obtain ⟨hflag, hem⟩ | ⟨hflag, hle, -⟩ := hspec
    · obtain ⟨-, hotherEmpty⟩ | ⟨hotherFlag, -⟩ := hotherSpec
      · exact .inl ⟨hem, hotherEmpty⟩
      · dsimp only at hotherFlag
        rw [hflag] at hotherFlag
        cases hotherFlag
    · obtain ⟨hotherFlag, -⟩ | ⟨-, hotherLe, -⟩ := hotherSpec
      · dsimp only at hotherFlag
        rw [hflag] at hotherFlag
        cases hotherFlag
      · exact .inr ⟨hle, hotherLe⟩
  · rw [hrc] at hslv
    have halike := solvesAlike_editNodeAtPath hsp hroom hedit hslv (.fromPaneSizing paneSizing)
      (.fromPaneSizing paneSizing) ⟨rfl, rfl, rfl⟩
    exact halike.suppressed_eq

end Resized

/-! ### Resizing a layout -/

/-- What a refused resize tells. -/
def RefusalHolds (tree : LayoutNode) (rect : Rect) (paneId : PaneId) (direction : Direction) (isGrowing : Bool)
    (paneSizing : PaneSizing) : ResizeError → Prop
  | .paneNotFound missingPaneId => missingPaneId = paneId ∧ paneId ∉ tree.listLeafPaneIds
  | .noAdjacentBorder paneId' direction' => paneId' = paneId ∧ direction' = direction ∧
    ∃ panePath, tree.findPanePath paneId = some panePath ∧
      ∀ depth < countVisiblePathLength tree panePath, ∀ node,
        tree.getSplitAtPath (panePath.take depth) = some node →
        node.direction = computeSplitDirection direction →
        findAdjacentChildIndex direction node.children.length (panePath.getD depth 0) = none
  | .donorAtMinimumSize paneId' direction' isErrorGrowing =>
    (paneId', direction', isErrorGrowing) = (paneId, direction, isGrowing) ∧
      ∃ border, resolveResizeBorder tree rect paneId direction isGrowing paneSizing = .ok border ∧
        border.supplyAt 0 = 0 ∧ ∀ added, border.IsReachable added → border.movedAt added = 0
  | .borderHeld paneId' direction' isErrorGrowing =>
    (paneId', direction', isErrorGrowing) = (paneId, direction, isGrowing) ∧
      ∃ border, resolveResizeBorder tree rect paneId direction isGrowing paneSizing = .ok border ∧
        border.supplyAt 0 ≠ 0 ∧ ∀ added, border.IsReachable added → border.movedAt added = 0

section Resolve

variable {tree : LayoutNode} {rect : Rect} {paneId : PaneId} {direction : Direction} {isGrowing : Bool}
  {paneSizing : PaneSizing}

theorem resolveResizeBorder_error {error' : ResizeError}
    (h : resolveResizeBorder tree rect paneId direction isGrowing paneSizing = .error error') :
    RefusalHolds tree rect paneId direction isGrowing paneSizing error' := by
  unfold resolveResizeBorder at h
  cases hpath : tree.findPanePath paneId with
  | none =>
    rw [hpath] at h
    obtain rfl := Except.error.inj h
    refine ⟨rfl, fun hm => ?_⟩
    have hfo := LayoutNode.findPanePath_isSome hm
    rw [hpath] at hfo
    cases hfo
  | some panePath =>
    rw [hpath] at h
    dsimp only at h
    cases hbrd : findResizeBorder tree panePath (computeSplitDirection direction) direction with
    | none =>
      rw [hbrd] at h
      obtain rfl := Except.error.inj h
      exact ⟨rfl, rfl, panePath, hpath, fun depth hdepth node hsp hdir =>
        findResizeBorder_none hbrd hdepth hsp hdir⟩
    | some found =>
      rw [hbrd] at h
      cases h

/-- What the search keeps: a count at which the border moved as reported, at most the request and at most one cell for
each added one, and no count the resize can go to moves it further unless the request is met. -/
theorem selectAddedCount_spec {border : ResizeBorder} (hwell : border.WellFormed) {requested : Nat} {keptCount : Int}
    {movedCellCount : Nat} (hselect : border.selectAddedCellCount requested = (keptCount, movedCellCount)) :
    ∃ kept : Nat, keptCount = kept ∧ border.movedAt kept = movedCellCount ∧
      movedCellCount ≤ requested ∧
      ∀ d, border.IsReachable d → requested ≤ movedCellCount ∨ border.movedAt d ≤ movedCellCount := by
  have hsteps := stepsWhileSupplied hwell
  have hends : ∀ d : Nat, ∃ bound : Nat, d ≤ bound ∧
      border.receivingOffsetWindow.lastCount ≤ bound ∧ border.donatingOffsetWindow.lastCount ≤ bound := by
    intro d
    refine ⟨d + border.receivingOffsetWindow.lastCount.toNat +
      border.donatingOffsetWindow.lastCount.toNat, by omega, by omega, by omega⟩
  have hselects : ∀ bound : Nat, border.receivingOffsetWindow.lastCount ≤ bound →
      border.donatingOffsetWindow.lastCount ≤ bound →
      ∃ kept : Nat, keptCount = kept ∧ movedCellCount = (border.movedAt kept).toNat ∧
        Selects border.movedAt border.supplyAt requested bound kept (border.movedAt kept) := by
    intro bound hgets hdon
    obtain ⟨kept, heq, hspec⟩ := selectAddedCount_selects hwell requested hgets hdon
    rw [hselect, Prod.mk.injEq] at heq
    exact ⟨kept, heq.1, heq.2, hspec⟩
  obtain ⟨bound, -, hgets, hdon⟩ := hends 0
  obtain ⟨kept, hkt, hmoved, hspec⟩ := hselects bound hgets hdon
  obtain ⟨stop, -, hb, -, hamount, hle, -⟩ := hspec
  have hnonneg : 0 ≤ border.movedAt kept := hsteps.moved_nonneg fun k hk => (not_or.1 (hb k (by omega))).2
  have hcast : border.movedAt kept = movedCellCount := by omega
  have hreq : border.movedAt stop ≤ requested :=
    hsteps.moved_le_request (Int.natCast_nonneg requested) hb
  refine ⟨kept, hkt, hcast, by omega, fun d hreach => ?_⟩
  obtain ⟨farBound, hfar, hgets, hdon⟩ := hends d
  obtain ⟨otherKept, hotherKept, -, hotherSpec⟩ := hselects farBound hgets hdon
  obtain rfl : kept = otherKept := by omega
  have hmost := hsteps.selected_most hotherSpec hfar hreach
  omega

end Resolve

/-- **A resize is sound, and complete up to the donor's floor.** It moves at least one cell and at most as many as
asked: the resized tree is the old one with two offsets changed, its border stands exactly that many cells away, and
no pane lost its room; no count at which the donor still holds its floor moves the border further unless the request is
met. A refused one tells why: the pane is not there, no border is on that side, or no such count moves the border. -/
theorem resizeLayoutWithSizing_sound_complete (tree : LayoutNode) (rect : Rect) (paneId : PaneId)
    (direction : Direction) (delta : Int) (paneSizing : PaneSizing) (hwithin : SizeWithinU16 rect.size)
    (hdelta : delta ≠ 0) :
    (∀ resized movedCellCount, resizeLayoutWithSizing tree rect paneId direction delta
        paneSizing = .ok (resized, movedCellCount) →
      1 ≤ movedCellCount ∧ movedCellCount ≤ delta.natAbs ∧
      ∃ border, resolveResizeBorder tree rect paneId direction (0 < delta) paneSizing = .ok border ∧
        ResizesTo tree resized rect paneSizing border
          (decide (direction = .right ∨ direction = .down) == decide (0 < delta)) movedCellCount ∧
        ∀ count, border.IsReachable count → movedCellCount = delta.natAbs ∨ border.movedAt count ≤ movedCellCount) ∧
    ∀ error', resizeLayoutWithSizing tree rect paneId direction delta paneSizing = .error error' →
      RefusalHolds tree rect paneId direction (0 < delta) paneSizing error' := by
  have hasked : 0 < delta.natAbs := Int.natAbs_pos.2 hdelta
  unfold resizeLayoutWithSizing
  dsimp only
  cases hborder : resolveResizeBorder tree rect paneId direction (0 < delta) paneSizing with
  | error resolveError =>
    refine ⟨fun _ _ h => (by cases h), fun error' h => ?_⟩
    obtain rfl := Except.error.inj h
    exact resolveResizeBorder_error hborder
  | ok border =>
    have hwell := resolveResizeBorder_wellFormed hwithin hborder
    dsimp only
    cases hselect : border.selectAddedCellCount delta.natAbs with
    | mk keptAddedCellCount movedCellCount =>
      obtain ⟨kept, rfl, hmoved, hle, hmost⟩ := selectAddedCount_spec hwell hselect
      dsimp only
      have hspare : (border.measureBorder border.splitNode).2 = border.supplyAt 0 := by
        rw [measureBorder_splitNode hwell]
        change _ = (border.measureAddedCellCount 0).spareCellCount
        rw [measureAddedCount_zero hwell]
      by_cases hnone : movedCellCount = 0
      · rw [if_pos ⟨hasked, hnone⟩, hspare]
        refine ⟨fun _ _ h => (by cases h), fun error' h => ?_⟩
        have hstays : ∀ count, border.IsReachable count → border.movedAt count = 0 := by
          intro count hreach
          have hnonneg := (stepsWhileSupplied hwell).moved_nonneg hreach
          have hmost := hmost count hreach
          omega
        obtain rfl := Except.error.inj h
        split_ifs with hzero
        · exact ⟨rfl, border, hborder, hzero, hstays⟩
        · exact ⟨rfl, border, hborder, hzero, hstays⟩
      · rw [if_neg (fun h => hnone h.2)]
        obtain ⟨resized, hedit, hresizes⟩ := resizesTo_setAddedCount hwithin hborder hmoved
        rw [hedit]
        refine ⟨fun otherTree otherCount h => ?_, fun _ h => (by cases h)⟩
        obtain ⟨rfl, rfl⟩ := Prod.mk.inj (Except.ok.inj h)
        refine ⟨by omega, hle, border, rfl, hresizes, fun count hreach => ?_⟩
        have hmost := hmost count hreach
        omega

/-- Growing the first of three equal panes by two cells. -/
theorem resizeLayoutWithSizing_sound_complete_threePaneRow :
    ∃ resized, resizeLayoutWithSizing threePaneRow (.fromSizeAtOrigin ⟨30, 24⟩) ⟨0⟩ .right 2 .default =
        .ok (resized, 2) ∧
      (solveLayoutWithSizing resized (.fromSizeAtOrigin ⟨30, 24⟩) .default).suppressedPaneIds =
        (solveLayoutWithSizing threePaneRow (.fromSizeAtOrigin ⟨30, 24⟩) .default).suppressedPaneIds := by
  have hresize : resizeLayoutWithSizing threePaneRow (.fromSizeAtOrigin ⟨30, 24⟩) ⟨0⟩ .right 2 .default =
      .ok (.split ⟨.horizontal, [.pane ⟨0⟩, .pane ⟨1⟩, .pane ⟨2⟩],
        [{ SizeWeight.default with resizeDelta := 2 }, { SizeWeight.default with resizeDelta := -2 }, .default], 0⟩,
        2) := by
    rfl
  obtain ⟨-, -, border, -, hresizes, -⟩ := (resizeLayoutWithSizing_sound_complete threePaneRow
    (.fromSizeAtOrigin ⟨30, 24⟩) ⟨0⟩ .right 2 .default (by decide) (by decide)).1 _ _ hresize
  exact ⟨_, hresize, hresizes.suppressed_eq⟩

/-- Thirteen columns leave three panes four, four and five: the middle one is at its floor and gives nothing, yet one
cell of offset from it to the first pane moves their border a cell, which the last pane pays. -/
theorem refused_threePaneRow :
    resizeLayoutWithSizing threePaneRow (.fromSizeAtOrigin ⟨13, 24⟩) ⟨0⟩ .right 1 .default =
        .error (.donorAtMinimumSize ⟨0⟩ .right true) ∧
      ∃ border resized,
        resolveResizeBorder threePaneRow (.fromSizeAtOrigin ⟨13, 24⟩) ⟨0⟩ .right true .default = .ok border ∧
        ResizesTo threePaneRow resized (.fromSizeAtOrigin ⟨13, 24⟩) .default border true 1 := by
  refine ⟨rfl, ?_⟩
  obtain ⟨resized, -, hresizes⟩ := @resizesTo_setAddedCount threePaneRow (.fromSizeAtOrigin ⟨13, 24⟩) ⟨0⟩ .right
    true .default _ (by decide) rfl 1 1 (by decide +kernel)
  exact ⟨_, resized, rfl, hresizes⟩

end Koshi.Layout
