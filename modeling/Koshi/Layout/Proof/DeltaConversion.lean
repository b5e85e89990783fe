import Koshi.Layout.Proof.ResizeDeltas
import Koshi.Layout.Proof.Suppression

/-!
# The rewrite keeps the earlier layout

`convertResizeDeltasAtRect` gives a tree that the current solve lays out exactly as the earlier solve laid out the
original one. In one split, the rewritten deltas are the earlier sizes less the targets: the resize pass adds them
back, and its sum repair and the floor pass find nothing left to do. Over the tree, each child's rect is the one its
rewritten parent hands down.
-/

namespace Koshi.Layout

open Base Koshi.Core List

/-! ### One axis -/

theorem distributeAxisCellsEarlier_nil (fl : List Nat) (n : Nat) : distributeAxisCellsEarlier [] fl n = [] := by
  have hresized : applyResizeDeltas [] [] n = [] :=
    eq_nil_of_length_eq_zero (length_repairCountSum [] n)
  have hclamped : clampCellCountsToFloors [] [] fl n = [] := by
    rw [clampCellCountsToFloors]
    split_ifs <;> rfl
  have hshare : computeShareCellCounts [] n = [] := rfl
  have hpref : applyPreferredCellCounts [] [] fl = [] := rfl
  simp only [distributeAxisCellsEarlier, hshare, hresized, hpref, hclamped]

/-- The earlier distribution hands out exactly the available cells and ends at or above every floor that fits. -/
theorem distributeAxisCellsEarlier_axis {weights : List SizeWeight} {fl : List Nat} {n : Nat} (hav : n ≤ u16Max)
    (hne : weights ≠ []) (hlen : fl.length = weights.length) :
    AxisCounts weights.length n (distributeAxisCellsEarlier weights fl n) ∧
      (fl.sum ≤ n → ∀ index, fl.getD index 0 ≤ (distributeAxisCellsEarlier weights fl n).getD index 0) := by
  have hresized := applyResizeDeltas_axis hav hne (length_shareCounts weights n)
  have hpref := @applyPreferredCounts_axis _ _ fl _ hav hresized
  rw [← hlen] at hpref ⊢
  exact clampCountsToFloors_axis hpref

/-- Deltas that are the earlier sizes less the targets bring the earlier sizes back. -/
theorem distributeAxisCells_of_resizeDeltas {weights weights' : List SizeWeight} {fl : List Nat} {n : Nat}
    (hav : n ≤ u16Max) (hne : weights ≠ []) (hlen : fl.length = weights.length)
    (hs : weights'.map SizeWeight.withoutDelta = weights.map SizeWeight.withoutDelta)
    (hdeltas : weights'.map (·.resizeDelta) = List.zipWith (fun (earlier target : Nat) => (earlier : Int) - target)
      (distributeAxisCellsEarlier weights fl n)
      (computeTargetCellCounts weights fl n)) :
    distributeAxisCells weights' fl n = distributeAxisCellsEarlier weights fl n := by
  obtain ⟨⟨her, hsum⟩, hfl⟩ := @distributeAxisCellsEarlier_axis _ fl _ hav hne hlen
  have htgt := length_targetCounts weights fl n
  have ho : weights'.length = weights.length := by simpa using congrArg List.length hs
  rw [distributeAxisCells_eq, targetCounts_congr hs]
  generalize distributeAxisCellsEarlier weights fl n = earlierCellCounts at *
  generalize computeTargetCellCounts weights fl n = targetCellCounts at *
  have hadded : List.zipWith (addClampedDelta n) targetCellCounts weights' =
      earlierCellCounts := by
    refine ext_getElem (by simp [htgt, ho, her]) fun i hi hi' => ?_
    have hdelta := getElem_of_eq hdeltas (i := i) (by simp; omega)
    have hle : earlierCellCounts[i] ≤ n := hsum ▸ single_le_sum (by simp) _ (getElem_mem _)
    rw [getElem_map, getElem_zipWith] at hdelta
    rw [getElem_zipWith, addClampedDelta, hdelta]
    omega
  rw [applyResizeDeltas_eq _ (by omega), hadded, repairCountSum_of_sum hsum, clampCountsToFloors_of_floors _ hfl]

/-! ### The written weights -/

theorem listKeptIndexes_sublist (isChildKept : List Bool) :
    (listKeptIndexes isChildKept).Sublist (List.range isChildKept.length) := by
  induction isChildKept using List.reverseRecOn with
  | nil => exact .slnil
  | append_singleton isChildKept isKept ih =>
    rw [listKeptIndexes_append, length_append, length_singleton, range_succ]
    refine ih.append ?_
    cases isKept <;> simp

variable (weights : List SizeWeight)

theorem getD_modify_weight (f : SizeWeight → SizeWeight) (i j : Nat) :
    (weights.modify i f).getD j .default =
      if i = j ∧ j < weights.length then f (weights.getD j .default) else weights.getD j .default := by
  rw [getD_eq_getElem?_getD, getD_eq_getElem?_getD, List.getElem?_modify]
  by_cases hlt : j < weights.length
  · by_cases hij : i = j <;> simp [hlt, hij]
  · simp [hlt]

@[simp] theorem getD_padWeights (cc index : Nat) :
    (padWeights weights cc).getD index .default = weights.getD index .default := by
  rw [padWeights, getD_eq_getElem?_getD, getD_eq_getElem?_getD]
  rcases Nat.lt_or_ge index weights.length with hlt | hge
  · rw [List.getElem?_append_left hlt]
  · rw [List.getElem?_append_right hge, List.getElem?_eq_none hge, List.getElem?_replicate]
    split <;> rfl

theorem length_padWeights (cc : Nat) : (padWeights weights cc).length = max weights.length cc := by
  rw [padWeights, length_append, length_replicate]
  omega

theorem withoutDelta_writeDeltas (writes : List (Nat × Nat × Nat)) (weights : List SizeWeight) (index : Nat) :
    ((writes.foldl writeResizeDeltaStep weights).getD index .default).withoutDelta =
      (weights.getD index .default).withoutDelta := by
  refine foldl_keeps (fun wr : List SizeWeight => (wr.getD index .default).withoutDelta =
    (weights.getD index .default).withoutDelta) rfl fun wr hwt write _ => ?_
  rw [writeResizeDeltaStep, getD_modify_weight]
  split_ifs
  · exact hwt
  · exact hwt

variable {writes : List (Nat × Nat × Nat)}

theorem getD_writeDeltas_of_not_mem {index : Nat} (h : index ∉ writes.map Prod.fst) (weights : List SizeWeight) :
    (writes.foldl writeResizeDeltaStep weights).getD index .default = weights.getD index .default := by
  refine foldl_keeps (fun wr : List SizeWeight => wr.getD index .default =
    weights.getD index .default) rfl fun wr hwt write hm => ?_
  have hne : write.1 ≠ index := fun heq => h (heq ▸ List.mem_map_of_mem hm)
  rw [writeResizeDeltaStep, getD_modify_weight, if_neg (fun hor => hne hor.1), hwt]

theorem resizeDelta_writeDeltas (hnd : (writes.map Prod.fst).Nodup) {weights : List SizeWeight}
    (hlt : ∀ index ∈ writes.map Prod.fst, index < weights.length) :
    (writes.map fun write => ((writes.foldl writeResizeDeltaStep weights).getD write.1 .default).resizeDelta) =
      writes.map fun write => (write.2.1 : Int) - write.2.2 := by
  induction writes generalizing weights with
  | nil => rfl
  | cons write writes ih =>
    rw [map_cons, nodup_cons] at hnd
    rw [map_cons, map_cons, foldl_cons, getD_writeDeltas_of_not_mem hnd.1]
    have hwr : write.1 < weights.length := hlt _ mem_cons_self
    congr 1
    · rw [writeResizeDeltaStep, getD_modify_weight, if_pos ⟨rfl, hwr⟩]
    · refine ih hnd.2 fun index hm => ?_
      rw [writeResizeDeltaStep, length_modify]
      exact hlt _ (mem_cons_of_mem _ hm)

/-! ### One split -/

section OneSplit

variable (splitNode : SplitNode LayoutNode) (ar : Rect) (sz : PaneSizing)

theorem SameButDeltas.refl (splitNode : SplitNode LayoutNode) : SameButDeltas splitNode splitNode := ⟨rfl, fun _ => rfl⟩

theorem convertSplitDeltas_sameButDeltas : SameButDeltas splitNode (convertSplitResizeDeltas splitNode ar sz) := by
  simp only [convertSplitResizeDeltas]
  split_ifs
  · exact .refl splitNode
  · refine ⟨rfl, fun index => ?_⟩
    dsimp only
    rw [withoutDelta_writeDeltas, getD_padWeights]

theorem convertSplitDeltas_children :
    (convertSplitResizeDeltas splitNode ar sz).children = splitNode.children ∧
    (convertSplitResizeDeltas splitNode ar sz).activeChildIndex = splitNode.activeChildIndex := by
  simp only [convertSplitResizeDeltas]
  split_ifs <;> exact ⟨rfl, rfl⟩

variable {splitNode ar sz}

theorem sharedCellCount_le (hw : SizeWithinU16 ar.size) :
    (listKeptChildren splitNode ar sz).sharedCellCount ≤ u16Max := by
  obtain ⟨hco, hrows⟩ := hw
  simp only [listKeptChildren, splitAxisAndCrossCellCounts]
  split_ifs <;> dsimp only <;> omega

/-- **The current solve of a rewritten split gives its children the earlier rects**, whatever deltas are rewritten
below it. -/
theorem directionalRects_convert (hw : SizeWithinU16 ar.size) {other : SplitNode LayoutNode}
    (hdir : other.direction = splitNode.direction)
    (hws : other.weights = (convertSplitResizeDeltas splitNode ar sz).weights)
    (hsizes : computeMinimumSizes sz splitNode.children = computeMinimumSizes sz other.children) :
    computeDirectionalChildRects other ar sz =
      computeDirectionalChildRectsWith distributeAxisCellsEarlier splitNode ar sz := by
  have hs : SameButDeltas splitNode other :=
    ⟨hdir.symm, fun index => hws ▸ (convertSplitDeltas_sameButDeltas splitNode ar sz).weights_eq index⟩
  obtain ⟨ho, hk, hflags, hfl⟩ := listKeptChildren_together hs ar hsizes
  have hav := @sharedCellCount_le splitNode ar sz hw
  rw [computeDirectionalChildRects, computeDirectionalChildRectsWith, ho, hdir, hws]
  simp only [convertSplitResizeDeltas]
  generalize listKeptChildren splitNode ar sz = keptChildren at *
  obtain ⟨isChildKept, keptWeights, keptFloors, share⟩ := keptChildren
  dsimp only at hk hflags hfl hav ⊢
  congr 1
  split_ifs with hagree
  · rw [← hk, hagree]
  -- the two solves differ, so some child is kept
  have hne : keptWeights ≠ [] := by
    rintro rfl
    exact hagree ((distributeAxisCellsEarlier_nil _ _).trans
      (distributeAxisCells_nil _ _ (eq_nil_of_length_eq_zero hfl)).symm)
  obtain ⟨⟨her, -⟩, -⟩ := distributeAxisCellsEarlier_axis hav hne hfl
  have htgt := length_targetCounts keptWeights keptFloors share
  have hindexes : (listKeptIndexes isChildKept).length = keptWeights.length := by
    rw [hk, listWeightsAt, length_map]
  generalize hwr : (listKeptIndexes isChildKept).zip ((distributeAxisCellsEarlier keptWeights keptFloors
    share).zip (computeTargetCellCounts keptWeights keptFloors share)) = writes
  have hfst : writes.map Prod.fst = listKeptIndexes isChildKept := by
    rw [← hwr, map_fst_zip]
    rw [length_zip, her, htgt, hindexes]
    omega
  have hsnd : (writes.map fun write => (write.2.1 : Int) - write.2.2) =
      List.zipWith (fun (earlier target : Nat) => (earlier : Int) - target)
        (distributeAxisCellsEarlier keptWeights keptFloors share)
        (computeTargetCellCounts keptWeights keptFloors share) := by
    have hzip : writes.map Prod.snd = (distributeAxisCellsEarlier keptWeights keptFloors share).zip
        (computeTargetCellCounts keptWeights keptFloors share) := by
      rw [← hwr, map_snd_zip]
      rw [length_zip, her, htgt, hindexes]
      omega
    rw [← map_uncurry_zip_eq_zipWith, ← hzip, List.map_map]
    rfl
  have hsublist := listKeptIndexes_sublist isChildKept
  refine distributeAxisCells_of_resizeDeltas hav hne hfl ?_ ?_
  · rw [hk, listWeightsAt, listWeightsAt, List.map_map, List.map_map]
    refine map_congr_left fun index _ => ?_
    rw [Function.comp_apply, Function.comp_apply, withoutDelta_writeDeltas, getD_padWeights]
  · rw [listWeightsAt, ← hfst, List.map_map, List.map_map, ← hsnd, ← resizeDelta_writeDeltas]
    · rfl
    · rw [hfst]
      exact hsublist.nodup nodup_range
    · intro index hm
      rw [hfst] at hm
      have := mem_range.1 (hsublist.subset hm)
      rw [length_padWeights]
      omega

end OneSplit

/-! ### What the rewrite keeps of a tree -/

/-- Two trees with the same leaves that need the same room. -/
structure SameRoom (paneSizing : PaneSizing) (layoutNode node' : LayoutNode) : Prop where
  leaves_eq : node'.listLeafPaneIds = layoutNode.listLeafPaneIds
  minimum_eq : computeMinimumSize paneSizing node' = computeMinimumSize paneSizing layoutNode

variable (layoutNode : LayoutNode) {children others : List LayoutNode}

section Rewrite

variable {sz : PaneSizing}

theorem SameRoom.refl : SameRoom sz layoutNode layoutNode := ⟨rfl, rfl⟩

theorem forall₂_sameRoom_refl (children : List LayoutNode) : List.Forall₂ (SameRoom sz) children children :=
  forall₂_same.2 fun child _ => .refl child

theorem minimumSizes_of_sameRoom (h : List.Forall₂ (SameRoom sz) children others) :
    computeMinimumSizes sz children = computeMinimumSizes sz others := by
  induction h with
  | nil => rfl
  | cons hch _ ih => rw [computeMinimumSizes, computeMinimumSizes, ih, hch.minimum_eq]

theorem flatMap_leaves_of_sameRoom (h : List.Forall₂ (SameRoom sz) children others) :
    others.flatMap LayoutNode.listLeafPaneIds = children.flatMap LayoutNode.listLeafPaneIds := by
  induction h with
  | nil => rfl
  | cons hch _ ih => rw [flatMap_cons, flatMap_cons, ih, hch.leaves_eq]

theorem SameRoom.split {splitNode other : SplitNode LayoutNode} (hs : SameButDeltas splitNode other)
    (hact : other.activeChildIndex = splitNode.activeChildIndex)
    (hcs : List.Forall₂ (SameRoom sz) splitNode.children other.children) :
    SameRoom sz (.split splitNode) (.split other) := by
  have hsizes := minimumSizes_of_sameRoom hcs
  have hln := hcs.length_eq
  refine ⟨by simpa using flatMap_leaves_of_sameRoom hcs, ?_⟩
  by_cases hdir : splitNode.direction = .stacked
  · rw [minimumSize_split_of_stacked _ hdir, minimumSize_split_of_stacked _ (hs.direction_eq ▸ hdir)]
    simp only [computeStackMinimumSize, computeStackMinimumSizeFrom, SplitNode.getActiveChildIndex, hact, hsizes, hln]
  · have hstep : directionalMinimumStep splitNode = directionalMinimumStep other := by
      funext totals slot
      rw [directionalMinimumStep_eq, directionalMinimumStep_eq, hs.direction_eq, hs.computeChildFloor_eq]
    rw [minimumSize_split_of_ne _ hdir, minimumSize_split_of_ne _ (hs.direction_eq ▸ hdir)]
    simp only [computeDirectionalMinimumSize, hstep, hsizes, hln, hs.direction_eq]

theorem convertDeltasAtRect_split_of_ne {splitNode : SplitNode LayoutNode} (h : splitNode.direction ≠ .stacked)
    (r : Rect) : convertResizeDeltasAtRect sz r (.split splitNode) =
      .split ⟨splitNode.direction, convertChildrenAtRects sz (computeDirectionalChildRects
          (convertSplitResizeDeltas splitNode r sz) r sz) splitNode.children,
        (convertSplitResizeDeltas splitNode r sz).weights, splitNode.activeChildIndex⟩ := by
  have hdir := (convertSplitDeltas_sameButDeltas splitNode r sz).direction_eq
  have hact := (convertSplitDeltas_children splitNode r sz).2
  rw [hdir, ← hact]
  obtain ⟨dir, children, weights, active⟩ := splitNode
  cases dir with
  | stacked => exact absurd rfl h
  | horizontal => rfl
  | vertical => rfl

theorem convertMembersAtRect_eq (r : Rect) (ms : List LayoutNode) :
    convertMembersAtRect sz r ms = ms.map (convertResizeDeltasAtRect sz r) := by
  induction ms with
  | nil => rfl
  | cons member ms ih => rw [convertMembersAtRect, ih, map_cons]

/-- A stack is rewritten below its members where the shown one has room, and kept otherwise. -/
theorem convertDeltasAtRect_split_of_stacked {splitNode : SplitNode LayoutNode} (h : splitNode.direction = .stacked)
    (r : Rect) :
    (∃ memberRect, (computeStackedChildRects splitNode r sz)[splitNode.getActiveChildIndex]? =
        some memberRect ∧ convertResizeDeltasAtRect sz r (.split splitNode) =
          .split { splitNode with
            children := splitNode.children.map (convertResizeDeltasAtRect sz memberRect) }) ∨
    convertResizeDeltasAtRect sz r (.split splitNode) = .split splitNode ∧
      ∀ memberRect, (computeStackedChildRects splitNode r sz)[splitNode.getActiveChildIndex]? =
        some memberRect → memberRect.isEmpty = true := by
  obtain ⟨dir, children, weights, active⟩ := splitNode
  dsimp only at h
  subst h
  rw [convertResizeDeltasAtRect]
  dsimp only
  cases hsh : (computeStackedChildRects ⟨.stacked, children, weights, active⟩ r
    sz)[SplitNode.getActiveChildIndex ⟨.stacked, children, weights, active⟩]? with
  | none => exact Or.inr ⟨rfl, fun memberRect heq => by cases heq⟩
  | some memberRect =>
    dsimp only
    by_cases hem : memberRect.isEmpty = true
    · rw [if_pos hem]
      refine Or.inr ⟨rfl, fun rect' heq => ?_⟩
      rw [← Option.some.inj heq]
      exact hem
    · rw [if_neg hem, convertMembersAtRect_eq]
      exact Or.inl ⟨memberRect, rfl, rfl⟩

theorem convertChildrenAtRects_sameRoom {children : List LayoutNode}
    (h : ∀ child ∈ children, ∀ r, SameRoom sz child (convertResizeDeltasAtRect sz r child)) (rs : List Rect) :
    List.Forall₂ (SameRoom sz) children (convertChildrenAtRects sz rs children) := by
  induction children generalizing rs with
  | nil => exact .nil
  | cons child children ih =>
    cases rs with
    | nil => exact forall₂_sameRoom_refl _
    | cons childRect rs =>
      refine .cons ?_ (ih (fun other hm => h other (mem_cons_of_mem _ hm)) rs)
      split_ifs
      · exact .refl child
      · exact h child mem_cons_self childRect

/-- **The rewrite keeps the leaves and the room a tree needs.** -/
theorem convertDeltasAtRect_sameRoom (r : Rect) :
    SameRoom sz layoutNode (convertResizeDeltasAtRect sz r layoutNode) := by
  induction layoutNode generalizing r with
  | pane paneId => exact .refl _
  | split splitNode ih =>
    by_cases hdir : splitNode.direction = .stacked
    · rcases convertDeltasAtRect_split_of_stacked hdir r with ⟨memberRect, -, heq⟩ | ⟨heq, -⟩
      · rw [heq]
        refine .split ⟨rfl, fun _ => rfl⟩ rfl ?_
        rw [forall₂_map_right_iff, forall₂_same]
        exact fun child hm => ih child hm memberRect
      · rw [heq]
        exact .refl _
    · rw [convertDeltasAtRect_split_of_ne hdir]
      have hs := convertSplitDeltas_sameButDeltas splitNode r sz
      exact .split ⟨rfl, hs.weights_eq⟩ rfl (convertChildrenAtRects_sameRoom ih _)

end Rewrite

/-! ### The solve with another distribution -/

section With

variable (distribute : List SizeWeight → List Nat → Nat → List Nat)

theorem solveNodeWith_split_of_ne {splitNode : SplitNode LayoutNode} (h : splitNode.direction ≠ .stacked) (r : Rect)
    (st : LayoutSolveState) :
    solveLayoutNodeWith distribute r st (.split splitNode) = solveDirectionalChildrenWith distribute
      (computeDirectionalChildRectsWith distribute splitNode r st.paneSizing) st
      splitNode.children := by
  obtain ⟨dir, children, weights, active⟩ := splitNode
  cases dir with
  | stacked => exact absurd rfl h
  | horizontal => rfl
  | vertical => rfl

theorem solveNodeWith_split_of_stacked {splitNode : SplitNode LayoutNode} (h : splitNode.direction = .stacked)
    (r : Rect) (st : LayoutSolveState) :
    solveLayoutNodeWith distribute r st (.split splitNode) = solveStackedChildrenWith distribute
      splitNode.getActiveChildIndex splitNode.children.length 0
      (computeStackedChildRects splitNode r st.paneSizing) st splitNode.children := by
  obtain ⟨dir, children, weights, active⟩ := splitNode
  subst h
  rfl

@[simp] theorem suppressLayoutSubtree_paneSizing (st : LayoutSolveState) :
    (suppressLayoutSubtree layoutNode st).paneSizing = st.paneSizing := by
  rw [suppressLayoutSubtree_eq]
  rfl

@[simp] theorem emitStackHeader_paneSizing (child : LayoutNode) (headerRect : Rect) (position memCount : Nat)
    (st : LayoutSolveState) :
    (emitStackHeader child headerRect position memCount st).paneSizing = st.paneSizing := by
  rw [emitStackHeader]
  split <;> rfl

theorem solveNodeWith_paneSizing (r : Rect) (st : LayoutSolveState) :
    (solveLayoutNodeWith distribute r st layoutNode).paneSizing = st.paneSizing := by
  induction layoutNode generalizing r st with
  | pane paneId =>
    rw [solveLayoutNodeWith, solveLayoutNode]
    split_ifs <;> rfl
  | split splitNode ih =>
    by_cases hdir : splitNode.direction = .stacked
    · rw [solveNodeWith_split_of_stacked _ hdir]
      generalize computeStackedChildRects splitNode r st.paneSizing = rs
      generalize (0 : Nat) = memberIndex
      generalize splitNode.children.length = memberCount
      generalize splitNode.children = children at ih
      induction children generalizing rs memberIndex st with
      | nil => rfl
      | cons child children ihChildren =>
        cases rs with
        | nil => rfl
        | cons childRect rs =>
          rw [solveStackedChildrenWith, ihChildren _ _ _ fun other hm => ih other (mem_cons_of_mem _ hm)]
          split_ifs
          · exact suppressLayoutSubtree_paneSizing child st
          · exact ih child mem_cons_self childRect st
          · exact emitStackHeader_paneSizing child childRect memberIndex memberCount st
    · rw [solveNodeWith_split_of_ne _ hdir]
      generalize computeDirectionalChildRectsWith distribute splitNode r st.paneSizing = childRects
      generalize splitNode.children = children at ih
      induction children generalizing childRects st with
      | nil => rfl
      | cons child children ihChildren =>
        cases childRects with
        | nil => rfl
        | cons childRect childRects =>
          rw [solveDirectionalChildrenWith, ihChildren _ _ fun other hm => ih other (mem_cons_of_mem _ hm)]
          split_ifs
          · exact suppressLayoutSubtree_paneSizing child st
          · exact ih child mem_cons_self childRect st

end With

/-! ### The sizes stay within `u16` -/

theorem sizeWithinU16_layChildRects {isHorizontalSplit : Bool} {ar : Rect} {gapCellCount : Nat}
    {isChildKept : List Bool} {counts : List Nat} {off : Nat} (hw : SizeWithinU16 ar.size)
    (hcn : ∀ cellCount ∈ counts, cellCount ≤ u16Max) :
    ∀ r ∈ layChildRects isHorizontalSplit ar gapCellCount isChildKept counts off, SizeWithinU16 r.size := by
  induction isChildKept generalizing counts off with
  | nil => exact fun r hm => absurd hm not_mem_nil
  | cons isKept isChildKept ih =>
    intro r hm
    cases isKept with
    | false =>
      rcases mem_cons.1 hm with rfl | hm
      · exact ⟨Nat.zero_le _, Nat.zero_le _⟩
      · exact ih hcn r hm
    | true =>
      rcases mem_cons.1 hm with rfl | hm
      · have hhead : counts.headD 0 ≤ u16Max := by
          cases counts with
          | nil => exact Nat.zero_le _
          | cons cellCount counts => exact hcn cellCount mem_cons_self
        cases isHorizontalSplit with
        | false => exact ⟨hw.1, hhead⟩
        | true => exact ⟨hhead, hw.2⟩
      · exact ih (fun cellCount hce => hcn cellCount (mem_of_mem_tail hce)) r hm

theorem sizeWithinU16_earlierChildRects {splitNode : SplitNode LayoutNode} {ar : Rect} {sz : PaneSizing}
    (hw : SizeWithinU16 ar.size) :
    ∀ r ∈ computeDirectionalChildRectsWith distributeAxisCellsEarlier splitNode ar sz, SizeWithinU16 r.size := by
  obtain ⟨-, -, -, hfl⟩ := @listKeptChildren_together _ _ (.refl splitNode) ar sz rfl
  have hav := @sharedCellCount_le splitNode ar sz hw
  rw [computeDirectionalChildRectsWith]
  generalize listKeptChildren splitNode ar sz = keptChildren at hfl hav ⊢
  refine sizeWithinU16_layChildRects hw fun cellCount hm => ?_
  by_cases hne : keptChildren.keptWeights = []
  · rw [hne, distributeAxisCellsEarlier_nil] at hm
    exact absurd hm not_mem_nil
  · obtain ⟨⟨-, hsum⟩, -⟩ := distributeAxisCellsEarlier_axis hav hne hfl
    have hle := single_le_sum (by simp) _ hm
    omega

theorem sizeWithinU16_layMemberRects {ar : Rect} {activeIndex activeRows : Nat} (hw : SizeWithinU16 ar.size)
    (hact : activeRows ≤ u16Max) (position rest rowOffset : Nat) :
    ∀ r ∈ layMemberRects ar activeIndex activeRows position rest rowOffset, SizeWithinU16 r.size := by
  induction rest generalizing position rowOffset with
  | zero => exact fun r hm => absurd hm not_mem_nil
  | succ rest ih =>
    intro r hm
    rcases mem_cons.1 hm with rfl | hm
    · refine ⟨hw.1, ?_⟩
      dsimp only
      split_ifs
      · exact hact
      · decide
    · exact ih _ _ r hm

theorem sizeWithinU16_stackedRects {splitNode : SplitNode LayoutNode} {ar : Rect} {sz : PaneSizing}
    (hw : SizeWithinU16 ar.size) :
    ∀ r ∈ computeStackedChildRects splitNode ar sz, SizeWithinU16 r.size := by
  simp only [computeStackedChildRects]
  split_ifs
  · exact fun r hm => absurd hm not_mem_nil
  · intro r hm
    rw [eq_of_mem_replicate hm]
    exact ⟨Nat.zero_le _, Nat.zero_le _⟩
  · exact sizeWithinU16_layMemberRects hw (le_trans (Nat.sub_le _ _) hw.2) _ _ _

/-! ### The rewritten tree -/

section Rewritten

variable {sz : PaneSizing}

/-- The current solve of the rewritten node appends what the earlier solve of the original one appends. -/
def RewriteSolves (paneSizing : PaneSizing) (layoutNode : LayoutNode) : Prop :=
  ∀ (rect : Rect) (state : LayoutSolveState), SizeWithinU16 rect.size → state.paneSizing = paneSizing →
    solveLayoutNode rect state (convertResizeDeltasAtRect paneSizing rect layoutNode) =
      solveLayoutNodeWith distributeAxisCellsEarlier rect state layoutNode

theorem solveDirectional_convert {children : List LayoutNode} {rs : List Rect}
    (hslv : ∀ child ∈ children, RewriteSolves sz child) (hw : ∀ r ∈ rs, SizeWithinU16 r.size) (st : LayoutSolveState)
    (hsz : st.paneSizing = sz) :
    solveDirectionalChildren rs st (convertChildrenAtRects sz rs children) =
      solveDirectionalChildrenWith distributeAxisCellsEarlier rs st children := by
  induction children generalizing rs st with
  | nil => rfl
  | cons child children ih =>
    cases rs with
    | nil => rfl
    | cons childRect rs =>
      have hr := fun next hn => ih (fun other hm => hslv other (mem_cons_of_mem _ hm))
        (fun r hm => hw r (mem_cons_of_mem _ hm)) next hn
      rw [convertChildrenAtRects, solveDirectionalChildren, solveDirectionalChildrenWith]
      by_cases hem : childRect.isEmpty = true
      · rw [if_pos hem, if_pos hem, if_pos hem]
        exact hr _ ((suppressLayoutSubtree_paneSizing child st).trans hsz)
      · rw [if_neg hem, if_neg hem, if_neg hem, hslv child mem_cons_self childRect st (hw _ mem_cons_self) hsz]
        exact hr _ ((solveNodeWith_paneSizing child _ childRect st).trans hsz)

theorem suppressLayoutSubtree_congr {layoutNode other : LayoutNode}
    (h : other.listLeafPaneIds = layoutNode.listLeafPaneIds) (st : LayoutSolveState) :
    suppressLayoutSubtree other st = suppressLayoutSubtree layoutNode st := by
  rw [suppressLayoutSubtree, suppressLayoutSubtree, h]

theorem emitStackHeader_congr {layoutNode other : LayoutNode} (h : other.listLeafPaneIds = layoutNode.listLeafPaneIds)
    (headerRect : Rect) (position memberCount : Nat) (st : LayoutSolveState) :
    emitStackHeader other headerRect position memberCount st =
      emitStackHeader layoutNode headerRect position memberCount st := by
  rw [emitStackHeader, emitStackHeader, h]

/-- A stack is solved alike over members with the same leaves of which the shown one solves alike. -/
theorem solveStacked_congr {activeIndex memberCount : Nat} {rs : List Rect}
    (hroom : List.Forall₂ (SameRoom sz) children others) (position : Nat)
    (hact : ∀ i child child' r, position + i = activeIndex →
      children[i]? = some child → others[i]? = some child' → rs[i]? = some r →
      r.isEmpty = false → ∀ st : LayoutSolveState, st.paneSizing = sz →
        solveLayoutNode r st child' = solveLayoutNodeWith distributeAxisCellsEarlier r st child)
    (st : LayoutSolveState) (hsz : st.paneSizing = sz) :
    solveStackedChildren activeIndex memberCount position rs st others =
      solveStackedChildrenWith distributeAxisCellsEarlier activeIndex memberCount position rs st children := by
  induction hroom generalizing rs position st with
  | nil => rfl
  | @cons child child' children others hch hcs ih =>
    cases rs with
    | nil => rfl
    | cons childRect rs =>
      have hr := fun next hn => @ih rs (position + 1)
        (fun i child child' r hidx => hact (i + 1) child child' r (by omega)) next hn
      rw [solveStackedChildren, solveStackedChildrenWith, suppressLayoutSubtree_congr hch.leaves_eq,
        emitStackHeader_congr hch.leaves_eq]
      by_cases hem : childRect.isEmpty = true
      · rw [if_pos hem, if_pos hem]
        exact hr _ ((suppressLayoutSubtree_paneSizing child st).trans hsz)
      · rw [if_neg hem, if_neg hem]
        by_cases hsh : position = activeIndex
        · rw [if_pos hsh, if_pos hsh, hact 0 child child' childRect hsh rfl rfl rfl (Bool.eq_false_iff.2 hem) st hsz]
          exact hr _ ((solveNodeWith_paneSizing child _ childRect st).trans hsz)
        · rw [if_neg hsh, if_neg hsh]
          exact hr _ ((emitStackHeader_paneSizing child childRect position memberCount st).trans hsz)

theorem rewriteSolves_stacked {splitNode : SplitNode LayoutNode} (hdir : splitNode.direction = .stacked)
    (hslv : ∀ child ∈ splitNode.children, RewriteSolves sz child) :
    RewriteSolves sz (.split splitNode) := by
  intro r st hw hsz
  have hrcs := @sizeWithinU16_stackedRects splitNode r sz hw
  rw [solveNodeWith_split_of_stacked _ hdir, hsz]
  rcases @convertDeltasAtRect_split_of_stacked sz _ hdir r with
    ⟨shownRect, hsh, heq⟩ | ⟨heq, hem⟩
  · have hroom : List.Forall₂ (SameRoom sz) splitNode.children
        (splitNode.children.map (convertResizeDeltasAtRect sz shownRect)) := by
      rw [forall₂_map_right_iff, forall₂_same]
      exact fun child _ => convertDeltasAtRect_sameRoom child shownRect
    have hs : computeStackedChildRects { splitNode with
          children := splitNode.children.map (convertResizeDeltasAtRect sz shownRect) } r sz =
        computeStackedChildRects splitNode r sz := by
      simp only [computeStackedChildRects, computeStackMinimumSize, computeStackMinimumSizeFrom,
        SplitNode.getActiveChildIndex, ← minimumSizes_of_sameRoom hroom, length_map]
      rfl
    rw [heq, @solveNode_split_of_stacked { splitNode with
      children := splitNode.children.map (convertResizeDeltasAtRect sz shownRect) } hdir, hsz, hs]
    simp only [SplitNode.getActiveChildIndex, length_map]
    refine solveStacked_congr hroom 0 ?_ st hsz
    intro i child child' rect' hidx hch ho hrc hne next hn
    rw [Nat.zero_add] at hidx
    rw [hidx, ← SplitNode.getActiveChildIndex] at hrc
    obtain rfl : rect' = shownRect := Option.some.inj (hrc.symm.trans hsh)
    rw [List.getElem?_map, hch, Option.map_some, Option.some.injEq] at ho
    rw [← ho]
    exact hslv child (mem_of_getElem? hch) rect' next (hrcs _ (mem_of_getElem? hrc)) hn
  · rw [heq, solveNode_split_of_stacked hdir, hsz]
    refine solveStacked_congr (forall₂_sameRoom_refl _) 0 ?_ st hsz
    intro i child child' rect' hidx _ _ hrc hne
    rw [Nat.zero_add] at hidx
    rw [hem rect' (hidx ▸ hrc)] at hne
    cases hne

theorem rewriteSolves_directional {splitNode : SplitNode LayoutNode} (hdir : splitNode.direction ≠ .stacked)
    (hslv : ∀ child ∈ splitNode.children, RewriteSolves sz child) :
    RewriteSolves sz (.split splitNode) := by
  intro r st hw hsz
  have hs := convertSplitDeltas_sameButDeltas splitNode r sz
  have hcs := (convertSplitDeltas_children splitNode r sz).1
  -- the rects the rewrite hands down are the rects of the earlier solve
  have hhnd := @directionalRects_convert splitNode r sz hw
    (convertSplitResizeDeltas splitNode r sz) hs.direction_eq.symm rfl (by rw [hcs])
  have hroom := @convertChildrenAtRects_sameRoom sz splitNode.children
    (fun child _ childRect => convertDeltasAtRect_sameRoom child childRect)
    (computeDirectionalChildRectsWith distributeAxisCellsEarlier splitNode r sz)
  rw [convertDeltasAtRect_split_of_ne hdir, hhnd, solveNodeWith_split_of_ne _ hdir, hsz]
  generalize hnodup' : (⟨splitNode.direction, _, _, splitNode.activeChildIndex⟩ : SplitNode LayoutNode) = node'
  have hrcs : computeDirectionalChildRects node' r sz =
      computeDirectionalChildRectsWith distributeAxisCellsEarlier splitNode r sz := by
    subst hnodup'
    exact directionalRects_convert hw rfl rfl (minimumSizes_of_sameRoom hroom)
  rw [solveNode_split_of_ne (by rw [← hnodup']; exact hdir), hsz, hrcs, ← hnodup']
  exact solveDirectional_convert hslv (sizeWithinU16_earlierChildRects hw) st hsz

theorem rewriteSolves : RewriteSolves sz layoutNode := by
  induction layoutNode with
  | pane paneId => exact fun _ _ _ _ => rfl
  | split splitNode ih =>
    by_cases hdir : splitNode.direction = .stacked
    · exact rewriteSolves_stacked hdir ih
    · exact rewriteSolves_directional hdir ih

end Rewritten

/-- **The rewrite keeps the layout.** Over the rect it was rewritten at, the current solve of the rewritten tree is
the earlier solve of the original one: the same pane rects, suppressed panes and stack headers. -/
theorem convertResizeDeltasAtRect_solves (layoutTree : LayoutNode) (tabRect : Rect) (paneSizing : PaneSizing)
    (hwithin : SizeWithinU16 tabRect.size) :
    solveLayoutWithSizing (convertResizeDeltasAtRect paneSizing tabRect layoutTree) tabRect paneSizing =
      solveLayoutWithSizingWith distributeAxisCellsEarlier layoutTree tabRect paneSizing := by
  have hsolves := rewriteSolves layoutTree tabRect (.fromPaneSizing paneSizing) hwithin rfl
  rw [solveLayoutWithSizing, solveLayoutWithSizingWith]
  exact congrArg LayoutSolveState.intoLayoutSolve hsolves

/-- A pane that prefers 20 columns beside a flexible one, with the offsets `+10` and `-10`: the earlier solve gave 20
and 60 of 80 columns, the current one gives 30 and 50. -/
def preferredBesideFlexible : LayoutNode :=
  .split ⟨.horizontal, [.pane ⟨0⟩, .pane ⟨1⟩],
    [{ SizeWeight.fromPrimaryConstraint (.preferred 20) with resizeDelta := 10 },
      { SizeWeight.default with resizeDelta := -10 }], 0⟩

theorem convertResizeDeltasAtRect_solves_preferredBesideFlexible :
    (solveLayoutWithSizing preferredBesideFlexible (.fromSizeAtOrigin ⟨80, 24⟩) .default).paneRects =
      [(⟨0⟩, ⟨⟨0, 0⟩, ⟨30, 24⟩⟩), (⟨1⟩, ⟨⟨30, 0⟩, ⟨50, 24⟩⟩)] ∧
    (solveLayoutWithSizing (convertResizeDeltasAtRect .default (.fromSizeAtOrigin ⟨80, 24⟩) preferredBesideFlexible)
      (.fromSizeAtOrigin ⟨80, 24⟩) .default).paneRects =
      [(⟨0⟩, ⟨⟨0, 0⟩, ⟨20, 24⟩⟩), (⟨1⟩, ⟨⟨20, 0⟩, ⟨60, 24⟩⟩)] := by
  rw [convertResizeDeltasAtRect_solves _ _ _ (by decide)]
  decide +kernel

end Koshi.Layout
