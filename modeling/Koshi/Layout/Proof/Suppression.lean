import Mathlib.Tactic
import Koshi.Layout.Proof.Solve

/-!
# When a layout suppresses a pane

Whether a solve suppresses a pane is decided a second time, apart from the solve: `computeMinimumSize` gives the
smallest rect the whole tree needs. The two agree at every node. Only the size of a rect counts, so the facts about
child rects are used at a rect moved to the origin, where no edge leaves `u16`.
-/

namespace Koshi.Layout

open Base Koshi.Core List Rect

variable {sz : PaneSizing} {ar : Rect}

/-! ### The origin of a rect does not matter -/

section Origin

variable {ar rect' : Rect}

section

variable (hsize : ar.size = rect'.size)

include hsize

theorem layChildRects_sizes (hor : Bool) (gapCellCount : Nat) (keeps : List Bool) (sh : List Nat) (off : Nat) :
    (layChildRects hor ar gapCellCount keeps sh off).map size =
      (layChildRects hor rect' gapCellCount keeps sh off).map size := by
  induction keeps generalizing sh off with
  | nil => rfl
  | cons isKept keeps ih =>
    cases isKept with
    | false => rw [layChildRects, layChildRects, map_cons, map_cons, ih]
    | true =>
      rw [layChildRects, layChildRects, map_cons, map_cons, ih]
      cases hor <;> simp [buildAxisChildRect, hsize]

theorem listKeptChildren_congr (nd : SplitNode LayoutNode) (sz : PaneSizing) :
    listKeptChildren nd ar sz = listKeptChildren nd rect' sz := by
  have hstep : keepChildStep nd ar sz = keepChildStep nd rect' sz := by
    funext kept slot
    simp only [keepChildStep, hsize]
  simp only [listKeptChildren, hstep, hsize]

theorem directionalRects_sizes (nd : SplitNode LayoutNode) (sz : PaneSizing) :
    (computeDirectionalChildRects nd ar sz).map size = (computeDirectionalChildRects nd rect' sz).map size := by
  simp only [computeDirectionalChildRects, listKeptChildren_congr hsize]
  exact layChildRects_sizes hsize _ _ _ _ _

theorem layMemberRects_sizes (active activeRowCount position rest rowOffset otherOffset : Nat) :
    (layMemberRects ar active activeRowCount position rest rowOffset).map size =
      (layMemberRects rect' active activeRowCount position rest otherOffset).map size := by
  induction rest generalizing position rowOffset otherOffset with
  | zero => rfl
  | succ rest ih =>
    rw [layMemberRects, layMemberRects, map_cons, map_cons, hsize]
    exact congrArg _ (ih _ _ _)

theorem stackedRects_sizes (nd : SplitNode LayoutNode) (sz : PaneSizing) :
    (computeStackedChildRects nd ar sz).map size = (computeStackedChildRects nd rect' sz).map size := by
  simp only [computeStackedChildRects, hsize]
  split_ifs
  · rfl
  · rfl
  · exact layMemberRects_sizes hsize _ _ _ _ _ _

end

end Origin

def SizeWithinU16 (size : Size) : Prop := size.columnCount ≤ u16Max ∧ size.rowCount ≤ u16Max

instance (size : Size) : Decidable (SizeWithinU16 size) := inferInstanceAs (Decidable (_ ∧ _))

theorem withinU16_fromAtOrigin {size : Size} (h : SizeWithinU16 size) : (fromSizeAtOrigin size).WithinU16 := by
  obtain ⟨hco, hrows⟩ := h
  constructor
  · simpa [fromSizeAtOrigin, getRightEdge] using hco
  · simpa [fromSizeAtOrigin, getBottomEdge] using hrows

theorem not_isEmpty_of_canFitInside {nd : LayoutNode} (hgood : nd.hasNoLeaflessSplit = true) {r : Rect}
    (hfit : (computeMinimumSize sz nd).canFitInside r.size = true) : r.isEmpty = false := by
  have htwo := two_le_minimumSize sz hgood
  rw [RequiredSize.canFitInside_iff] at hfit
  rw [Bool.eq_false_iff, ne_eq, Rect.isEmpty_iff]
  omega

/-! ### A split keeps every child only where its minimum fits -/

theorem foldl_max_le {counts : List Nat} {init bound : Nat} (hinit : init ≤ bound)
    (h : ∀ count ∈ counts, count ≤ bound) : counts.foldl max init ≤ bound := by
  induction counts generalizing init with
  | nil => exact hinit
  | cons count counts ih =>
    rw [foldl_cons]
    apply ih
    · exact max_le hinit (h count mem_cons_self)
    · exact fun other ho => h other (mem_cons_of_mem _ ho)

variable {nd : SplitNode LayoutNode}

theorem foldl_keepChildStep_kept (minima : List RequiredSize) (i₀ : Nat) {kept : KeptState}
    (hall : ((minima.zipIdx i₀).foldl (keepChildStep nd ar sz) kept).isChildKept.all id = true) :
    kept.isChildKept.all id = true ∧
    ((minima.zipIdx i₀).foldl (keepChildStep nd ar sz)
      kept).keptFloors = kept.keptFloors ++ (minima.zipIdx i₀).map (fun slot =>
        computeChildFloor nd slot.2 (axisMinimum (nd.direction = .horizontal) slot.1)) ∧
    ∀ size ∈ minima, crossMinimum (nd.direction = .horizontal) size ≤ crossCount (nd.direction = .horizontal) ar := by
  induction minima generalizing i₀ kept with
  | nil => simpa using hall
  | cons minimum minima ih =>
    rw [zipIdx_cons, foldl_cons] at hall
    obtain ⟨hstep, hfl, hcross⟩ := ih (i₀ + 1) hall
    rw [zipIdx_cons, foldl_cons, map_cons, hfl]
    rw [keepChildStep_eq] at hstep ⊢
    simp only at hstep ⊢
    by_cases hwide : crossMinimum (nd.direction = .horizontal) minimum > crossCount (nd.direction = .horizontal) ar
    · rw [if_pos hwide] at hstep
      simp at hstep
    · rw [if_neg hwide] at hstep ⊢
      by_cases hclaimed : kept.canKeepChildren = true ∧ satAdd32 (satAdd32 kept.claimedCellCount
          (if kept.keptWeights.isEmpty then 0 else sz.gapCellCount)) (computeChildFloor nd i₀
            (axisMinimum (nd.direction = .horizontal) minimum)) ≤
          axisCount (nd.direction = .horizontal) ar
      · rw [if_pos hclaimed] at hstep ⊢
        refine ⟨by simpa using hstep, by simp, ?_⟩
        intro size hm
        rcases mem_cons.1 hm with rfl | hm
        · omega
        · exact hcross size hm
      · rw [if_neg hclaimed] at hstep
        simp at hstep

/-- **A directional split that keeps every child has room for its minimum.** -/
theorem listKeptChildren_fits {r : Rect} {sz : PaneSizing} (hw : r.WithinU16)
    (hall : (listKeptChildren nd r sz).isChildKept.all id = true) :
    (computeDirectionalMinimumSize nd (computeMinimumSizes sz nd.children) sz).canFitInside r.size = true := by
  obtain ⟨-, hfl, hcross⟩ := foldl_keepChildStep_kept _ 0 hall
  have hiv := @foldl_keepChildStep_inv r sz ⟨[], [], [], true, 0⟩ nd hw
    (computeMinimumSizes sz nd.children) [] 0 ⟨.nil, rfl, by simp, by simp⟩
  have hclaimed := hiv.claimed_eq
  have hle := hiv.claimed_le
  rw [hclaimed, hfl] at hle
  obtain ⟨haxis, hmaxCross⟩ := directionalMinimumSize_axes nd (computeMinimumSizes sz nd.children) sz
  rw [canFitInside_iff_axes (nd.direction = .horizontal), haxis, hmaxCross]
  constructor
  · refine le_trans (Nat.min_le_left _ _) ?_
    have hlen : (computeMinimumSizes sz nd.children).length = nd.children.length := by
      rw [minimumSizes_eq_map, length_map]
    simpa [listChildFloors, hlen] using hle
  · refine foldl_max_le (Nat.zero_le _) fun count hm => ?_
    obtain ⟨size, hsize, rfl⟩ := List.mem_map.1 hm
    exact hcross size hsize

theorem all_of_layChildRects {hor : Bool} {gapCellCount : Nat} {keeps : List Bool} {sh : List Nat} {off : Nat}
    (h : ∀ r ∈ layChildRects hor ar gapCellCount keeps sh off, r.isEmpty = false) : keeps.all id = true := by
  induction keeps generalizing sh off with
  | nil => rfl
  | cons isKept keeps ih =>
    cases isKept with
    | false => simp [layChildRects] at h
    | true =>
      rw [layChildRects] at h
      rw [all_cons, ih fun r hm => h r (mem_cons_of_mem _ hm)]
      rfl

def HasRoom (paneSizing : PaneSizing) (child : LayoutNode) (rect : Rect) : Prop :=
  rect.isEmpty = false ∧ isLayoutWithinRect child rect paneSizing = true

variable {children : List LayoutNode}

theorem forall₂_hasRoom_congr {rs otherRects : List Rect} (hsizes : rs.map size = otherRects.map size) :
    List.Forall₂ (HasRoom sz) children rs ↔ List.Forall₂ (HasRoom sz) children otherRects := by
  have hroom : ∀ rs : List Rect, List.Forall₂ (HasRoom sz) children rs ↔
      List.Forall₂ (fun child size => ¬ (size.columnCount = 0 ∨ size.rowCount = 0) ∧
        (computeMinimumSize sz child).canFitInside size = true) children (rs.map size) := by
    intro rs
    rw [forall₂_map_right_iff]
    refine iff_of_eq (congrArg (List.Forall₂ · children rs) ?_)
    funext child r
    rw [HasRoom, Bool.eq_false_iff, ne_eq, Rect.isEmpty_iff, isLayoutWithinRect]
  rw [hroom rs, hroom otherRects, hsizes]

/-- **Every child of a directional split has room exactly where the split's minimum fits**; and its rects stay
within `u16`. -/
theorem directionalRects_room (nd : SplitNode LayoutNode) (sz : PaneSizing) (hw : SizeWithinU16 ar.size)
    (hne : nd.children ≠ []) (hgood : ∀ child ∈ nd.children, child.hasNoLeaflessSplit = true) :
    (List.Forall₂ (HasRoom sz) nd.children (computeDirectionalChildRects nd ar sz) ↔
      (computeDirectionalMinimumSize nd (computeMinimumSizes sz nd.children) sz).canFitInside ar.size = true) ∧
    (computeDirectionalChildRects nd ar sz).length = nd.children.length ∧
    ∀ r ∈ computeDirectionalChildRects nd ar sz, SizeWithinU16 r.size := by
  have horigin := withinU16_fromAtOrigin hw
  have hsizes := @directionalRects_sizes ar (.fromSizeAtOrigin ar.size) rfl nd sz
  obtain ⟨hhl, hcover, hft, -⟩ := directionalRects_spec nd sz horigin hne hgood
  refine ⟨?_, ?_, ?_⟩
  · rw [forall₂_hasRoom_congr hsizes]
    constructor
    · intro hroom
      have hfull : ∀ r ∈ computeDirectionalChildRects nd (.fromSizeAtOrigin ar.size) sz, r.isEmpty = false := by
        intro r hm
        obtain ⟨i, hi, rfl⟩ := mem_iff_getElem.1 hm
        exact (hroom.get (by rw [hroom.length_eq]; exact hi) hi).1
      exact @listKeptChildren_fits _ (.fromSizeAtOrigin ar.size) _ horigin (all_of_layChildRects hfull)
    · intro hfit
      refine forall₂_iff_get.2 ⟨(hft hfit).length_eq, fun i hch hrc => ?_⟩
      have hroom := (hft hfit).get hch hrc
      exact ⟨not_isEmpty_of_canFitInside (hgood _ (List.get_mem _ _)) hroom, hroom⟩
  · have := congrArg List.length hsizes
    rw [length_map, length_map] at this
    exact this.trans hhl.length_eq.symm
  · intro r hm
    have hsize := List.mem_map_of_mem (f := size) hm
    rw [hsizes] at hsize
    obtain ⟨other, ho, heq⟩ := List.mem_map.1 hsize
    rw [← heq]
    by_cases hem : other.isEmpty = true
    · obtain ⟨i, hi, rfl⟩ := mem_iff_getElem.1 ho
      rcases hhl.get (by rw [hhl.length_eq]; exact hi) hi with hz | hroom
      · rw [get_eq_getElem] at hz
        rw [hz]
        exact ⟨Nat.zero_le _, Nat.zero_le _⟩
      · have hfull := not_isEmpty_of_canFitInside (hgood _ (List.get_mem _ _)) hroom
        rw [get_eq_getElem, hem] at hfull
        cases hfull
    · obtain ⟨hright, hbot⟩ := withinU16_of_coverCount horigin hcover ho (Bool.eq_false_iff.2 hem)
      unfold getRightEdge at hright
      unfold getBottomEdge at hbot
      constructor <;> omega

/-! ### The solve -/

/-- Solving `layoutNode` adds suppressed panes exactly where its minimum does not fit. -/
def SuppressesUnlessFit (paneSizing : PaneSizing) (layoutNode : LayoutNode) : Prop :=
  ∀ (rect : Rect) (state : LayoutSolveState), SizeWithinU16 rect.size → state.paneSizing = paneSizing →
    (solveLayoutNode rect state layoutNode).paneSizing = paneSizing ∧
    ∃ suppressedPaneIds, (solveLayoutNode rect state layoutNode).suppressedPaneIds =
        state.suppressedPaneIds ++ suppressedPaneIds ∧
      (suppressedPaneIds = [] ↔ isLayoutWithinRect layoutNode rect paneSizing = true)

theorem solveDirectional_suppressed {rs : List Rect} (hslv : ∀ child ∈ children, SuppressesUnlessFit sz child)
    (hgood : ∀ child ∈ children, child.hasNoLeaflessSplit = true) (hlen : rs.length = children.length)
    (hw : ∀ r ∈ rs, SizeWithinU16 r.size) (st : LayoutSolveState) (hsz : st.paneSizing = sz) :
    (solveDirectionalChildren rs st children).paneSizing = sz ∧
    ∃ suppressedPaneIds, (solveDirectionalChildren rs st children).suppressedPaneIds =
        st.suppressedPaneIds ++ suppressedPaneIds ∧
      (suppressedPaneIds = [] ↔ List.Forall₂ (HasRoom sz) children rs) := by
  induction children generalizing rs st with
  | nil =>
    obtain rfl := eq_nil_of_length_eq_zero hlen
    exact ⟨hsz, [], by simp [solveDirectionalChildren], by simp⟩
  | cons child children ih =>
    cases rs with
    | nil => simp at hlen
    | cons r rs =>
      have hr := fun st hsz => @ih rs (fun other h => hslv other (mem_cons_of_mem _ h))
        (fun other h => hgood other (mem_cons_of_mem _ h)) (by simpa using hlen)
        (fun other h => hw other (mem_cons_of_mem _ h)) st hsz
      rw [solveDirectionalChildren]
      simp only [forall₂_cons]
      by_cases hem : r.isEmpty = true
      · rw [if_pos hem, suppressLayoutSubtree_eq]
        obtain ⟨hs, suppressedPaneIds, heq, -⟩ :=
          hr (st.extend (suppressedPart child.listLeafPaneIds)) hsz
        refine ⟨hs, child.listLeafPaneIds ++ suppressedPaneIds, ?_, iff_of_false ?_ ?_⟩
        · rw [← append_assoc]
          exact heq
        · exact fun hnil => LayoutNode.listLeafPaneIds_ne_nil (hgood child mem_cons_self) (append_eq_nil_iff.1 hnil).1
        · rintro ⟨⟨hne, -⟩, -⟩
          rw [hem] at hne
          cases hne
      · rw [if_neg hem]
        obtain ⟨hs, suppressedPaneIds, heq, hiff⟩ :=
          hslv child mem_cons_self r st (hw r mem_cons_self) hsz
        obtain ⟨hsameRest, restPaneIds, heqRest, hiffRest⟩ := hr _ hs
        refine ⟨hsameRest, suppressedPaneIds ++ restPaneIds, by rw [heqRest, heq, append_assoc], ?_⟩
        rw [append_eq_nil_iff, hiff, hiffRest, HasRoom, Bool.eq_false_iff.2 hem]
        simp

/-- The members of a stack with room suppress nothing but what the active one suppresses. -/
theorem solveStacked_suppressed_nil {sz : PaneSizing} {active memberCount : Nat} {rs : List Rect} (position : Nat)
    (hslv : ∀ child ∈ children, SuppressesUnlessFit sz child) (hw : ∀ r ∈ rs, SizeWithinU16 r.size)
    (hrcs : ∀ i child r, children[i]? = some child → rs[i]? = some r → r.isEmpty = false ∧
      (position + i = active → isLayoutWithinRect child r sz = true)) (st : LayoutSolveState)
    (hsz : st.paneSizing = sz) :
    (solveStackedChildren active memberCount position rs st children).paneSizing = sz ∧
      (solveStackedChildren active memberCount position rs st children).suppressedPaneIds = st.suppressedPaneIds := by
  induction children generalizing rs position st with
  | nil => exact ⟨hsz, rfl⟩
  | cons child children ih =>
    cases rs with
    | nil => exact ⟨hsz, rfl⟩
    | cons r rs =>
      obtain ⟨hem, hact⟩ := hrcs 0 child r rfl rfl
      have hr := fun st hsz => @ih rs (position + 1) (fun other h => hslv other (mem_cons_of_mem _ h))
        (fun other h => hw other (mem_cons_of_mem _ h))
        (fun i other rect' ho hother => by
          have := hrcs (i + 1) other rect' (by simpa using ho) (by simpa using hother)
          rwa [show position + (i + 1) = position + 1 + i by omega] at this) st hsz
      rw [solveStackedChildren, hem]
      simp only [Bool.false_eq_true, if_false]
      split_ifs with hidx
      · obtain ⟨hs, suppressedPaneIds, heq, hiff⟩ :=
          hslv child mem_cons_self r st (hw r mem_cons_self) hsz
        obtain rfl := hiff.2 (hact (by omega))
        obtain ⟨hsameRest, heqRest⟩ := hr _ hs
        exact ⟨hsameRest, by rw [heqRest, heq, append_nil]⟩
      · have hheader : (emitStackHeader child r position memberCount st).paneSizing = st.paneSizing ∧
            (emitStackHeader child r position memberCount st).suppressedPaneIds = st.suppressedPaneIds := by
          unfold emitStackHeader
          split <;> exact ⟨rfl, rfl⟩
        obtain ⟨hsameRest, heqRest⟩ := hr _ (hheader.1.trans hsz)
        exact ⟨hsameRest, heqRest.trans hheader.2⟩

theorem stackedRects_within (nd : SplitNode LayoutNode) (sz : PaneSizing) (hw : SizeWithinU16 ar.size) :
    ∀ r ∈ computeStackedChildRects nd ar sz, SizeWithinU16 r.size := by
  intro r hm
  obtain ⟨hco, hrows⟩ := hw
  simp only [computeStackedChildRects] at hm
  split_ifs at hm
  · simp at hm
  · rw [eq_of_mem_replicate hm]
    exact ⟨Nat.zero_le _, Nat.zero_le _⟩
  · obtain ⟨i, hi⟩ := mem_iff_getElem?.1 hm
    rw [getElem?_layMemberRects _ _ _ _ _ _ _ hi]
    refine ⟨hco, ?_⟩
    dsimp only
    split_ifs
    · omega
    · unfold u16Max
      omega

theorem suppressesUnlessFit_stacked (hdir : nd.direction = .stacked) (hne : nd.children ≠ [])
    (hlv : nd.children.flatMap LayoutNode.listLeafPaneIds ≠ [])
    (hgood : ∀ child ∈ nd.children, child.hasNoLeaflessSplit = true)
    (hslv : ∀ child ∈ nd.children, SuppressesUnlessFit sz child) :
    SuppressesUnlessFit sz (.split nd) := by
  intro r st hw hsz
  have horigin := withinU16_fromAtOrigin hw
  have hsizes := @stackedRects_sizes r (.fromSizeAtOrigin r.size) rfl nd sz
  obtain ⟨hlen, -, hft⟩ := stackedRects_spec nd sz horigin hne hgood
  have hlenHere := congrArg List.length hsizes
  rw [length_map, length_map, hlen] at hlenHere
  rw [solveNode_split_of_stacked hdir, hsz, isLayoutWithinRect, minimumSize_split_of_stacked _ hdir]
  by_cases hfit : (computeStackMinimumSize nd sz).canFitInside r.size = true
  · obtain ⟨hrcs, -⟩ := hft hfit
    obtain ⟨hs, heq⟩ := @solveStacked_suppressed_nil nd.children sz nd.getActiveChildIndex
      nd.children.length (computeStackedChildRects nd r sz) 0 hslv
      (stackedRects_within nd sz hw)
      (fun i child memRect hch hmem => by
        have hmap := congrArg (fun sizes => sizes[i]?) hsizes
        simp only [List.getElem?_map, hmem, Option.map_some] at hmap
        obtain ⟨other, ho, hsize⟩ := Option.map_eq_some_iff.1 hmap.symm
        obtain ⟨hem, hact⟩ := hrcs i child other hch ho
        simp only [Rect.isEmpty, isLayoutWithinRect, hsize, Nat.zero_add] at hem hact ⊢
        exact ⟨hem, hact⟩) st hsz
    exact ⟨hs, [], by rw [heq, append_nil], iff_of_true rfl hfit⟩
  · have hem : ∀ member ∈ computeStackedChildRects nd r sz, member = .buildEmptyAtOrigin := by
      intro member hm
      simp only [computeStackedChildRects] at hm
      rw [if_neg (by simpa using hne), if_pos (by rw [Bool.eq_false_iff.2 hfit]; rfl)] at hm
      exact eq_of_mem_replicate hm
    rw [solveStacked_suppressed _ _ _ hlenHere hem]
    exact ⟨hsz, nd.children.flatMap LayoutNode.listLeafPaneIds, rfl, iff_of_false hlv hfit⟩

/-- **Every subtree with leaves suppresses a pane exactly where its minimum does not fit.** -/
theorem suppressesUnlessFit (sz : PaneSizing) {layoutNode : LayoutNode}
    (hgood : layoutNode.hasNoLeaflessSplit = true) : SuppressesUnlessFit sz layoutNode := by
  induction layoutNode with
  | pane paneId =>
    intro r st _ hsz
    rw [solveLayoutNode, hsz]
    split_ifs with hfit
    · exact ⟨rfl, [], by simp, iff_of_true rfl hfit⟩
    · exact ⟨rfl, [paneId], rfl, iff_of_false (by simp) hfit⟩
  | split nd ih =>
    obtain ⟨hlv, hcs⟩ := (LayoutNode.hasNoLeaflessSplit_split nd).1 hgood
    have hne := LayoutNode.children_ne_nil hgood
    have hslv := fun child hm => ih child hm (hcs child hm)
    by_cases hdir : nd.direction = .stacked
    · exact suppressesUnlessFit_stacked hdir hne hlv hcs hslv
    · intro r st hw hsz
      obtain ⟨hroom, hlen, hrcs⟩ := directionalRects_room nd sz hw hne hcs
      rw [solveNode_split_of_ne hdir, hsz, isLayoutWithinRect, minimumSize_split_of_ne _ hdir, ← hroom]
      exact solveDirectional_suppressed hslv hcs hlen hrcs st hsz

/-- **The solved layout suppresses no pane exactly when the tree's minimum fits the tab.** -/
theorem solveLayoutWithSizing_suppresses_iff (layoutTree : LayoutNode) (tabRect : Rect) (paneSizing : PaneSizing)
    (hleaves : layoutTree.hasNoLeaflessSplit = true) (hsize : SizeWithinU16 tabRect.size) :
    (solveLayoutWithSizing layoutTree tabRect paneSizing).suppressedPaneIds = [] ↔
      (computeMinimumSize paneSizing layoutTree).canFitInside tabRect.size = true := by
  obtain ⟨-, suppressedPaneIds, heq, hiff⟩ :=
    suppressesUnlessFit paneSizing hleaves tabRect (.fromPaneSizing paneSizing) hsize rfl
  rw [solveLayoutWithSizing, LayoutSolveState.intoLayoutSolve]
  dsimp only
  rw [heq]
  exact hiff

/-- A row with a stack over a tab one row too short: the stack's header and its active member do not fit. -/
theorem solveLayoutWithSizing_suppresses_iff_shortTab :
    (solveLayoutWithSizing
      (.split ⟨.horizontal, [.pane ⟨0⟩, .split ⟨.stacked, [.pane ⟨1⟩, .pane ⟨2⟩], [.default, .default], 0⟩],
        [.default, .default], 0⟩)
      (.fromSizeAtOrigin ⟨80, 3⟩) .default).suppressedPaneIds ≠ [] := by
  rw [ne_eq, solveLayoutWithSizing_suppresses_iff _ _ _ (by decide) (by decide)]
  decide

end Koshi.Layout
