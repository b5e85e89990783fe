import Koshi.Layout.Proof.ChildRects

/-!
# The solved layout

What the solve recursion adds for one subtree, and the invariants of `solveLayoutWithSizing`: every leaf
once in layout order, nothing outside the tab, no two panes overlapping, minimum sizes, and exact tiling
where the tree fits and leaves no gap. The induction is over the tree; a split's children are combined by
counting how often a cell is covered.
-/

namespace Koshi.Layout

open Base Koshi.Core List Function LayoutSolveState LayoutNode

variable {paneSizing : PaneSizing}

/-- What solving one subtree appends to the solve state. -/
structure SolvedPart where
  paneRects : List (PaneId × Rect)
  suppressedPaneIds : List PaneId
  stackHeaders : List StackHeader

def SolvedPart.append (first second : SolvedPart) : SolvedPart where
  paneRects := first.paneRects ++ second.paneRects
  suppressedPaneIds := first.suppressedPaneIds ++ second.suppressedPaneIds
  stackHeaders := first.stackHeaders ++ second.stackHeaders

def LayoutSolveState.extend (state : LayoutSolveState) (part : SolvedPart) : LayoutSolveState where
  paneSizing := state.paneSizing
  paneRects := state.paneRects ++ part.paneRects
  suppressedPaneIds := state.suppressedPaneIds ++ part.suppressedPaneIds
  stackHeaders := state.stackHeaders ++ part.stackHeaders

variable (state : LayoutSolveState)

@[simp] theorem LayoutSolveState.extend_paneSizing (part : SolvedPart) :
    (state.extend part).paneSizing = state.paneSizing := rfl

theorem LayoutSolveState.extend_extend (fst snd : SolvedPart) :
    (state.extend fst).extend snd = state.extend (fst.append snd) := by
  simp [extend, SolvedPart.append]

theorem LayoutSolveState.extend_nil : state.extend ⟨[], [], []⟩ = state := by
  simp [extend]

/-- How often the rects of a part cover `point`. -/
def SolvedPart.cover (part : SolvedPart) (point : Point) : Nat := coverCount (part.paneRects.map (·.2)) point

theorem SolvedPart.cover_append (fst snd : SolvedPart) (pt : Point) :
    (fst.append snd).cover pt = fst.cover pt + snd.cover pt := by
  simp [SolvedPart.cover, SolvedPart.append, coverCount]

/-- The entries of a part over the leaves `leafIds`: one per leaf in order, the headers among them, and
each either suppressed, on a header, at least its minimum, or empty inside a collapsed member. -/
structure PartOk (paneSizing : PaneSizing) (leafIds : List PaneId) (collapsed : PaneId → Prop)
    (part : SolvedPart) : Prop where
  names : part.paneRects.map (·.1) = leafIds
  headers : ∀ header ∈ part.stackHeaders, (header.paneId, header.headerRect) ∈ part.paneRects
  entries : ∀ entry ∈ part.paneRects, entry.1 ∈ part.suppressedPaneIds ∨
    (∃ header ∈ part.stackHeaders, header.paneId = entry.1) ∨
    isLeafWithinMinimum entry.2 paneSizing = true ∨ (entry.2 = .buildEmptyAtOrigin ∧ collapsed entry.1)
  empties : ∀ entry ∈ part.paneRects, entry.2.isEmpty = true → entry.2 = .buildEmptyAtOrigin

section Parts

variable {paneSizing : PaneSizing} {leafIds laterPaneIds : List PaneId} {collapsed : PaneId → Prop}
  {part later : SolvedPart}

theorem PartOk.append (h : PartOk paneSizing leafIds collapsed part)
    (hlr : PartOk paneSizing laterPaneIds collapsed later) :
    PartOk paneSizing (leafIds ++ laterPaneIds) collapsed (part.append later) where
  names := by simp [SolvedPart.append, h.names, hlr.names]
  headers := by
    intro header hme
    rcases mem_append.1 hme with hme | hme
    · exact mem_append_left _ (h.headers header hme)
    · exact mem_append_right _ (hlr.headers header hme)
  entries := by
    intro entry hme
    rcases mem_append.1 hme with hme | hme
    · rcases h.entries entry hme with hs | ⟨header, hheader, heq⟩ | hm | hc
      · exact Or.inl (mem_append_left _ hs)
      · exact Or.inr (Or.inl ⟨header, mem_append_left _ hheader, heq⟩)
      · exact Or.inr (Or.inr (Or.inl hm))
      · exact Or.inr (Or.inr (Or.inr hc))
    · rcases hlr.entries entry hme with hs | ⟨header, hheader, heq⟩ | hm | hc
      · exact Or.inl (mem_append_right _ hs)
      · exact Or.inr (Or.inl ⟨header, mem_append_right _ hheader, heq⟩)
      · exact Or.inr (Or.inr (Or.inl hm))
      · exact Or.inr (Or.inr (Or.inr hc))
  empties := by
    intro entry hme
    rcases mem_append.1 hme with hme | hme
    · exact h.empties entry hme
    · exact hlr.empties entry hme

theorem PartOk.weaken {weaker : PaneId → Prop} (h : PartOk paneSizing leafIds collapsed part)
    (himp : ∀ paneId ∈ leafIds, collapsed paneId → weaker paneId) :
    PartOk paneSizing leafIds weaker part where
  __ := h
  entries := by
    intro entry hme
    have hleaf : entry.1 ∈ leafIds := h.names ▸ List.mem_map_of_mem hme
    rcases h.entries entry hme with hs | hh | hm | hc
    · exact Or.inl hs
    · exact Or.inr (Or.inl hh)
    · exact Or.inr (Or.inr (Or.inl hm))
    · exact Or.inr (Or.inr (Or.inr ⟨hc.1, himp _ hleaf hc.2⟩))

theorem PartOk.nil : PartOk paneSizing [] collapsed ⟨[], [], []⟩ where
  names := rfl
  headers := by simp
  entries := by simp
  empties := by simp

/-! ### Suppressed subtrees and headers -/

def suppressedPart (paneIds : List PaneId) : SolvedPart where
  paneRects := paneIds.map fun paneId => (paneId, .buildEmptyAtOrigin)
  suppressedPaneIds := paneIds
  stackHeaders := []

theorem suppressLayoutSubtree_eq (layoutNode : LayoutNode) (state : LayoutSolveState) :
    suppressLayoutSubtree layoutNode state = state.extend (suppressedPart layoutNode.listLeafPaneIds) := by
  unfold suppressLayoutSubtree
  generalize layoutNode.listLeafPaneIds = ps
  induction ps generalizing state with
  | nil => exact state.extend_nil.symm
  | cons paneId ps ih =>
    rw [foldl_cons, ih]
    simp [LayoutSolveState.extend, suppressedPart]

theorem suppressedPart_ok (ps : List PaneId) : PartOk paneSizing ps collapsed (suppressedPart ps) where
  names := by simp [suppressedPart, comp_def]
  headers := by simp [suppressedPart]
  entries := by
    intro entry hme
    obtain ⟨paneId, hpa, rfl⟩ := List.mem_map.1 hme
    exact Or.inl hpa
  empties := by
    intro entry hme _
    obtain ⟨paneId, _, rfl⟩ := List.mem_map.1 hme
    rfl

theorem suppressedPart_cover (ps : List PaneId) (pt : Point) : (suppressedPart ps).cover pt = 0 := by
  unfold SolvedPart.cover suppressedPart coverCount
  rw [countP_eq_zero]
  intro rc hme
  simp only [List.map_map, List.mem_map, comp_apply] at hme
  obtain ⟨_, _, rfl⟩ := hme
  simp

def headerPart (firstId : PaneId) (remainingPaneIds : List PaneId) (headerRect : Rect)
    (member members : Nat) : SolvedPart where
  paneRects := (firstId, headerRect) :: remainingPaneIds.map fun paneId => (paneId, .buildEmptyAtOrigin)
  suppressedPaneIds := []
  stackHeaders := [⟨firstId, headerRect, member, members⟩]

theorem emitStackHeader_eq {child : LayoutNode} {firstId : PaneId} {restIds : List PaneId}
    (hlv : child.listLeafPaneIds = firstId :: restIds) (headerRect : Rect) (member memberCount : Nat)
    (state : LayoutSolveState) :
    emitStackHeader child headerRect member memberCount state =
      state.extend (headerPart firstId restIds headerRect member memberCount) := by
  simp [emitStackHeader, hlv, LayoutSolveState.extend, headerPart]

theorem headerPart_ok (firstId : PaneId) (restIds : List PaneId) {headerRect : Rect} (member memberCount : Nat)
    (hne : headerRect.isEmpty = false) (hclp : ∀ paneId ∈ firstId :: restIds, collapsed paneId) :
    PartOk paneSizing (firstId :: restIds) collapsed (headerPart firstId restIds headerRect member memberCount) where
  names := by simp [headerPart, comp_def]
  headers := by simp [headerPart]
  entries := by
    intro entry hme
    rcases mem_cons.1 hme with rfl | hme
    · exact Or.inr (Or.inl ⟨_, mem_singleton_self _, rfl⟩)
    · obtain ⟨paneId, hpa, rfl⟩ := List.mem_map.1 hme
      exact Or.inr (Or.inr (Or.inr ⟨rfl, hclp paneId (mem_cons_of_mem _ hpa)⟩))
  empties := by
    intro entry hme hem
    rcases mem_cons.1 hme with rfl | hme
    · rw [hne] at hem
      exact absurd hem Bool.false_ne_true
    · obtain ⟨paneId, _, rfl⟩ := List.mem_map.1 hme
      rfl

theorem headerPart_cover (firstId : PaneId) (restIds : List PaneId) (headerRect : Rect) (member memberCount : Nat)
    (pt : Point) :
    (headerPart firstId restIds headerRect member memberCount).cover pt =
      if headerRect.isPointInside pt = true then 1 else 0 := by
  have hrs := suppressedPart_cover restIds pt
  unfold SolvedPart.cover suppressedPart at hrs
  unfold SolvedPart.cover headerPart
  rw [map_cons, coverCount_cons, hrs, Nat.add_zero]

end Parts

/-! ### One subtree -/

structure NodeSolved (paneSizing : PaneSizing) (layoutNode : LayoutNode) (rect : Rect) (part : SolvedPart) : Prop where
  ok : PartOk paneSizing layoutNode.listLeafPaneIds (fun paneId => layoutNode.isPaneCollapsed paneId [] = true) part
  cover_le : ∀ point, part.cover point ≤ if rect.isPointInside point = true then 1 else 0
  cover_eq : isLayoutWithinRect layoutNode rect paneSizing = true → paneSizing.gapCellCount = 0 →
    ∀ point, part.cover point = if rect.isPointInside point = true then 1 else 0
  suppressed_nil : isLayoutWithinRect layoutNode rect paneSizing = true → part.suppressedPaneIds = []

/-- Every run of the solver over `layoutNode` adds a part as `NodeSolved` says. -/
def Solves (paneSizing : PaneSizing) (layoutNode : LayoutNode) : Prop :=
  ∀ (rect : Rect) (state : LayoutSolveState), rect.WithinU16 → state.paneSizing = paneSizing →
    ∃ part, solveLayoutNode rect state layoutNode = state.extend part ∧ NodeSolved paneSizing layoutNode rect part

theorem solves_pane (paneSizing : PaneSizing) (paneId : PaneId) : Solves paneSizing (.pane paneId) := by
  intro rc state _ hsz
  by_cases hfit : isLeafWithinMinimum rc paneSizing = true
  · refine ⟨⟨[(paneId, rc)], [], []⟩, ?_, ?_⟩
    · simp [solveLayoutNode, hsz, hfit, LayoutSolveState.extend]
    · have hcover : ∀ pt, SolvedPart.cover ⟨[(paneId, rc)], [], []⟩ pt =
          if rc.isPointInside pt = true then 1 else 0 := fun pt => by
        simp [SolvedPart.cover, coverCount]
      refine ⟨⟨rfl, by simp, ?_, ?_⟩, fun pt => Nat.le_of_eq (hcover pt), fun _ _ => hcover, fun _ => rfl⟩
      · intro entry hme
        rw [mem_singleton] at hme
        subst hme
        exact Or.inr (Or.inr (Or.inl hfit))
      · intro entry hme hem
        rw [mem_singleton] at hme
        subst hme
        have hsize := (RequiredSize.canFitInside_iff _ _).1 hfit
        simp only [computeBorderInclusiveMinimum, RequiredSize.fromSizeSum, paneBorderSize] at hsize
        rw [Rect.isEmpty_iff] at hem
        dsimp only at hem
        exfalso
        omega
  · refine ⟨suppressedPart [paneId], ?_, suppressedPart_ok _, fun pt => ?_, fun h => absurd h hfit,
      fun h => absurd h hfit⟩
    · simp [solveLayoutNode, hsz, hfit, LayoutSolveState.extend, suppressedPart]
    · rw [suppressedPart_cover]
      exact Nat.zero_le _

/-! ### Splits -/

variable {rs : List Rect}

/-- A non-empty rect of a list that covers only cells of `splitRect` keeps its edges within `u16`. -/
theorem withinU16_of_coverCount {ar : Rect} (hw : ar.WithinU16)
    (hcover : ∀ pt, coverCount rs pt ≤ if ar.isPointInside pt = true then 1 else 0) {rc : Rect} (hme : rc ∈ rs)
    (hne : rc.isEmpty = false) : rc.WithinU16 := by
  have hins : rc.isInsideRect ar = true := by
    refine Rect.isInsideRect_of_points hne fun pt hpoint => ?_
    have hpos : 0 < coverCount rs pt := countP_pos_iff.2 ⟨rc, hme, hpoint⟩
    have hle := hcover pt
    by_contra hout
    rw [if_neg hout] at hle
    omega
  obtain ⟨-, -, hright, hbot⟩ := (Rect.isInsideRect_iff _ _).1 hins
  exact ⟨le_trans hright hw.1, le_trans hbot hw.2⟩

def CollapsedInChild (children : List LayoutNode) (paneId : PaneId) : Prop :=
  ∃ child ∈ children, paneId ∈ child.listLeafPaneIds ∧ child.isPaneCollapsed paneId [] = true

variable {children : List LayoutNode}

theorem solveDirectional_spec (hslv : ∀ child ∈ children, Solves paneSizing child)
    (hgood : ∀ child ∈ children, child.hasNoLeaflessSplit = true)
    (hhl : List.Forall₂ (fun child rc => rc = .buildEmptyAtOrigin ∨
      (computeMinimumSize paneSizing child).canFitInside rc.size = true) children rs)
    (hw : ∀ rc ∈ rs, rc.isEmpty = false → rc.WithinU16) (state : LayoutSolveState)
    (hsz : state.paneSizing = paneSizing) :
    ∃ part, solveDirectionalChildren rs state children = state.extend part ∧
      PartOk paneSizing (children.flatMap listLeafPaneIds) (CollapsedInChild children) part ∧
      (∀ pt, part.cover pt ≤ coverCount rs pt) ∧
      (List.Forall₂ (fun child rc => (computeMinimumSize paneSizing child).canFitInside rc.size = true)
        children rs → part.suppressedPaneIds = [] ∧ (paneSizing.gapCellCount = 0 →
          ∀ pt, part.cover pt = coverCount rs pt)) := by
  induction hhl generalizing state with
  | nil => exact ⟨⟨[], [], []⟩, state.extend_nil.symm, .nil, fun _ => Nat.zero_le _, fun _ => ⟨rfl, fun _ _ => rfl⟩⟩
  | @cons child rc children rs hhead _ ih =>
    have htailMem : ∀ c ∈ children, c ∈ child :: children := fun c hc => mem_cons_of_mem _ hc
    have hmono : ∀ paneId ∈ children.flatMap listLeafPaneIds, CollapsedInChild children paneId →
        CollapsedInChild (child :: children) paneId :=
      fun paneId _ ⟨c, hc, hpa, hcol⟩ => ⟨c, htailMem c hc, hpa, hcol⟩
    have hsp : (child :: children).flatMap listLeafPaneIds =
        child.listLeafPaneIds ++ children.flatMap listLeafPaneIds := flatMap_cons
    obtain ⟨fst, hf, hfstOk, hfstLe, hfstEq⟩ : ∃ fst,
        (if rc.isEmpty then suppressLayoutSubtree child state else solveLayoutNode rc state child) = state.extend fst ∧
        PartOk paneSizing child.listLeafPaneIds (CollapsedInChild (child :: children)) fst ∧
        (∀ pt, fst.cover pt ≤ if rc.isPointInside pt = true then 1 else 0) ∧
        ((computeMinimumSize paneSizing child).canFitInside rc.size = true →
          fst.suppressedPaneIds = [] ∧ (paneSizing.gapCellCount = 0 →
            ∀ pt, fst.cover pt = if rc.isPointInside pt = true then 1 else 0)) := by
      by_cases hem : rc.isEmpty = true
      · refine ⟨_, by rw [if_pos hem, suppressLayoutSubtree_eq], suppressedPart_ok _, fun pt => ?_, fun hfit => ?_⟩
        · rw [suppressedPart_cover]
          exact Nat.zero_le _
        · -- a rect that holds the child's minimum is not empty
          have htwo := two_le_minimumSize paneSizing (hgood child mem_cons_self)
          rw [RequiredSize.canFitInside_iff] at hfit
          rw [Rect.isEmpty_iff] at hem
          omega
      · have hne := Bool.eq_false_iff.2 hem
        obtain ⟨fst, hf, hsolved⟩ := hslv child mem_cons_self rc state (hw rc mem_cons_self hne) hsz
        refine ⟨fst, by rw [if_neg hem, hf], hsolved.ok.weaken fun paneId hpa hcol =>
          ⟨child, mem_cons_self, hpa, hcol⟩, hsolved.cover_le, fun hfit =>
          ⟨hsolved.suppressed_nil hfit, hsolved.cover_eq hfit⟩⟩
    obtain ⟨rest, hrs, hrestOk, hrestLe, hrestEq⟩ := ih (fun c hc => hslv c (htailMem c hc))
      (fun c hc => hgood c (htailMem c hc)) (fun r hr => hw r (mem_cons_of_mem _ hr))
      (state.extend fst) hsz
    refine ⟨fst.append rest, ?_, ?_, fun pt => ?_, fun hall => ?_⟩
    · rw [← extend_extend, ← hrs, ← hf]
      rfl
    · rw [hsp]
      exact hfstOk.append (hrestOk.weaken hmono)
    · rw [SolvedPart.cover_append, coverCount_cons]
      exact Nat.add_le_add (hfstLe pt) (hrestLe pt)
    · obtain ⟨hfit, hrestFit⟩ := forall₂_cons.1 hall
      obtain ⟨hnone, htile⟩ := hfstEq hfit
      obtain ⟨hrestNone, hrestTile⟩ := hrestEq hrestFit
      refine ⟨by simp [SolvedPart.append, hnone, hrestNone], fun hgap pt => ?_⟩
      rw [SolvedPart.cover_append, coverCount_cons, htile hgap pt, hrestTile hgap pt]

def CollapsedInMember (activeIndex firstIndex : Nat) (children : List LayoutNode) (paneId : PaneId) : Prop :=
  ∃ i child, children[i]? = some child ∧ paneId ∈ child.listLeafPaneIds ∧
    (firstIndex + i ≠ activeIndex ∨ child.isPaneCollapsed paneId [] = true)

theorem solveStacked_suppressed (active memberCount member : Nat) (hlen : rs.length = children.length)
    (hem : ∀ rc ∈ rs, rc = .buildEmptyAtOrigin) (state : LayoutSolveState) :
    solveStackedChildren active memberCount member rs state children =
      state.extend (suppressedPart (children.flatMap listLeafPaneIds)) := by
  induction children generalizing rs member state with
  | nil => exact state.extend_nil.symm
  | cons child children ih =>
    cases rs with
    | nil => simp at hlen
    | cons rc rs =>
      have hrc := hem rc mem_cons_self
      rw [solveStackedChildren]
      simp only [hrc, Rect.isEmpty_buildEmpty, if_true]
      rw [ih _ (by simpa using hlen) (fun r hr => hem r (mem_cons_of_mem _ hr)),
        suppressLayoutSubtree_eq, extend_extend]
      simp [suppressedPart, SolvedPart.append]

theorem solveStacked_spec {paneSizing : PaneSizing} {active memberCount : Nat} {memberRects : List Rect} (member : Nat)
    (hslv : ∀ child ∈ children, Solves paneSizing child) (hgood : ∀ child ∈ children, child.hasNoLeaflessSplit = true)
    (hlen : memberRects.length = children.length)
    (hrcs : ∀ i child rc, children[i]? = some child → memberRects[i]? = some rc → rc.isEmpty = false ∧
      (member + i = active → (computeMinimumSize paneSizing child).canFitInside rc.size = true))
    (hw : ∀ rc ∈ memberRects, rc.isEmpty = false → rc.WithinU16) (state : LayoutSolveState)
    (hsz : state.paneSizing = paneSizing) :
    ∃ part, solveStackedChildren active memberCount member memberRects state children = state.extend part ∧
      PartOk paneSizing (children.flatMap listLeafPaneIds) (CollapsedInMember active member children) part ∧
      part.suppressedPaneIds = [] ∧
      (∀ pt, part.cover pt ≤ coverCount memberRects pt) ∧
      (paneSizing.gapCellCount = 0 → ∀ pt, part.cover pt = coverCount memberRects pt) := by
  induction children generalizing memberRects member state with
  | nil =>
    obtain rfl := eq_nil_of_length_eq_zero hlen
    exact ⟨⟨[], [], []⟩, state.extend_nil.symm, .nil, rfl, fun _ => Nat.zero_le _, fun _ _ => rfl⟩
  | cons child children ih =>
    obtain ⟨rc, memberRects, rfl⟩ : ∃ rc rs, memberRects = rc :: rs := by
      cases memberRects with
      | nil => simp at hlen
      | cons rc rs => exact ⟨rc, rs, rfl⟩
    have htailMem : ∀ c ∈ children, c ∈ child :: children := fun c hc => mem_cons_of_mem _ hc
    have hmono : ∀ paneId ∈ children.flatMap listLeafPaneIds,
        CollapsedInMember active (member + 1) children paneId →
        CollapsedInMember active member (child :: children) paneId := by
      rintro paneId - ⟨i, c, hc, hpa, hcol⟩
      refine ⟨i + 1, c, by simpa using hc, hpa, hcol.imp_left fun h => ?_⟩
      omega
    have hsp : (child :: children).flatMap listLeafPaneIds =
        child.listLeafPaneIds ++ children.flatMap listLeafPaneIds := flatMap_cons
    obtain ⟨hne, hfit⟩ := hrcs 0 child rc rfl rfl
    obtain ⟨fst, hf, hfstOk, hnone, hfstLe, hfstEq⟩ : ∃ fst,
        (if rc.isEmpty then suppressLayoutSubtree child state
          else if member = active then solveLayoutNode rc state child
          else emitStackHeader child rc member memberCount state) = state.extend fst ∧
        PartOk paneSizing child.listLeafPaneIds (CollapsedInMember active member (child :: children)) fst ∧
        fst.suppressedPaneIds = [] ∧
        (∀ pt, fst.cover pt ≤ if rc.isPointInside pt = true then 1 else 0) ∧
        (paneSizing.gapCellCount = 0 → ∀ pt, fst.cover pt = if rc.isPointInside pt = true then 1 else 0) := by
      rw [if_neg (by rw [hne]; exact Bool.false_ne_true)]
      by_cases hact : member = active
      · obtain ⟨fst, hf, hsolved⟩ := hslv child mem_cons_self rc state (hw rc mem_cons_self hne) hsz
        have hfit := hfit (by omega)
        refine ⟨fst, by rw [if_pos hact, hf], hsolved.ok.weaken fun paneId hpa hcol =>
          ⟨0, child, rfl, hpa, Or.inr hcol⟩, hsolved.suppressed_nil hfit, hsolved.cover_le,
          hsolved.cover_eq hfit⟩
      · obtain ⟨firstId, restIds, hlv⟩ : ∃ firstId restIds, child.listLeafPaneIds = firstId :: restIds :=
          exists_cons_of_ne_nil (listLeafPaneIds_ne_nil (hgood child mem_cons_self))
        have hcover := headerPart_cover firstId restIds rc member memberCount
        refine ⟨_, by rw [if_neg hact, emitStackHeader_eq hlv], ?_, rfl,
          fun pt => Nat.le_of_eq (hcover pt), fun _ => hcover⟩
        rw [hlv]
        refine headerPart_ok _ _ _ _ hne fun paneId hpa => ⟨0, child, rfl, ?_, Or.inl (by omega)⟩
        rw [hlv]
        exact hpa
    obtain ⟨rest, hrs, hrestOk, hrestNone, hrestLe, hrestEq⟩ := ih (member + 1)
      (fun c hc => hslv c (htailMem c hc)) (fun c hc => hgood c (htailMem c hc)) (by simpa using hlen)
      (fun i c r hc hr => by
        have := hrcs (i + 1) c r (by simpa using hc) (by simpa using hr)
        rwa [← Nat.add_assoc, Nat.add_right_comm] at this)
      (fun r hr => hw r (mem_cons_of_mem _ hr)) (state.extend fst) hsz
    refine ⟨fst.append rest, ?_, ?_, by simp [SolvedPart.append, hnone, hrestNone], fun pt => ?_, fun hgap pt => ?_⟩
    · rw [← extend_extend, ← hrs, ← hf]
      rfl
    · rw [hsp]
      exact hfstOk.append (hrestOk.weaken hmono)
    · rw [SolvedPart.cover_append, coverCount_cons]
      exact Nat.add_le_add (hfstLe pt) (hrestLe pt)
    · rw [SolvedPart.cover_append, coverCount_cons, hfstEq hgap pt, hrestEq hgap pt]

variable {nd : SplitNode LayoutNode}

theorem solveNode_split_of_ne (h : nd.direction ≠ .stacked) (rc : Rect) (state : LayoutSolveState) :
    solveLayoutNode rc state (.split nd) = solveDirectionalChildren
      (computeDirectionalChildRects nd rc state.paneSizing) state nd.children := by
  obtain ⟨dir, children, weights, active⟩ := nd
  cases dir with
  | stacked => exact absurd rfl h
  | horizontal => rfl
  | vertical => rfl

theorem solveNode_split_of_stacked (h : nd.direction = .stacked) (rc : Rect) (state : LayoutSolveState) :
    solveLayoutNode rc state (.split nd) = solveStackedChildren nd.getActiveChildIndex
      nd.children.length 0 (computeStackedChildRects nd rc state.paneSizing) state
      nd.children := by
  obtain ⟨dir, children, weights, active⟩ := nd
  subst h
  rfl

theorem solves_directional (hdir : nd.direction ≠ .stacked) (hne : nd.children ≠ [])
    (hgood : ∀ child ∈ nd.children, child.hasNoLeaflessSplit = true) (hnd : (nd.children.flatMap listLeafPaneIds).Nodup)
    (hslv : ∀ child ∈ nd.children, Solves paneSizing child) : Solves paneSizing (.split nd) := by
  intro rc state hw hsz
  obtain ⟨hhl, hcover, hft, htile⟩ :=
    directionalRects_spec nd paneSizing hw hne hgood
  rw [solveNode_split_of_ne hdir, hsz]
  obtain ⟨part, hpart, hok, hle, heq⟩ := solveDirectional_spec hslv hgood hhl
    (fun r hr => withinU16_of_coverCount hw hcover hr) state hsz
  have hwithinRect : isLayoutWithinRect (.split nd) rc paneSizing =
      (computeDirectionalMinimumSize nd (computeMinimumSizes paneSizing nd.children)
        paneSizing).canFitInside rc.size := by
    rw [isLayoutWithinRect, minimumSize_split_of_ne _ hdir]
  refine ⟨part, hpart, ⟨?_, fun pt => le_trans (hle pt) (hcover pt), fun hfit hgap pt => ?_,
    fun hfit => (heq (hft (hwithinRect ▸ hfit))).1⟩⟩
  · rw [listLeafPaneIds_split]
    refine hok.weaken ?_
    rintro paneId - ⟨child, hme, hpa, hcol⟩
    obtain ⟨i, hi⟩ := mem_iff_getElem?.1 hme
    exact (isPaneCollapsed_split hnd hi hpa).2 (Or.inr hcol)
  · rw [(heq (hft (hwithinRect ▸ hfit))).2 hgap pt, htile (hwithinRect ▸ hfit) hgap pt]

theorem solves_stacked (hdir : nd.direction = .stacked) (hne : nd.children ≠ [])
    (hgood : ∀ child ∈ nd.children, child.hasNoLeaflessSplit = true) (hnd : (nd.children.flatMap listLeafPaneIds).Nodup)
    (hslv : ∀ child ∈ nd.children, Solves paneSizing child) : Solves paneSizing (.split nd) := by
  intro rc state hw hsz
  obtain ⟨hlen, hem, hft⟩ := stackedRects_spec nd paneSizing hw hne hgood
  rw [solveNode_split_of_stacked hdir, hsz]
  have hwithinRect : isLayoutWithinRect (.split nd) rc paneSizing =
      (computeStackMinimumSize nd paneSizing).canFitInside rc.size := by
    rw [isLayoutWithinRect, minimumSize_split_of_stacked _ hdir]
  by_cases hfit : (computeStackMinimumSize nd paneSizing).canFitInside rc.size = true
  · obtain ⟨hrcs, hcover⟩ := hft hfit
    obtain ⟨part, hpart, hok, hnone, hle, heq⟩ := @solveStacked_spec _ _
      nd.getActiveChildIndex nd.children.length _ 0 hslv hgood hlen
        (fun i child r hch hr => by simpa using hrcs i child r hch hr)
      (fun r hr => withinU16_of_coverCount hw (fun pt => Nat.le_of_eq (hcover pt)) hr)
      state hsz
    refine ⟨part, hpart, ⟨?_, fun pt => hcover pt ▸ hle pt,
      fun _ hgap pt => by rw [heq hgap pt, hcover pt], fun _ => hnone⟩⟩
    rw [listLeafPaneIds_split]
    refine hok.weaken ?_
    rintro paneId - ⟨i, child, hi, hpa, hcol⟩
    refine (isPaneCollapsed_split hnd hi hpa).2 (hcol.imp_left fun h => ⟨hdir, ?_⟩)
    rw [SplitNode.getShownChildIndex_nil]
    omega
  · have hnot : ¬ isLayoutWithinRect (.split nd) rc paneSizing = true := hwithinRect ▸ hfit
    refine ⟨_, solveStacked_suppressed _ _ _ hlen (hem hfit) state,
      ⟨?_, fun pt => ?_, fun h => absurd h hnot, fun h => absurd h hnot⟩⟩
    · rw [listLeafPaneIds_split]
      exact suppressedPart_ok _
    · rw [suppressedPart_cover]
      exact Nat.zero_le _

/-- Every tree with distinct leaves and no leafless split is solved as `NodeSolved` says. -/
theorem solves (paneSizing : PaneSizing) {layoutNode : LayoutNode} (hgood : layoutNode.hasNoLeaflessSplit = true)
    (hnd : layoutNode.listLeafPaneIds.Nodup) : Solves paneSizing layoutNode := by
  induction layoutNode with
  | pane paneId => exact solves_pane paneSizing paneId
  | split nd ih =>
    have hcs := ((hasNoLeaflessSplit_split nd).1 hgood).2
    rw [listLeafPaneIds_split] at hnd
    have hslv : ∀ child ∈ nd.children, Solves paneSizing child := fun child hme =>
      ih child hme (hcs child hme) ((nodup_flatMap.1 hnd).1 child hme)
    by_cases hdir : nd.direction = .stacked
    · exact solves_stacked hdir (children_ne_nil hgood) hcs hnd hslv
    · exact solves_directional hdir (children_ne_nil hgood) hcs hnd hslv

/-! ### The whole solve -/

/-- No cell lies in both rects. -/
def RectsDisjoint (first second : Rect) : Prop :=
  ∀ point, ¬ (first.isPointInside point = true ∧ second.isPointInside point = true)

structure LayoutInvariants (tree : LayoutNode) (tabRect : Rect) (paneSizing : PaneSizing)
    (layoutSolve : LayoutSolve) : Prop where
  leaves_once : layoutSolve.paneRects.map (·.1) = tree.listLeafPaneIds ∧ (layoutSolve.paneRects.map (·.1)).Nodup
  inside : ∀ entry ∈ layoutSolve.paneRects,
    (∀ point, entry.2.isPointInside point = true → tabRect.isPointInside point = true) ∧
      (entry.2 = .buildEmptyAtOrigin ∨ entry.2.isInsideRect tabRect = true)
  disjoint : layoutSolve.paneRects.Pairwise fun first second => RectsDisjoint first.2 second.2
  headers : ∀ header ∈ layoutSolve.stackHeaders, (header.paneId, header.headerRect) ∈ layoutSolve.paneRects
  minimum : ∀ entry ∈ layoutSolve.paneRects, entry.1 ∉ layoutSolve.suppressedPaneIds →
    (∀ header ∈ layoutSolve.stackHeaders, header.paneId ≠ entry.1) →
      (computeBorderInclusiveMinimum paneSizing.minimumSize).canFitInside entry.2.size = true ∨
        (entry.2 = .buildEmptyAtOrigin ∧ tree.isPaneCollapsed entry.1 [] = true)
  tiles : paneSizing.gapCellCount = 0 → isLayoutWithinRect tree tabRect paneSizing = true →
    ∀ point, tabRect.isPointInside point = true →
      layoutSolve.paneRects.countP (fun entry => entry.2.isPointInside point) = 1

theorem pairwise_disjoint_of_coverCount (h : ∀ pt, coverCount rs pt ≤ 1) : rs.Pairwise RectsDisjoint := by
  induction rs with
  | nil => exact .nil
  | cons rc rs ih =>
    have hcons := fun pt => coverCount_cons rc rs pt
    refine .cons (fun other hme pt hboth => ?_) (ih fun pt => ?_)
    · have hpos : 0 < coverCount rs pt := countP_pos_iff.2 ⟨other, hme, hboth.2⟩
      have := h pt
      rw [hcons, if_pos hboth.1] at this
      omega
    · have := h pt
      rw [hcons] at this
      omega

/-- **The solver's layout invariants** hold for every tree with distinct leaves and no leafless split, over every
tab rect with edges in `u16`, under every sizing. -/
theorem solveLayoutWithSizing_invariants (node : LayoutNode) (tabRect : Rect) (paneSizing : PaneSizing)
    (hdistinct : node.listLeafPaneIds.Nodup) (hleaves : node.hasNoLeaflessSplit = true) (hedges : tabRect.WithinU16) :
    LayoutInvariants node tabRect paneSizing (solveLayoutWithSizing node tabRect paneSizing) := by
  obtain ⟨part, hpart, hsolved⟩ :=
    solves paneSizing hleaves hdistinct tabRect (.fromPaneSizing paneSizing) hedges rfl
  have hsolve : solveLayoutWithSizing node tabRect paneSizing =
      (extend (.fromPaneSizing paneSizing) part).intoLayoutSolve := by
    rw [solveLayoutWithSizing, hpart]
  have hrects : (solveLayoutWithSizing node tabRect paneSizing).paneRects = part.paneRects := by
    rw [hsolve]
    rfl
  have hsupp : (solveLayoutWithSizing node tabRect paneSizing).suppressedPaneIds = part.suppressedPaneIds := by
    rw [hsolve]
    rfl
  have hheaders : (solveLayoutWithSizing node tabRect paneSizing).stackHeaders = part.stackHeaders := by
    rw [hsolve]
    rfl
  have hpoints : ∀ entry ∈ part.paneRects, ∀ point, entry.2.isPointInside point = true →
      tabRect.isPointInside point = true := by
    intro entry hmem point hpoint
    have hpos : 0 < part.cover point := countP_pos_iff.2 ⟨entry.2, List.mem_map_of_mem hmem, hpoint⟩
    have hle := hsolved.cover_le point
    by_contra hout
    rw [if_neg hout] at hle
    omega
  have hdisj := @pairwise_disjoint_of_coverCount (part.paneRects.map (·.2)) fun point =>
    le_trans (hsolved.cover_le point) (by split_ifs <;> omega)
  constructor
  · rw [hrects, hsolved.ok.names]
    exact ⟨rfl, hdistinct⟩
  · rw [hrects]
    intro entry hmem
    refine ⟨hpoints entry hmem, ?_⟩
    cases hempty : entry.2.isEmpty with
    | true => exact Or.inl (hsolved.ok.empties entry hmem hempty)
    | false => exact Or.inr (Rect.isInsideRect_of_points hempty (hpoints entry hmem))
  · rw [hrects]
    exact pairwise_map.1 hdisj
  · rw [hrects, hheaders]
    exact hsolved.ok.headers
  · rw [hrects, hsupp, hheaders]
    intro entry hmem hnot hheader
    rcases hsolved.ok.entries entry hmem with hs | ⟨header, hh, heq⟩ | hfits | hhidden
    · exact absurd hs hnot
    · exact absurd heq (hheader header hh)
    · exact Or.inl hfits
    · exact Or.inr hhidden
  · rw [hrects]
    intro hgap hfit point hpoint
    have hcover := hsolved.cover_eq hfit hgap point
    rw [if_pos hpoint, SolvedPart.cover, coverCount, countP_map] at hcover
    exact hcover

/-- The invariants over a tab of `80x24` cells split into a pane beside a two-member stack. -/
theorem solveLayoutWithSizing_invariants_stack :
    LayoutInvariants
      (.split ⟨.horizontal, [.pane ⟨0⟩, .split ⟨.stacked, [.pane ⟨1⟩, .pane ⟨2⟩], [.default, .default], 0⟩],
        [.default, .default], 0⟩)
      (.fromSizeAtOrigin ⟨80, 24⟩) .default
      (solveLayoutWithSizing
        (.split ⟨.horizontal, [.pane ⟨0⟩, .split ⟨.stacked, [.pane ⟨1⟩, .pane ⟨2⟩], [.default, .default], 0⟩],
          [.default, .default], 0⟩)
        (.fromSizeAtOrigin ⟨80, 24⟩) .default) :=
  solveLayoutWithSizing_invariants _ _ _ (by decide) (by decide) (by decide)

/-- A collapsed member that is a subtree puts its first leaf on the header strip; its second leaf is neither
suppressed nor on a header, and has no cells. -/
theorem solveLayoutWithSizing_hidden_leaf :
    let node : LayoutNode := .split ⟨.stacked,
      [.pane ⟨0⟩, .split ⟨.horizontal, [.pane ⟨1⟩, .pane ⟨2⟩], [.default, .default], 0⟩], [.default, .default], 0⟩
    let tabRect : Rect := .fromSizeAtOrigin ⟨80, 24⟩
    node.listLeafPaneIds.Nodup ∧ node.hasNoLeaflessSplit = true ∧ tabRect.WithinU16 ∧
      ¬ ∀ entry ∈ (solveLayoutWithSizing node tabRect .default).paneRects,
        entry.1 ∉ (solveLayoutWithSizing node tabRect .default).suppressedPaneIds →
        (∀ header ∈ (solveLayoutWithSizing node tabRect .default).stackHeaders, header.paneId ≠ entry.1) →
          (computeBorderInclusiveMinimum PaneSizing.default.minimumSize).canFitInside entry.2.size = true := by
  decide

end Koshi.Layout
