import Koshi.Layout.Regions
import Koshi.Layout.Proof.Suppression

/-!
# Edge regions partition the viewport

A region and what remains after it share the rectangle they are taken from, each of its cells once. By induction over
the list the regions and the pane rectangle share the viewport.
-/

namespace Koshi.Layout

open Base Koshi.Core List Option Rect

/-- The rects lie inside `outerRect` and share its cells, each cell once. -/
structure PartitionsRect (outerRect : Rect) (rects : List Rect) : Prop where
  inside : ∀ rect ∈ rects, rect.isInsideRect outerRect = true
  cover : ∀ point, coverCount rects point = if outerRect.isPointInside point = true then 1 else 0

namespace PartitionsRect

variable {outerRect paneRect region : Rect} {rects : List Rect}

theorem swap {fst snd : Rect} (h : PartitionsRect outerRect [fst, snd]) : PartitionsRect outerRect [snd, fst] where
  inside := fun r hm => h.inside r ((List.Perm.swap fst snd []).mem_iff.1 hm)
  cover := fun pt => ((List.Perm.swap fst snd []).countP_eq _).trans (h.cover pt)

theorem refine (h : PartitionsRect outerRect [paneRect, region]) (hr : PartitionsRect paneRect rects) :
    PartitionsRect outerRect (rects ++ [region]) where
  inside := by
    have hpa := (isInsideRect_iff _ _).1 (h.inside paneRect (by simp))
    intro r hm
    rcases mem_append.1 hm with hm | hm
    · have hrc := (isInsideRect_iff _ _).1 (hr.inside r hm)
      refine (isInsideRect_iff _ _).2 ?_
      omega
    · exact h.inside r (mem_cons_of_mem _ hm)
  cover := by
    intro pt
    have hcover := h.cover pt
    rw [coverCount_cons] at hcover
    rw [coverCount, countP_append, ← coverCount, ← coverCount, hr.cover]
    exact hcover

variable {col row columnCount rowCount fst snd : Nat}

theorem rows (h : fst + snd = rowCount) : PartitionsRect ⟨⟨col, row⟩, ⟨columnCount, rowCount⟩⟩
    [⟨⟨col, row⟩, ⟨columnCount, fst⟩⟩, ⟨⟨col, row + fst⟩, ⟨columnCount, snd⟩⟩] where
  inside := by
    simp [isInsideRect_iff, getRightEdge, getBottomEdge]
    omega
  cover := by
    intro pt
    simp only [coverCount_cons, isPointInside_iff]
    simp only [coverCount, countP_nil]
    split_ifs <;> omega

theorem columns (h : fst + snd = columnCount) : PartitionsRect ⟨⟨col, row⟩, ⟨columnCount, rowCount⟩⟩
    [⟨⟨col, row⟩, ⟨fst, rowCount⟩⟩, ⟨⟨col + fst, row⟩, ⟨snd, rowCount⟩⟩] where
  inside := by
    simp [isInsideRect_iff, getRightEdge, getBottomEdge]
    omega
  cover := by
    intro pt
    simp only [coverCount_cons, isPointInside_iff]
    simp only [coverCount, countP_nil]
    split_ifs <;> omega

end PartitionsRect

theorem takeRegion_spec {restRect : Rect} (hw : restRect.WithinU16) (geometry : RegionGeometry) : ∃ region nextRect,
      takeRegion restRect geometry = some (region, nextRect) ∧ PartitionsRect restRect [nextRect, region] := by
  obtain ⟨⟨col, row⟩, ⟨columnCount, rowCount⟩⟩ := restRect
  obtain ⟨edge, extentCellCount⟩ := geometry
  obtain ⟨hright, hbot⟩ := hw
  simp only [getRightEdge, getBottomEdge] at hright hbot
  have hrows : min extentCellCount rowCount ≤ rowCount := Nat.min_le_right _ _
  have hco : min extentCellCount columnCount ≤ columnCount := Nat.min_le_right _ _
  cases edge with
  | top =>
    simp only [takeRegion, checkedAdd_of_le ((Nat.add_le_add_left hrows row).trans hbot), checkedSub_of_le hrows]
    exact ⟨_, _, rfl, (PartitionsRect.rows (Nat.add_sub_of_le hrows)).swap⟩
  | bottom =>
    simp only [takeRegion, checkedAdd_of_le hbot, bind_eq_bind, bind_some,
      checkedSub_of_le (hrows.trans (Nat.le_add_left rowCount row)), checkedSub_of_le hrows]
    refine ⟨_, _, rfl, ?_⟩
    rw [Nat.add_sub_assoc hrows]
    exact PartitionsRect.rows (Nat.sub_add_cancel hrows)
  | left =>
    simp only [takeRegion, checkedAdd_of_le ((Nat.add_le_add_left hco col).trans hright), checkedSub_of_le hco]
    exact ⟨_, _, rfl, (PartitionsRect.columns (Nat.add_sub_of_le hco)).swap⟩
  | right =>
    simp only [takeRegion, checkedAdd_of_le hright, bind_eq_bind, bind_some,
      checkedSub_of_le (hco.trans (Nat.le_add_left columnCount col)), checkedSub_of_le hco]
    refine ⟨_, _, rfl, ?_⟩
    rw [Nat.add_sub_assoc hco]
    exact PartitionsRect.columns (Nat.sub_add_cancel hco)

/-- The loop shares the rectangle it starts from among the pane rectangle and the regions. -/
theorem solveRegionRectsFrom_spec {restRect : Rect} (hw : restRect.WithinU16)
    (geometries : List RegionGeometry) : ∃ regions,
      solveRegionRectsFrom restRect geometries = some regions ∧
        regions.regionRects.length = geometries.length ∧
        PartitionsRect restRect (regions.paneRect :: regions.regionRects.reverse) := by
  induction geometries generalizing restRect with
  | nil =>
    refine ⟨_, rfl, rfl, fun r hm => ?_, fun pt => ?_⟩
    · rw [mem_singleton.1 hm]
      simp [isInsideRect_iff]
    · simp only [reverse_nil, coverCount_cons]
      rfl
  | cons geometry geometries ih =>
    obtain ⟨region, nextRect, htake, hparts⟩ := takeRegion_spec hw geometry
    have hins := (isInsideRect_iff _ _).1 (hparts.inside nextRect (by simp))
    obtain ⟨regions, hsolve, hlen, hr⟩ := @ih nextRect ⟨hins.2.2.1.trans hw.1, hins.2.2.2.trans hw.2⟩
    refine ⟨{ regions with regionRects := region :: regions.regionRects }, ?_, ?_, ?_⟩
    · rw [solveRegionRectsFrom, htake]
      simp [hsolve]
    · simp [hlen]
    · simpa using hparts.refine hr

/-- **Edge regions partition the viewport.** No sum or difference leaves `u16`; there is one rectangle for every region,
each lies inside the viewport, no two share a cell, and every viewport cell is in exactly one of them. -/
theorem solveRegionRects_partition {viewportSize : Size} (hviewport : SizeWithinU16 viewportSize)
    (geometries : List RegionGeometry) : ∃ solved,
      solveRegionRects viewportSize geometries = some solved ∧
        solved.regionRects.length = geometries.length ∧
        (∀ rect ∈ solved.paneRect :: solved.regionRects, rect.isInsideRect (.fromSizeAtOrigin viewportSize) = true) ∧
        (solved.paneRect :: solved.regionRects).Pairwise RectsDisjoint ∧
        ∀ point, (fromSizeAtOrigin viewportSize).isPointInside point = true →
          coverCount (solved.paneRect :: solved.regionRects) point = 1 := by
  obtain ⟨solved, hsolve, hlen, hparts⟩ :=
    solveRegionRectsFrom_spec (withinU16_fromAtOrigin hviewport) geometries
  have hperm := (reverse_perm solved.regionRects).cons solved.paneRect
  have hcover : ∀ point, coverCount (solved.paneRect :: solved.regionRects) point =
      if (fromSizeAtOrigin viewportSize).isPointInside point = true then 1 else 0 :=
    fun point => (hperm.countP_eq _).symm.trans (hparts.cover point)
  refine ⟨solved, hsolve, hlen, fun rect hmem => hparts.inside rect (hperm.mem_iff.2 hmem), ?_, ?_⟩
  · refine pairwise_disjoint_of_coverCount fun point => ?_
    rw [hcover]
    split <;> omega
  · intro point hpoint
    rw [hcover, if_pos hpoint]

theorem solveRegionRects_partition_twoBars : ∃ solved,
    solveRegionRects ⟨80, 24⟩ [⟨.top, 1⟩, ⟨.bottom, 1⟩, ⟨.left, 90⟩] = some solved ∧
      solved.paneRect = ⟨⟨80, 1⟩, ⟨0, 22⟩⟩ := by
  obtain ⟨solved, hsolve, -⟩ := @solveRegionRects_partition ⟨80, 24⟩ (by decide) [⟨.top, 1⟩, ⟨.bottom, 1⟩, ⟨.left, 90⟩]
  refine ⟨solved, hsolve, ?_⟩
  cases hsolve
  rfl

end Koshi.Layout
