import Mathlib.Data.List.Basic
import Mathlib.Order.Bounds.Basic
import Koshi.Renderer.Tabline

/-!
# The tab bar's columns

Where each part of the row lies, which tabs are shown, and from which one. A search downwards finds the smallest index
that keeps the active tab visible because a tab that is visible from one index is visible from every later one up to its
own.
-/

namespace Koshi.Renderer

open Base List

open packVisibleTabs (packFrom)

variable {counts : List Nat} {startColumn stop index : Nat}

/-! ### Packing -/

theorem satAdd16_satAdd16_one {columnCount : Nat} (h : startColumn + columnCount + 1 ≤ u16Max) :
    satAdd16 (satAdd16 startColumn columnCount) 1 = startColumn + columnCount + 1 := by
  have hsum : satAdd16 startColumn columnCount = startColumn + columnCount := satAdd16_of_le (by omega)
  rw [hsum, satAdd16_of_le h]

theorem packFrom_indexes (stop index startColumn : Nat) (counts : List Nat) :
    (packFrom stop index startColumn counts).map (·.tabMetadataIndex) =
      range' index (packFrom stop index startColumn counts).length := by
  induction counts generalizing index startColumn with
  | nil => rfl
  | cons columnCount counts ih =>
    rw [packFrom]
    split_ifs with hwide
    · rfl
    · rw [map_cons, length_cons, range'_succ, ih]

theorem length_packFrom_le (stop index startColumn : Nat) (counts : List Nat) :
    (packFrom stop index startColumn counts).length ≤ counts.length := by
  induction counts generalizing index startColumn with
  | nil => exact Nat.le_refl 0
  | cons columnCount counts ih =>
    rw [packFrom]
    split_ifs with hwide
    · exact Nat.zero_le _
    · exact Nat.succ_le_succ (ih _ _)

/-- A tab is placed when it and those before it fit with a free column between each two. -/
theorem lt_length_packFrom (hen : stop ≤ u16Max) {number : Nat} (hnum : number < counts.length)
    (hft : startColumn + (counts.take (number + 1)).sum + number ≤ stop) :
    number < (packFrom stop index startColumn counts).length := by
  induction counts generalizing index startColumn number with
  | nil => exact absurd hnum (Nat.not_lt_zero _)
  | cons columnCount counts ih =>
    rw [take_succ_cons, sum_cons] at hft
    rw [packFrom, if_neg (by omega), length_cons]
    obtain _ | number := number
    · exact Nat.succ_pos _
    · rw [satAdd16_satAdd16_one (by omega)]
      exact Nat.succ_lt_succ (ih (Nat.lt_of_succ_lt_succ hnum) (by omega))

/-- Nothing saturates before the last column. -/
theorem fits_of_lt_length_packFrom (hen : stop < u16Max) {number : Nat}
    (hpld : number < (packFrom stop index startColumn counts).length) :
    startColumn + (counts.take (number + 1)).sum + number ≤ stop := by
  induction counts generalizing index startColumn number with
  | nil => exact absurd hpld (Nat.not_lt_zero _)
  | cons columnCount counts ih =>
    rw [packFrom] at hpld
    split_ifs at hpld with hwide
    · exact absurd hpld (Nat.not_lt_zero _)
    · rw [take_succ_cons, sum_cons]
      obtain _ | number := number
      · rw [take_zero, sum_nil]
        omega
      · rw [satAdd16_satAdd16_one (by omega)] at hpld
        have := ih (Nat.lt_of_succ_lt_succ hpld)
        omega

/-- Ranges of columns one after the other, from `startColumn` to before `stop`. -/
def Between (startColumn stop : Nat) (columns : List (Nat × Nat)) : Prop :=
  columns.Pairwise (fun left right => left.2 ≤ right.1) ∧
    ∀ range ∈ columns, startColumn ≤ range.1 ∧ range.1 ≤ range.2 ∧ range.2 ≤ stop

theorem Between.nil (startColumn stop : Nat) : Between startColumn stop [] := ⟨.nil, nofun⟩

theorem Between.append {midColumn : Nat} {columns rightColumns : List (Nat × Nat)}
    (h : Between startColumn midColumn columns) (hright : Between midColumn stop rightColumns)
    (hst : startColumn ≤ midColumn) (hen : midColumn ≤ stop) :
    Between startColumn stop (columns ++ rightColumns) := by
  refine ⟨pairwise_append.2 ⟨h.1, hright.1, fun left hleft right hm => ?_⟩, fun range hrng => ?_⟩
  · exact (h.2 left hleft).2.2.trans (hright.2 right hm).1
  · rcases mem_append.1 hrng with hrng | hrng
    · obtain ⟨hlow, hord, hhigh⟩ := h.2 range hrng
      exact ⟨hlow, hord, hhigh.trans hen⟩
    · obtain ⟨hlow, hord, hhigh⟩ := hright.2 range hrng
      exact ⟨hst.trans hlow, hord, hhigh⟩

theorem Between.cons {midColumn : Nat} {columns : List (Nat × Nat)} (h : Between midColumn stop columns)
    (hst : startColumn ≤ midColumn) (hen : midColumn ≤ stop) :
    Between startColumn stop ((startColumn, midColumn) :: columns) := by
  have hf : Between startColumn midColumn [(startColumn, midColumn)] :=
    ⟨pairwise_singleton _ _, forall_mem_singleton.2 ⟨Nat.le_refl _, hst, Nat.le_refl _⟩⟩
  exact hf.append h hst hen

def VisibleTabSpan.columns (span : VisibleTabSpan) : Nat × Nat :=
  (span.startColumn, span.startColumn + span.columnCount)

theorem Between.widen {lowColumn highColumn : Nat} {columns : List (Nat × Nat)} (h : Between startColumn stop columns)
    (hlow : lowColumn ≤ startColumn) (hhigh : stop ≤ highColumn) : Between lowColumn highColumn columns := by
  refine ⟨h.1, fun range hrng => ?_⟩
  obtain ⟨hst, hord, hen⟩ := h.2 range hrng
  exact ⟨hlow.trans hst, hord, hen.trans hhigh⟩

theorem between_packFrom (hen : stop ≤ u16Max) (index startColumn : Nat) (counts : List Nat) :
    Between startColumn stop ((packFrom stop index startColumn counts).map (·.columns)) := by
  induction counts generalizing index startColumn with
  | nil => exact .nil _ _
  | cons columnCount counts ih =>
    rw [packFrom]
    split_ifs with hwide
    · exact .nil _ _
    · have hsum : satAdd16 startColumn columnCount = startColumn + columnCount := satAdd16_of_le (by omega)
      have hn : startColumn + columnCount ≤ satAdd16 (startColumn + columnCount) 1 :=
        Nat.le_min.2 ⟨Nat.le_add_right _ _, by omega⟩
      rw [map_cons, hsum]
      exact ((ih (index + 1) _).widen hn (Nat.le_refl _)).cons (Nat.le_add_right _ _) (Nat.le_of_not_lt hwide)

theorem columnCount_packFrom (stop index startColumn : Nat) (counts : List Nat) :
    (packFrom stop index startColumn counts).map (·.columnCount) <+: counts := by
  induction counts generalizing index startColumn with
  | nil => exact prefix_refl []
  | cons columnCount counts ih =>
    rw [packFrom]
    split_ifs with hwide
    · exact nil_prefix
    · exact (prefix_cons_inj columnCount).2 (ih _ _)

/-! ### The first visible tab -/

variable {active fst : Nat}

theorem isActiveTabVisible_iff : isActiveTabVisible counts active startColumn stop fst = true ↔ fst ≤ active ∧ active <
    fst + (packVisibleTabs counts fst startColumn stop).length := by
  have hindexes := packFrom_indexes stop fst startColumn (counts.drop fst)
  rw [isActiveTabVisible, any_eq_true, packVisibleTabs, ← mem_range'_1, ← hindexes, mem_map]
  simp only [decide_eq_true_eq]

/-- A tab visible from an index is visible from the next one too: one tab less stands before it. -/
theorem isActiveTabVisible_succ (hen : stop < u16Max) (hb : fst < active)
    (hvis : isActiveTabVisible counts active startColumn stop fst = true) :
    isActiveTabVisible counts active startColumn stop (fst + 1) = true := by
  obtain ⟨number, rfl⟩ := Nat.exists_eq_add_of_lt hb
  rw [isActiveTabVisible_iff] at hvis ⊢
  have hpld : number + 1 < (packVisibleTabs counts fst startColumn stop).length := by omega
  have hft := fits_of_lt_length_packFrom hen hpld
  have hc := hpld.trans_le (length_packFrom_le _ _ _ _)
  obtain ⟨columnCount, hdrop⟩ : ∃ columnCount, counts.drop fst = columnCount :: counts.drop (fst + 1) :=
    ⟨_, drop_eq_getElem_cons (by rw [length_drop] at hc; omega)⟩
  rw [hdrop, take_succ_cons, sum_cons] at hft
  rw [hdrop, length_cons] at hc
  have hlr : number < (packFrom stop (fst + 1) startColumn (counts.drop (fst + 1))).length :=
    lt_length_packFrom hen.le (Nat.lt_of_succ_lt_succ hc) (by omega)
  rw [packVisibleTabs]
  omega

theorem isActiveTabVisible_of_le (hen : stop < u16Max) {later : Nat} (hle : fst ≤ later) (hact : later ≤ active)
    (hvis : isActiveTabVisible counts active startColumn stop fst = true) :
    isActiveTabVisible counts active startColumn stop later = true := by
  induction later, hle using Nat.le_induction with
  | base => exact hvis
  | succ later hle ih => exact isActiveTabVisible_succ hen hact (ih (Nat.le_of_succ_le hact))

/-- **The smallest first index.** -/
theorem isLeast_findFirstVisibleTabIndex (hen : stop < u16Max)
    (hvis : isActiveTabVisible counts active startColumn stop active = true) :
    IsLeast {index | isActiveTabVisible counts active startColumn stop index = true}
      (findFirstVisibleTabIndex counts active startColumn stop) := by
  have hsearch : ∀ index ≤ active, isActiveTabVisible counts active startColumn stop index = true →
      IsLeast {index | isActiveTabVisible counts active startColumn stop index = true}
        (findFirstVisibleTabIndex.searchDown counts active startColumn stop index) := by
    intro index hidx hsh
    induction index with
    | zero => exact ⟨hsh, fun _ _ => Nat.zero_le _⟩
    | succ index ih =>
      rw [findFirstVisibleTabIndex.searchDown]
      split_ifs with her
      · exact ih (Nat.le_of_succ_le hidx) her
      · refine ⟨hsh, fun otherIndex ho => Nat.lt_of_not_le fun hle => her ?_⟩
        exact isActiveTabVisible_of_le hen hle (Nat.le_of_succ_le hidx) ho
  rw [findFirstVisibleTabIndex]
  split_ifs with hf
  · exact ⟨hf, fun _ _ => Nat.zero_le _⟩
  · exact hsearch active (Nat.le_refl _) hvis

/-! ### The tabs in their strip -/

/-- So many tabs from the first one fit the columns, with a free column between each two. -/
def TabsFit (counts : List Nat) (place tabCount : Nat) (window : Nat × Nat) : Prop :=
  window.1 < window.2 ∧ place + tabCount ≤ counts.length ∧
    window.1 + ((counts.drop place).take tabCount).sum + (tabCount - 1) ≤ window.2

/-- All the tabs are placed without scrolling. -/
def AllPlaced (counts : List Nat) (strip : Nat × Nat) : Prop :=
  (packVisibleTabs counts 0 strip.1 strip.2).length = counts.length

instance (strip : Nat × Nat) : Decidable (AllPlaced counts strip) := inferInstanceAs (Decidable (_ = _))

/-- The columns of the tabs: the strip, or the strip without an arrow's column on each side. -/
def tabWindow (counts : List Nat) (strip : Nat × Nat) : Nat × Nat :=
  if AllPlaced counts strip then strip else (strip.1 + tablineArrowWidth, strip.2 - tablineArrowWidth)

def IsScrolled (counts : List Nat) (strip : Nat × Nat) : Prop :=
  ¬ AllPlaced counts strip ∧ strip.1 + tablineArrowWidth < strip.2 - tablineArrowWidth

/-- What the layout shows of the tabs in the columns of the strip. -/
structure TabsShown (counts : List Nat) (active : Nat) (offset : Option Nat) (strip : Nat × Nat)
    (layout : TablineLayout) : Prop where
  consecutive : layout.visibleTabSpans.map (·.tabMetadataIndex) =
    range' layout.firstVisibleTabIndex layout.visibleTabSpans.length
  whole : layout.visibleTabSpans.map (·.columnCount) <+: counts.drop layout.firstVisibleTabIndex
  most : ∀ tabCount, TabsFit counts layout.firstVisibleTabIndex tabCount (tabWindow counts strip) →
    tabCount ≤ layout.visibleTabSpans.length
  leftArrow : layout.leftScrollArrowColumn.isSome ↔ IsScrolled counts strip ∧ 0 < layout.firstVisibleTabIndex
  rightArrow : layout.rightScrollArrowColumn.isSome ↔ IsScrolled counts strip ∧
    layout.firstVisibleTabIndex + layout.visibleTabSpans.length < counts.length
  followed : offset = none → TabsFit counts active 1 (tabWindow counts strip) →
    active ∈ layout.visibleTabSpans.map (·.tabMetadataIndex) ∧
    IsLeast
      {index | isActiveTabVisible counts active (tabWindow counts strip).1 (tabWindow counts strip).2 index = true}
      layout.firstVisibleTabIndex

namespace TabsShown

variable {strip window : Nat × Nat} {layout : TablineLayout} {offset : Option Nat}

theorem of_packed (hen : window.2 ≤ u16Max) (hwin : tabWindow counts strip = window)
    (hspans : layout.visibleTabSpans = packVisibleTabs counts layout.firstVisibleTabIndex window.1 window.2)
    (hleft : layout.leftScrollArrowColumn.isSome ↔ IsScrolled counts strip ∧ 0 < layout.firstVisibleTabIndex)
    (hright : layout.rightScrollArrowColumn.isSome ↔ IsScrolled counts strip ∧
      layout.firstVisibleTabIndex + layout.visibleTabSpans.length < counts.length)
    (hfollowed : offset = none → TabsFit counts active 1 window →
      IsLeast {index | isActiveTabVisible counts active window.1 window.2 index = true} layout.firstVisibleTabIndex) :
    TabsShown counts active offset strip layout where
  consecutive := by
    rw [hspans]
    exact packFrom_indexes ..
  whole := by
    rw [hspans]
    exact columnCount_packFrom ..
  most := by
    rw [hwin, hspans]
    rintro (_ | tabCount) ⟨-, hc, hft⟩
    · exact Nat.zero_le _
    · exact lt_length_packFrom hen (by rw [length_drop]; omega) hft
  leftArrow := hleft
  rightArrow := hright
  followed := by
    rw [hwin]
    intro hoff hft
    have hleast := hfollowed hoff hft
    refine ⟨?_, hleast⟩
    have hvis := hleast.1
    rw [Set.mem_ofPred_eq, isActiveTabVisible, any_eq_true, ← hspans] at hvis
    simpa only [decide_eq_true_eq, mem_map] using hvis

/-- Nothing is shown where there is no tab or no column. -/
theorem of_empty (hnothing : counts = [] ∨ strip.2 ≤ strip.1 ∨
      ¬ AllPlaced counts strip ∧ strip.2 - tablineArrowWidth ≤ strip.1 + tablineArrowWidth)
    (hf : layout.firstVisibleTabIndex = 0) (hspans : layout.visibleTabSpans = [])
    (hleft : layout.leftScrollArrowColumn = none) (hright : layout.rightScrollArrowColumn = none) :
    TabsShown counts active offset strip layout := by
  have hft : ∀ place tabCount, TabsFit counts place tabCount (tabWindow counts strip) → tabCount = 0 := by
    rintro place tabCount ⟨hwin, hc, -⟩
    rcases hnothing with rfl | hstrip | ⟨hpld, hinn⟩
    · exact Nat.eq_zero_of_add_eq_zero_left (Nat.le_zero.1 hc)
    · rw [tabWindow] at hwin
      split_ifs at hwin
      · omega
      · dsimp only at hwin
        omega
    · rw [tabWindow, if_neg hpld] at hwin
      dsimp only at hwin
      omega
  have hscrolled : IsScrolled counts strip → counts = [] := by
    rintro ⟨hpld, hinn⟩
    rcases hnothing with hnone | hstrip | ⟨-, hnarrow⟩
    · exact hnone
    · omega
    · omega
  exact {
    consecutive := by
      rw [hspans]
      rfl
    whole := by
      rw [hspans]
      exact nil_prefix
    most := fun tabCount hc => (hft _ tabCount hc).le.trans (Nat.zero_le _)
    leftArrow := by
      rw [hleft, hf]
      exact ⟨nofun, fun hhid => absurd hhid.2 (Nat.lt_irrefl 0)⟩
    rightArrow := by
      rw [hright, hspans]
      refine ⟨nofun, fun hhid => ?_⟩
      have hlen := hhid.2
      rw [hscrolled hhid.1] at hlen
      exact absurd hlen (Nat.not_lt_zero _)
    followed := fun _ hc => absurd (hft _ 1 hc) Nat.one_ne_zero }

end TabsShown

/-! ### The row -/

/-- The columns of the arrows and the tabs, from left to right. -/
def TablineLayout.listStripColumns (layout : TablineLayout) : List (Nat × Nat) :=
  layout.leftScrollArrowColumn.toList.map (fun column => (column, column + tablineArrowWidth)) ++
    (layout.visibleTabSpans.map (·.columns) ++
      layout.rightScrollArrowColumn.toList.map fun column => (column, column + tablineArrowWidth))

/-- The columns of the buttons and the mode tag, from left to right. -/
def TablineLayout.listRightColumns (layout : TablineLayout) (area : TablineArea) : List (Nat × Nat) :=
  layout.notificationButtonColumns.toList ++
    (layout.floatingPaneTrayButtonColumn.toList.map
      (fun column => (column, column + floatingPaneTrayButtonColumnCount)) ++
        [(layout.rightBlockStartColumn, area.right)])

def TablineLayout.listColumns (layout : TablineLayout) (area : TablineArea) : List (Nat × Nat) :=
  (area.x, area.x + layout.sessionBlockWidth) :: (layout.listStripColumns ++ layout.listRightColumns area)

/-- The columns left between the session block, with a free column behind it, and the buttons. -/
def TablineLayout.tabStrip (layout : TablineLayout) (area : TablineArea) : Nat × Nat :=
  (area.x + layout.sessionBlockWidth + 1, layout.tabStripEndColumn)

/-- Every part has its own columns of the row, and the tabs are shown in the strip that is left. -/
structure LaidOut (counts : List Nat) (active : Nat) (offset : Option Nat) (area : TablineArea)
    (layout : TablineLayout) : Prop where
  placed : Between area.x area.right (layout.listColumns area)
  tabsShown : TabsShown counts active offset (layout.tabStrip area) layout

variable {area : TablineArea} {layout : TablineLayout} {offset : Option Nat}

theorem TablineArea.x_le_right (area : TablineArea) : area.x ≤ area.right :=
  Nat.le_min.2 ⟨Nat.le_add_right _ _, area.xBound⟩

/-- The right parts of a layout are in order, from the end of the strip to the end of the row. -/
def RightPlaced (area : TablineArea) (layout : TablineLayout) : Prop :=
  area.x ≤ layout.tabStripEndColumn ∧ layout.tabStripEndColumn ≤ area.right ∧
    Between layout.tabStripEndColumn area.right (layout.listRightColumns area)

theorem LaidOut.of_strip (hright : RightPlaced area layout)
    (hsession : layout.sessionBlockWidth ≤ layout.tabStripEndColumn - area.x)
    (hstrip : Between (area.x + layout.sessionBlockWidth) layout.tabStripEndColumn layout.listStripColumns)
    (htabs : TabsShown counts active offset (layout.tabStrip area) layout) :
    LaidOut counts active offset area layout := by
  obtain ⟨hst, hen, hparts⟩ := hright
  have hblock : area.x + layout.sessionBlockWidth ≤ layout.tabStripEndColumn := by omega
  exact ⟨(hstrip.append hparts hblock hen).cons (Nat.le_add_right _ _) (hblock.trans hen), htabs⟩

section

variable {countSpanCells : String → Nat} {inputs : TablineInputs}

theorem rightPlaced (hblock : computeRightBlockStartColumn countSpanCells inputs area = layout.rightBlockStartColumn)
    (htray : findFloatingPaneTrayButtonColumn area layout.rightBlockStartColumn = layout.floatingPaneTrayButtonColumn)
    (hbtn : layout.floatingPaneTrayButtonColumn.bind (findNotificationButtonColumns countSpanCells
      inputs.notificationButton area) = layout.notificationButtonColumns)
    (hen : ((layout.notificationButtonColumns.map (·.1)).or layout.floatingPaneTrayButtonColumn).getD
      layout.rightBlockStartColumn = layout.tabStripEndColumn) : RightPlaced area layout := by
  have hx := area.x_le_right
  have hst : area.x ≤ layout.rightBlockStartColumn ∧ layout.rightBlockStartColumn ≤ area.right := by
    rw [← hblock, computeRightBlockStartColumn]
    omega
  have htag : Between layout.rightBlockStartColumn area.right [(layout.rightBlockStartColumn, area.right)] :=
    (Between.nil _ _).cons hst.2 (Nat.le_refl _)
  rw [RightPlaced, TablineLayout.listRightColumns, ← hen]
  rw [findFloatingPaneTrayButtonColumn] at htray
  split_ifs at htray with htrayRoom
  · rw [← htray, Option.bind_some, findNotificationButtonColumns] at hbtn
    have hcols : Between (layout.rightBlockStartColumn - floatingPaneTrayButtonColumnCount) area.right
        [(layout.rightBlockStartColumn - floatingPaneTrayButtonColumnCount,
          layout.rightBlockStartColumn - floatingPaneTrayButtonColumnCount + floatingPaneTrayButtonColumnCount),
          (layout.rightBlockStartColumn, area.right)] := by
      rw [Nat.sub_add_cancel (htrayRoom.trans (Nat.sub_le _ _))]
      exact htag.cons (Nat.sub_le _ _) hst.2
    have htrayStart : area.x ≤ layout.rightBlockStartColumn - floatingPaneTrayButtonColumnCount := by omega
    split_ifs at hbtn with hbuttonRoom
    · rw [← htray, ← hbtn]
      dsimp only [Option.map, Option.or, Option.getD]
      exact ⟨by omega, by omega, hcols.cons (Nat.sub_le _ _) (by omega)⟩
    · rw [← htray, ← hbtn]
      dsimp only [Option.map, Option.or, Option.getD]
      exact ⟨htrayStart, by omega, hcols⟩
  · rw [← htray, Option.bind_none] at hbtn
    rw [← htray, ← hbtn]
    exact ⟨hst.1, hst.2, htag⟩

theorem between_arrow (col : Nat) (isShown : Prop) [Decidable isShown] :
    Between col (col + tablineArrowWidth)
      ((if isShown then some col else none).toList.map fun col => (col, col + tablineArrowWidth)) := by
  split_ifs
  · exact (Between.nil _ _).cons (Nat.le_add_right _ _) (Nat.le_refl _)
  · exact .nil _ _

end

end Koshi.Renderer
