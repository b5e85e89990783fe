import Koshi.Core.Ids
import Koshi.Layout.View

/-!
# Tabs and floating panes

The layout trees of a session (`koshi-session/src/session/state.rs`): a tab holds one tree over the tab, a
floating pane one tree below its titlebar strip. Each tree is kept with the size it is solved at and its solve.
-/

namespace Koshi.Sessions

open Base Koshi.Core Layout List

def maxTabFocusMruEntryCount : Nat := 16

def maxFloatingPanesPerSession : Nat := 12

def floatingTitlebarStripRowCount : Nat := 1

/-- The layout tree that holds a pane. -/
inductive LayoutAreaId where
  | tab (tabId : TabId)
  | floatingPane (floatingPaneId : FloatingPaneId)
  deriving DecidableEq, Repr

structure LayoutArea where
  layout : LayoutNode
  solvedSize : Size
  layoutSolve : LayoutSolve

namespace LayoutArea

variable (layoutArea : LayoutArea)

/-- The tiled solve of the tree at the solved size. -/
def computeLayoutSolve (paneSizing : PaneSizing) : LayoutSolve :=
  solveLayoutWithSizing layoutArea.layout (.fromSizeAtOrigin layoutArea.solvedSize) paneSizing

/-- Solves the tree and holds the solve. -/
def updateLayoutSolve (paneSizing : PaneSizing) : LayoutArea :=
  { layoutArea with layoutSolve := layoutArea.computeLayoutSolve paneSizing }

def fromLayoutTree (layoutTree : LayoutNode) (solvedSize : Size) (paneSizing : PaneSizing) : LayoutArea :=
  updateLayoutSolve ⟨layoutTree, solvedSize, .default⟩ paneSizing

/-- The solve zoomed on `zoomedPaneId`; `none` when the tree does not hold it. -/
def buildZoomedSolve (zoomedPaneId : PaneId) (paneSizing : PaneSizing) : Option LayoutSolve :=
  if !layoutArea.layout.hasPane zoomedPaneId then none
  else some (solveLayoutWithMode layoutArea.layout (.fullscreen zoomedPaneId)
    (.fromSizeAtOrigin layoutArea.solvedSize) paneSizing)

def buildClientSolve (layoutMode : LayoutMode) (focusHistory : List PaneId) (paneSizing : PaneSizing) :
    Option LayoutSolve :=
  match layoutMode with
  | .fullscreen focusedPaneId => layoutArea.buildZoomedSolve focusedPaneId paneSizing
  | .tiled => (layoutArea.layout.buildShownLayoutTree focusHistory).map fun shownLayoutTree =>
      solveLayoutWithSizing shownLayoutTree (.fromSizeAtOrigin layoutArea.solvedSize) paneSizing

end LayoutArea

/-- One tab: its name, bar position, layout tree, and the panes it focused, newest first. -/
structure Tab where
  tabId : TabId
  tabName : String
  tabIndex : Nat
  layoutArea : LayoutArea
  focusMru : List PaneId

namespace Tab

def fromLayoutTree (tabId : TabId) (tabName : String) (tabIndex : Nat) (layoutTree : LayoutNode) (tabSize : Size)
    (paneSizing : PaneSizing) : Tab :=
  ⟨tabId, tabName, tabIndex, .fromLayoutTree layoutTree tabSize paneSizing, []⟩

/-- The panes of the tab, in layout order. -/
def listPaneIds (tab : Tab) : List PaneId := tab.layoutArea.layout.listLeafPaneIds

/-- Records `paneId` as the most-recently focused, keeping one entry per pane up to the cap. -/
def recordFocusMru (tab : Tab) (paneId : PaneId) : Tab :=
  { tab with focusMru := (paneId :: tab.focusMru.filter (· ≠ paneId)).take maxTabFocusMruEntryCount }

def removeFocusMru (tab : Tab) (paneId : PaneId) : Tab :=
  { tab with focusMru := tab.focusMru.filter (· ≠ paneId) }

def updateTabIndex (tab : Tab) (tabIndex : Nat) : Tab := { tab with tabIndex }

end Tab

/-! ### Floating sizes -/

/-- The size a floating pane's tree is solved over: the outer size less the titlebar strip. -/
def computeFloatingLayoutSize (solvedSize : Size) : Size :=
  ⟨solvedSize.columnCount, solvedSize.rowCount - floatingTitlebarStripRowCount⟩

def maxFloatingPaneAxisPercent : Nat := 90

def computeFloatingPaneSizeCap (floatingViewport : Size) : Size where
  columnCount := computePercentCellCount floatingViewport.columnCount maxFloatingPaneAxisPercent
  rowCount := computePercentCellCount floatingViewport.rowCount maxFloatingPaneAxisPercent

/-! ### Floating panes -/

/-- One floating pane: a container with its own layout tree. -/
structure FloatingPane where
  floatingPaneId : FloatingPaneId
  layoutArea : LayoutArea
  desiredSize : FloatingPaneSize
  solvedSize : Size

namespace FloatingPane

/-- A new floating pane holding `paneId` alone; `floatingPaneId` is the id the source mints. -/
def fromPane (floatingPaneId : FloatingPaneId) (paneId : PaneId) (desiredSize : FloatingPaneSize) (solvedSize : Size)
    (paneSizing : PaneSizing) : FloatingPane where
  floatingPaneId := floatingPaneId
  layoutArea := .fromLayoutTree (.pane paneId) (computeFloatingLayoutSize solvedSize) paneSizing
  desiredSize := desiredSize
  solvedSize := solvedSize

/-- The panes of the floating pane, in layout order. -/
def listPaneIds (floatingPane : FloatingPane) : List PaneId := floatingPane.layoutArea.layout.listLeafPaneIds

def hasPane (floatingPane : FloatingPane) (paneId : PaneId) : Bool := floatingPane.layoutArea.layout.hasPane paneId

/-- Replaces the tree and solves it at the size it is solved at. -/
def replaceLayout (floatingPane : FloatingPane) (layoutTree : LayoutNode) (paneSizing : PaneSizing) : FloatingPane :=
  { floatingPane with
    layoutArea := ({ floatingPane.layoutArea with layout := layoutTree }).updateLayoutSolve paneSizing }

theorem hasPane_iff (floatingPane : FloatingPane) (paneId : PaneId) :
    floatingPane.hasPane paneId = true ↔ paneId ∈ floatingPane.listPaneIds := LayoutNode.hasPane_iff_mem _ _

end FloatingPane

/-- The floating panes of one session, in the order they were created. -/
abbrev FloatingSet := List FloatingPane

inductive FloatingSetError where
  | duplicatePane (paneId : PaneId)
  | tooManyPanes
  deriving DecidableEq, Repr

namespace FloatingSet

variable {floatingSet : FloatingSet} {floatingPane : FloatingPane}

def findFloatingPaneByPaneId (floatingSet : FloatingSet) (paneId : PaneId) : Option FloatingPane :=
  floatingSet.find? (·.hasPane paneId)

def findFloatingPaneById (floatingSet : FloatingSet) (floatingPaneId : FloatingPaneId) : Option FloatingPane :=
  floatingSet.find? (·.floatingPaneId = floatingPaneId)

/-- Its index in the order the floating panes were created. -/
def findCascadeIndex (floatingSet : FloatingSet) (floatingPaneId : FloatingPaneId) : Option Nat :=
  floatingSet.findIdx? (·.floatingPaneId = floatingPaneId)

def hasPane (floatingSet : FloatingSet) (paneId : PaneId) : Bool :=
  (findFloatingPaneByPaneId floatingSet paneId).isSome

def isFull (floatingSet : FloatingSet) : Bool := floatingSet.length ≥ maxFloatingPanesPerSession

def addFloatingPane (floatingSet : FloatingSet) (floatingPane : FloatingPane) : Except FloatingSetError FloatingSet :=
  match floatingPane.listPaneIds.find? (hasPane floatingSet ·) with
  | some paneId => .error (.duplicatePane paneId)
  | none => if isFull floatingSet then .error .tooManyPanes else .ok (floatingSet ++ [floatingPane])

def modifyById (floatingPaneId : FloatingPaneId) (f : FloatingPane → FloatingPane) : FloatingSet → FloatingSet
  | [] => []
  | floatingPane :: floatingSet =>
    if floatingPane.floatingPaneId = floatingPaneId then f floatingPane :: floatingSet
    else floatingPane :: modifyById floatingPaneId f floatingSet

def removeById (floatingSet : FloatingSet) (floatingPaneId : FloatingPaneId) : FloatingSet :=
  floatingSet.eraseP (·.floatingPaneId = floatingPaneId)

theorem findFloatingById_id {floatingPaneId : FloatingPaneId}
    (h : findFloatingPaneById floatingSet floatingPaneId = some floatingPane) :
    floatingPane.floatingPaneId = floatingPaneId := by
  simpa using List.find?_some h

theorem findFloatingById_mem {floatingPaneId : FloatingPaneId}
    (h : findFloatingPaneById floatingSet floatingPaneId = some floatingPane) :
    floatingPane ∈ floatingSet := List.mem_of_find?_eq_some h

theorem findFloatingById_of_mem (hnd : (floatingSet.map FloatingPane.floatingPaneId).Nodup)
    (h : floatingPane ∈ floatingSet) :
    findFloatingPaneById floatingSet floatingPane.floatingPaneId = some floatingPane := by
  induction floatingSet with
  | nil => exact absurd h not_mem_nil
  | cons head floatingSet ih =>
    rw [map_cons, nodup_cons] at hnd
    rw [findFloatingPaneById, List.find?_cons]
    rcases mem_cons.1 h with rfl | h
    · simp
    · have hne : head.floatingPaneId ≠ floatingPane.floatingPaneId := fun heq =>
        hnd.1 (heq ▸ List.mem_map_of_mem h)
      rw [decide_eq_false hne]
      exact ih hnd.2 h

@[simp] theorem map_id_modifyById (floatingPaneId : FloatingPaneId) {f : FloatingPane → FloatingPane}
    (hf : ∀ floatingPane, (f floatingPane).floatingPaneId = floatingPane.floatingPaneId) (floatingSet : FloatingSet) :
    (modifyById floatingPaneId f floatingSet).map FloatingPane.floatingPaneId =
      floatingSet.map FloatingPane.floatingPaneId := by
  induction floatingSet with
  | nil => rfl
  | cons head floatingSet ih =>
    rw [modifyById]
    split_ifs
    · rw [map_cons, map_cons, hf]
    · rw [map_cons, map_cons, ih]

theorem findFloatingById_modifyById (floatingPaneId j : FloatingPaneId) {f : FloatingPane → FloatingPane}
    (hf : ∀ floatingPane, (f floatingPane).floatingPaneId = floatingPane.floatingPaneId) (floatingSet : FloatingSet) :
    findFloatingPaneById (modifyById floatingPaneId f floatingSet) j =
      if j = floatingPaneId then (findFloatingPaneById floatingSet j).map f
      else findFloatingPaneById floatingSet j := by
  induction floatingSet with
  | nil => simp [modifyById, findFloatingPaneById]
  | cons head floatingSet ih =>
    simp only [findFloatingPaneById] at ih ⊢
    rw [modifyById]
    by_cases hhead : head.floatingPaneId = floatingPaneId
    · rw [if_pos hhead, List.find?_cons, List.find?_cons, hf]
      by_cases ho : head.floatingPaneId = j
      · simp [ho, ho ▸ hhead]
      · rw [decide_eq_false ho, if_neg fun h => ho (hhead.trans h.symm)]
    · rw [if_neg hhead, List.find?_cons, List.find?_cons]
      by_cases ho : head.floatingPaneId = j
      · rw [decide_eq_true ho]
        simp [ho ▸ hhead]
      · rw [decide_eq_false ho]
        exact ih

theorem findFloatingById_removeById (hnd : (floatingSet.map FloatingPane.floatingPaneId).Nodup)
    (floatingPaneId j : FloatingPaneId) :
    findFloatingPaneById (removeById floatingSet floatingPaneId) j =
      if j = floatingPaneId then none else findFloatingPaneById floatingSet j := by
  induction floatingSet with
  | nil => simp [removeById, findFloatingPaneById]
  | cons head floatingSet ih =>
    rw [map_cons, nodup_cons] at hnd
    simp only [findFloatingPaneById, removeById] at ih ⊢
    by_cases hhead : head.floatingPaneId = floatingPaneId
    · rw [eraseP_cons_of_pos (by simpa using hhead), List.find?_cons]
      split_ifs with ho
      · rw [List.find?_eq_none]
        intro floatingPane hm
        have : floatingPane.floatingPaneId ∈ floatingSet.map FloatingPane.floatingPaneId := List.mem_map_of_mem hm
        simp only [decide_eq_true_eq]
        rintro rfl
        exact hnd.1 (by rwa [hhead, ← ho])
      · rw [decide_eq_false fun h => ho (h.symm.trans hhead)]
    · rw [eraseP_cons_of_neg (by simpa using hhead), List.find?_cons, List.find?_cons, ih hnd.2]
      by_cases ho : head.floatingPaneId = j
      · rw [decide_eq_true ho]
        simp [ho ▸ hhead]
      · rw [decide_eq_false ho]

theorem map_id_removeById_sublist (floatingSet : FloatingSet) (floatingPaneId : FloatingPaneId) :
    ((removeById floatingSet floatingPaneId).map FloatingPane.floatingPaneId).Sublist
      (floatingSet.map FloatingPane.floatingPaneId) := (eraseP_sublist).map _

end FloatingSet

end Koshi.Sessions
