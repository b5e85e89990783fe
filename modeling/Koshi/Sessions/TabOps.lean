import Mathlib.Data.List.Sort
import Koshi.Layout.Edit
import Koshi.Sessions.Focus

/-!
# Tab operations and the close cascade

The order of the tabs and focusing and closing one (`koshi-session/src/session/tab_ops.rs`), and what the removal of
a pane pulls along (`cascade.rs`): the tab that is left empty, and every floating pane once no tab is left. An
outer `none` is a panic of the source.
-/

namespace Koshi.Sessions

open Base Koshi.Core Layout

/-! ### Removing a floating pane -/

/-- One pane of a removed floating pane or tab: its record leaves. -/
def removePaneRecordStep (tabId : Option TabId) (session : Session) (paneId : PaneId) : Outcome :=
  (session.removePaneRecord paneId, [.paneClosing paneId, .paneRemoved paneId tabId])

variable (session : Session) (floatingPaneId : FloatingPaneId)

def listFocusingClients : List (ClientId × PaneId) :=
  (session.listAttachedClients.filter fun client =>
    client.focusedFloatingPaneId = some floatingPaneId).filterMap fun client =>
      client.getActiveFocusedPaneId.map fun inputPaneId => (client.clientId, inputPaneId)

def removeFloatingPane (session : Session) (floatingPaneId : FloatingPaneId) : Outcome :=
  match FloatingSet.findFloatingPaneById session.floatingSet floatingPaneId with
  | none => (session, [])
  | some floatingPane =>
    let focusingClients := listFocusingClients session floatingPaneId
    let removed := forEach floatingPane.listPaneIds (removePaneRecordStep none)
      (session.removeFloatingPane floatingPaneId)
    (removed.1, removed.2 ++ focusingClients.flatMap fun focusing =>
      ((removed.1.clients.get? focusing.1).bind fun client =>
        buildPaneFocusedEvent client (some focusing.2)).toList)

/-! ### The order of the tabs -/

def listTabIdsInDisplayOrder : List TabId :=
  (session.tabs.entries.insertionSort fun first second => first.2.tabIndex ≤ second.2.tabIndex).map (·.1)

def assignTabIndexes (tabIndexes : List (TabId × Nat)) : Session :=
  tabIndexes.foldl (fun session entry => session.updateTabIndex entry.1 entry.2) session

/-- Renumbers every tab densely in display order. -/
def reindexTabsByDisplayIndex : Session :=
  assignTabIndexes session (listTabIdsInDisplayOrder session).zipIdx

/-- `max_by_key` on the index: the last of the largest. -/
def maxByTabIndex (tabs : List Tab) : Option Tab :=
  tabs.foldl (fun best tab =>
    match best with
    | none => some tab
    | some bestTab => if bestTab.tabIndex ≤ tab.tabIndex then some tab else some bestTab) none

/-- `min_by_key` on the index: the first of the smallest. -/
def minByTabIndex (tabs : List Tab) : Option Tab :=
  tabs.foldl (fun best tab =>
    match best with
    | none => some tab
    | some bestTab => if tab.tabIndex < bestTab.tabIndex then some tab else some bestTab) none

def findNearestSurvivingTabByIndex (closedTabIndex : Nat) : Option TabId :=
  let previousTab := maxByTabIndex (session.tabs.values.filter (·.tabIndex < closedTabIndex))
  let nextTab := minByTabIndex (session.tabs.values.filter (·.tabIndex > closedTabIndex))
  (previousTab.or nextTab).map Tab.tabId

/-! ### Focusing and closing a tab -/

/-- Focuses `tabId`'s landing pane for a client that focuses none there. -/
def landFocus (clientId : ClientId) (tabId : TabId) : Outcome :=
  match session.clients.get? clientId with
  | none => (session, [])
  | some client =>
    if (client.getFocusedPaneId tabId).isSome then (session, [])
    else match session.findLandingPane client tabId with
      | none => (session, [])
      | some paneId => updateClientTabFocus session clientId tabId paneId

def moveViewer (closedTabId nextTabId : TabId) (session : Session) (clientId : ClientId) : Outcome :=
  let landed := landFocus (session.modifyClient clientId (·.updateActiveTabId nextTabId)) clientId nextTabId
  (landed.1, .tabFocused clientId nextTabId closedTabId :: landed.2)

def moveViewersToTab (closedTabId : TabId) (viewingClientIds : List ClientId) : Option TabId → Outcome
  | none => (session, [])
  | some nextTabId =>
    let moved := forEach viewingClientIds (moveViewer closedTabId nextTabId) session
    let solved := updateTabSolve moved.1 nextTabId
    (solved.1, moved.2 ++ solved.2)

def quitWithoutTabs (tabId : TabId) (paneExit : Option PaneProcessExited) : Outcome :=
  if session.tabs.size = 0 then
    let removed := forEach (session.floatingSet.map FloatingPane.floatingPaneId) removeFloatingPane session
    (removed.1.updateLifecycle .stopRequested, removed.2 ++ [.quit (.lastTabClosed tabId paneExit)])
  else (session, [])

/-- Removes an emptied tab: clients leave it, the survivors are renumbered, and without a tab the session quits. -/
def closeAndRefocusTab (tabId : TabId) (paneExit : Option PaneProcessExited) : Outcome :=
  let closedTabIndex := (session.tabs.get? tabId).map Tab.tabIndex
  let closed := session.removeTab tabId
  let nextTabId := closedTabIndex.bind (findNearestSurvivingTabByIndex closed)
  let viewingClientIds :=
    (closed.listAttachedClients.filter fun client => client.activeTabId = tabId).map Client.clientId
  let moved := moveViewersToTab (closed.modifyClients (·.clearFocusHistory tabId)) tabId viewingClientIds nextTabId
  let settled := quitWithoutTabs (reindexTabsByDisplayIndex moved.1) tabId paneExit
  (settled.1, .tabClosed tabId :: moved.2 ++ settled.2)

/-! ### Removing a pane -/

def listFocusedClientRects (tabId : TabId) (paneId : PaneId) : List (ClientId × Rect) :=
  (session.listAttachedClients.filter fun client => client.getFocusedPaneId tabId = some paneId).map fun client =>
    (client.clientId, ((session.computeClientSolve client tabId).bind (·.findPaneRect paneId)).getD .buildEmptyAtOrigin)

def repairFocusAfterPaneLeft (tabId : TabId) (departedPaneId : PaneId) (focusedClientRects : List (ClientId × Rect)) :
    Outcome :=
  let repaired := forEach focusedClientRects
    (fun session clientRect => repairClientFocus session tabId clientRect.1 clientRect.2) session
  (repaired.1.modifyClients (·.removePaneFromFocusHistory tabId departedPaneId), repaired.2)

/-- Takes `paneId`'s leaf out of `tabId` and follows the consequences up the tree; the registry is left alone. -/
def removePaneFromTab (tabId : TabId) (paneId : PaneId) (paneExit : Option PaneProcessExited) : Option Outcome :=
  match session.tabs.get? tabId with
  | none => some (session, [])
  | some tab =>
    let focusedClientRects := listFocusedClientRects session tabId paneId
    let session := session.modifyTab tabId (·.removeFocusMru paneId)
    (removePaneAndNormalize tab.layoutArea.layout paneId).map fun removal =>
      let edited : Outcome := match removal with
        | .ok canonicalLayoutTree =>
          let updated := updateTabLayout session tabId canonicalLayoutTree
          (updated.1, .layoutChanged tabId :: updated.2)
        | .error _ => (session, [])
      let unzoomed := edited.1.modifyClients (·.clearZoomOfPane paneId)
      let settled := match removal with
        | .error (.lastPane _) => closeAndRefocusTab unzoomed tabId paneExit
        | _ => repairFocusAfterPaneLeft unzoomed tabId paneId focusedClientRects
      (settled.1, edited.2 ++ settled.2)

/-! ### Removing a pane of a floating pane -/

def removePaneLeafFromFloatingPane (paneId : PaneId) : Option Outcome :=
  match FloatingSet.findFloatingPaneById session.floatingSet floatingPaneId with
  | none => some (session, [])
  | some floatingPane =>
    (removePaneAndNormalize floatingPane.layoutArea.layout paneId).map fun removal =>
      match removal with
      | .ok canonicalLayoutTree =>
        let updated := updateFloatingPaneLayout session floatingPaneId canonicalLayoutTree
        (updated.1.modifyClients (·.clearZoomOfPane paneId),
          .floatingPaneLayoutChanged canonicalLayoutTree.listLeafPaneIds :: updated.2)
      | .error (.lastPane _) => (session.removeFloatingPane floatingPaneId, [])
      | .error (.paneNotFound _) => (session, [])

def listFloatingPaneFocusedClientRects (paneId : PaneId) : List (ClientId × Rect) :=
  (session.listAttachedClients.filter fun client =>
    client.findFloatingPaneInputPaneId floatingPaneId = some paneId).map fun client =>
      (client.clientId, ((session.computeClientFloatingPaneSolve client floatingPaneId).bind
        (·.findPaneRect paneId)).getD .buildEmptyAtOrigin)

def repairFloatingPaneFocusAfterPaneLeft (departedPaneId : PaneId) (focusedClientRects : List (ClientId × Rect)) :
    Outcome :=
  let repaired := forEach focusedClientRects
    (fun session clientRect => repairFloatingPaneClientFocus session floatingPaneId clientRect.1 clientRect.2) session
  (repaired.1.modifyClients (·.removePaneFromFloatingPaneFocusHistory floatingPaneId departedPaneId), repaired.2)

end Koshi.Sessions
