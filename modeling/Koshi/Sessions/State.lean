import Koshi.Core.Event
import Koshi.Sessions.Client

/-!
# The session

The aggregate a server owns for each running session (`koshi-session/src/session/state.rs`,
`lifecycle.rs`): tabs, floating panes, the pane registry and the attached clients, with the reads that
derive a tab's size and a client's own view. A client's own solve is built where it is read; the source
keeps the built value on the client.
-/

namespace Koshi.Sessions

open Base Koshi.Core Layout

inductive SessionLifecycle where
  | starting
  | running
  | detaching
  | stopping
  | stopped
  deriving DecidableEq, Repr

inductive SessionLifecycleEvent where
  | firstTabCreated
  | lastClientDetached
  | clientAttached
  | stopRequested
  | stopCompleted
  deriving DecidableEq, Repr

/-- The next state; `none` when the move is illegal. -/
def SessionLifecycle.transition : SessionLifecycle → SessionLifecycleEvent → Option SessionLifecycle
  | .starting, .firstTabCreated => some .running
  | .running, .lastClientDetached => some .detaching
  | .detaching, .clientAttached => some .running
  | .starting, .stopRequested | .running, .stopRequested | .detaching, .stopRequested => some .stopping
  | .stopping, .stopCompleted => some .stopped
  | _, _ => none

/-- A resolved request to spawn a child process. -/
structure SpawnSpec where
  program : String
  arguments : List String
  workingDirectory : Option String
  environmentVariables : List (String × String)
  shellKind : String
  deriving DecidableEq, Repr

/-- Runtime metadata for a single terminal pane. -/
structure PaneRecord where
  paneId : PaneId
  spawnSpec : Option SpawnSpec
  workingDirectory : Option String
  deriving DecidableEq, Repr

structure Session where
  sessionId : SessionId
  tabs : OrdMap TabId Tab
  floatingSet : FloatingSet
  panes : OrdMap PaneId PaneRecord
  clients : OrdMap ClientId Client
  paneSizing : PaneSizing
  lifecycle : SessionLifecycle

/-- A session step gives the session after it and the events it emits. -/
abbrev Outcome := Session × List Event

namespace Session

/-! ### Small edits -/

/-- `get_client_mut_by_id` followed by an edit: an id that is not attached changes nothing. -/
def modifyClient (session : Session) (clientId : ClientId) (f : Client → Client) : Session :=
  { session with clients := session.clients.modify clientId f }

/-- `list_attached_clients_mut` followed by an edit of every client. -/
def modifyClients (session : Session) (f : Client → Client) : Session :=
  { session with clients := session.clients.mapValues fun _ => f }

/-- `tabs.get_mut` followed by an edit. -/
def modifyTab (session : Session) (tabId : TabId) (f : Tab → Tab) : Session :=
  { session with tabs := session.tabs.modify tabId f }

def removeTab (session : Session) (tabId : TabId) : Session := { session with tabs := session.tabs.erase tabId }

def updateTabIndex (session : Session) (tabId : TabId) (tabIndex : Nat) : Session :=
  session.modifyTab tabId (·.updateTabIndex tabIndex)

/-- Advances the lifecycle; a rejected event keeps the state. -/
def updateLifecycle (session : Session) (lifecycleEvent : SessionLifecycleEvent) : Session :=
  { session with lifecycle := (session.lifecycle.transition lifecycleEvent).getD session.lifecycle }

def removePaneRecord (session : Session) (paneId : PaneId) : Session :=
  { session with panes := session.panes.erase paneId }

def findClientPosition (clientPositions : List (ClientId × FloatingPanePosition)) (clientId : ClientId) :
    FloatingPanePosition :=
  ((clientPositions.find? (·.1 = clientId)).map (·.2)).getD .default

def addFloatingPane (session : Session) (floatingPane : FloatingPane)
    (clientPositions : List (ClientId × FloatingPanePosition)) : Except FloatingSetError Session :=
  match FloatingSet.addFloatingPane session.floatingSet floatingPane with
  | .error floatingSetError => .error floatingSetError
  | .ok floatingSet =>
    .ok ({ session with floatingSet }.modifyClients fun client =>
      client.addFloatingPaneView floatingPane (findClientPosition clientPositions client.clientId))

/-- Drops `floatingPaneId` from the floating set and from every client's view. -/
def removeFloatingPane (session : Session) (floatingPaneId : FloatingPaneId) : Session :=
  match FloatingSet.findFloatingPaneById session.floatingSet floatingPaneId with
  | none => session
  | some _ =>
    { session with floatingSet := FloatingSet.removeById session.floatingSet floatingPaneId }.modifyClients
      (·.removeFloatingPaneView floatingPaneId)

/-! ### Reads -/

def listAttachedClients (session : Session) : List Client := session.clients.values

/-- The pane region to size `tabId` against: the per-axis minimum over its viewers. -/
def getTabSize (session : Session) (tabId : TabId) : Option Size :=
  Size.reduceMinimumAxes
    ((session.listAttachedClients.filter fun client => client.activeTabId = tabId).filterMap Client.getPaneArea)

def resolveTabSolveSize (session : Session) (tabId : TabId) : Option Size :=
  (session.tabs.get? tabId).map fun tab =>
    if !session.listAttachedClients.any (fun client => client.activeTabId = tabId) then tab.layoutArea.solvedSize
    else (session.getTabSize tabId).getD ⟨0, 0⟩

def buildOwnClientSolve (session : Session) (client : Client) (tab : Tab) : Option LayoutSolve :=
  tab.layoutArea.buildClientSolve (client.getLayoutMode tab.tabId) (client.listFocusHistory tab.tabId)
    session.paneSizing

def computeClientSolve (session : Session) (client : Client) (tabId : TabId) : Option LayoutSolve :=
  (session.tabs.get? tabId).map fun tab =>
    (session.buildOwnClientSolve client tab).getD tab.layoutArea.layoutSolve

def computeClientFloatingPaneSolve (session : Session) (client : Client) (floatingPaneId : FloatingPaneId) :
    Option LayoutSolve :=
  (FloatingSet.findFloatingPaneById session.floatingSet floatingPaneId).bind fun floatingPane =>
    (client.getFloatingPaneView floatingPaneId).map fun floatingPaneView =>
      (floatingPane.layoutArea.buildClientSolve floatingPaneView.getLayoutMode floatingPaneView.focusHistory
        session.paneSizing).getD floatingPane.layoutArea.layoutSolve

def canClientDrawFloatingPanes (session : Session) (client : Client) : Bool :=
  client.getFloatingViewport.isSome && match session.computeClientSolve client client.activeTabId with
    | none => true
    | some clientSolve => !clientSolve.isEveryPaneSuppressed

def findClientFloatingPaneRect (session : Session) (client : Client) (floatingPaneId : FloatingPaneId) :
    Option Rect := do
  let floatingViewport ← client.getFloatingViewport
  let cascadeIndex ← FloatingSet.findCascadeIndex session.floatingSet floatingPaneId
  let floatingPane ← FloatingSet.findFloatingPaneById session.floatingSet floatingPaneId
  let floatingPaneView ← client.getFloatingPaneView floatingPaneId
  some (placeFloatingPane floatingPaneView.position floatingPane.solvedSize cascadeIndex floatingViewport)

/-- The pane `client` lands on in `tabId`: its focus history there, then the tab's leaves, taking the first
leaf shown in the client's own view that has a record. -/
def findLandingPane (session : Session) (client : Client) (tabId : TabId) : Option PaneId :=
  (session.tabs.get? tabId).bind fun tab =>
    let layoutTree := tab.layoutArea.layout
    let leafPaneIds := layoutTree.listLeafPaneIds
    let focusHistory := client.listFocusHistory tabId
    (focusHistory ++ leafPaneIds).find? fun paneId =>
      leafPaneIds.contains paneId && !layoutTree.isPaneCollapsed paneId focusHistory && session.panes.contains paneId

end Session

end Koshi.Sessions
