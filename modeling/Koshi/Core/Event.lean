import Koshi.Core.Ids
import Koshi.Core.Geometry

/-!
# Session events

What a session operation reports to its caller (`koshi-core/src/event.rs`). Only the events that the
modelled operations emit are here.
-/

namespace Koshi.Core

/-- A pane's child process exited; exactly one of the two numbers is present. -/
structure PaneProcessExited where
  paneId : PaneId
  exitCode : Option Int
  signal : Option Int
  deriving DecidableEq, Repr

/-- Why a session quits. -/
inductive QuitCause where
  | requested
  | lastTabClosed (tabId : TabId) (paneExit : Option PaneProcessExited)
  deriving DecidableEq, Repr

/-- Why a client has no visible pane area. -/
inductive TerminalTooSmallCause where
  | terminal
  | regions
  | otherClient (clientId : ClientId)
  deriving DecidableEq, Repr

/-- One event. A `tabId` of `none` says that the pane floats. -/
inductive Event where
  | paneCreated (paneId : PaneId) (tabId : Option TabId)
  | paneProcessExited (paneExit : PaneProcessExited)
  | paneClosing (paneId : PaneId)
  | paneRemoved (paneId : PaneId) (tabId : Option TabId)
  | paneFocused (clientId : ClientId) (tabId : Option TabId) (paneId : PaneId) (previousPaneId : Option PaneId)
  | layoutChanged (tabId : TabId)
  | floatingPaneLayoutChanged (paneIds : List PaneId)
  | floatingPaneMinimizedChanged (clientId : ClientId) (paneIds : List PaneId) (isMinimized : Bool)
  | tabCreated (tabId : TabId)
  | tabClosed (tabId : TabId)
  | tabFocused (clientId : ClientId) (tabId previousTabId : TabId)
  | tabMoved (tabId : TabId) (previousTabIndex newTabIndex : Nat)
  | terminalTooSmallEntered (clientId : ClientId) (viewportSize : Size) (paneArea : Option PaneArea)
      (cause : TerminalTooSmallCause)
  | quit (cause : QuitCause)
  deriving DecidableEq, Repr

end Koshi.Core
