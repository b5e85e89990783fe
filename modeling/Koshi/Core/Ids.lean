import Koshi.Base.OrdMap

/-!
# Typed identifiers

One wrapped number per entity (`koshi-core/src/ids.rs`: a `UUIDv7` each). The types are not
interchangeable.
-/

namespace Koshi.Core

open Base

structure PaneId where
  uuid : Nat
  deriving DecidableEq, Repr

structure TabId where
  uuid : Nat
  deriving DecidableEq, Repr

/-- Identifies a floating pane: a container with its own layout tree. -/
structure FloatingPaneId where
  uuid : Nat
  deriving DecidableEq, Repr

structure ClientId where
  uuid : Nat
  deriving DecidableEq, Repr

structure SessionId where
  uuid : Nat
  deriving DecidableEq, Repr

instance : Key PaneId := ⟨PaneId.uuid, fun first second h => by cases first; cases second; cases h; rfl⟩
instance : Key TabId := ⟨TabId.uuid, fun first second h => by cases first; cases second; cases h; rfl⟩
instance : Key FloatingPaneId := ⟨FloatingPaneId.uuid, fun first second h => by cases first; cases second; cases h; rfl⟩
instance : Key ClientId := ⟨ClientId.uuid, fun first second h => by cases first; cases second; cases h; rfl⟩

end Koshi.Core
