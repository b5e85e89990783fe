import Koshi.Core.Geometry

/-!
# Size constraints for split children

Each child slot of a split carries a `SizeWeight` (`koshi-layout/src/size.rs`): how the solver sizes that
slot along the split axis.
-/

namespace Koshi.Layout

/-- How a split child claims cells along the split axis. -/
inductive SizeConstraint where
  /-- A weighted share of the space left over after `fixed` and `percent` children are placed. -/
  | flex (flexWeight : Nat)
  /-- A percentage of the parent's axis, floored to whole cells. -/
  | percent (percentValue : Nat)
  /-- An exact number of cells. -/
  | fixed (cellCount : Nat)
  /-- A floor: `flex 1` that never solves below this many cells. -/
  | minimum (cellCount : Nat)
  /-- A target honored when slack allows: `flex 1` that aims for this many cells. -/
  | preferred (cellCount : Nat)
  deriving DecidableEq, Repr

/-- The complete sizing instruction for one split child. -/
structure SizeWeight where
  primaryConstraint : SizeConstraint
  minimumCellCount : Option Nat
  preferredCellCount : Option Nat
  resizeDelta : Int
  deriving DecidableEq, Repr

/-- A weight with no overlays and no resize offset. -/
def SizeWeight.fromPrimaryConstraint (primaryConstraint : SizeConstraint) : SizeWeight where
  primaryConstraint := primaryConstraint
  minimumCellCount := none
  preferredCellCount := none
  resizeDelta := 0

def SizeWeight.default : SizeWeight := .fromPrimaryConstraint (.flex 1)

instance : Inhabited SizeWeight := ⟨SizeWeight.default⟩

end Koshi.Layout
