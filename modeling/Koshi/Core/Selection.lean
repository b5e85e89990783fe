import Mathlib.Algebra.Group.Nat.Defs

/-!
# Selections

A highlighted range of one pane's text (`koshi-core/src/selection.rs`). A row is an absolute line number, a machine
word of 64 bits that a client sends.
-/

namespace Koshi.Core

inductive SelectionKind where
  | character
  | word
  | line
  | block
  deriving DecidableEq, Repr

structure GridPosition where
  rowIndex : Nat
  columnIndex : Nat
  rowIndex_lt : rowIndex < 2 ^ 64
  deriving DecidableEq

structure Selection where
  selectionKind : SelectionKind
  /-- The end that stays put. -/
  anchor : GridPosition
  /-- The end that follows the pointer. -/
  cursor : GridPosition
  deriving DecidableEq

end Koshi.Core
