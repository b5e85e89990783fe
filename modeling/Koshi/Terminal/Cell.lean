import Mathlib.Data.List.TakeWhile
import Koshi.Terminal.Style

/-!
# Cells

One grid cell and how a row ends (`koshi-terminal/src/grid/state.rs`). The continuation code points, the
Kitty placeholder and the native image fragments sit in a tail that ordinary cells do not have.
-/

namespace Koshi.Terminal

open List

/-- Upper bound on the continuation code points one cell keeps. -/
def maxGraphemeContinuationCount : Nat := 32

/-- A cell-sized portion of one retained native image. -/
structure ImageCellFragment where
  imageSourceId : Nat
  sourceRowIndex : Nat
  sourceColumnIndex : Nat
  deriving DecidableEq, Repr

/-- The image identity and source cell encoded by a Kitty Unicode placeholder. -/
structure ImagePlaceholder where
  imageId : Nat
  placementId : Option Nat
  sourceRow : Option Nat
  sourceColumn : Option Nat
  imageIdMsb : Option Nat
  deriving DecidableEq, Repr

structure CellExtra where
  combining : List Char
  imagePlaceholder : Option ImagePlaceholder
  imageFragments : List ImageCellFragment
  deriving DecidableEq, Repr

def CellExtra.default : CellExtra := ⟨[], none, []⟩

/-- A single grid cell. -/
structure Cell where
  character : Char
  combining : Option CellExtra
  displayWidth : Nat
  style : Style
  deriving DecidableEq

namespace Cell

/-- A space in the given style. -/
def buildBlankWithStyle (style : Style) : Cell := ⟨' ', none, 1, style⟩

/-- A space in the default style. -/
def buildBlank : Cell := buildBlankWithStyle .default

/-- A cell holding `character` with no tail. -/
def fromCharacter (character : Char) (displayWidth : Nat) (style : Style) : Cell :=
  ⟨character, none, displayWidth, style⟩

/-- The continuation code points in arrival order. -/
def listCombiningCharacters (cell : Cell) : List Char := (cell.combining.map (·.combining)).getD []

/-- The cell carries a Kitty placeholder. -/
def hasImagePlaceholder (cell : Cell) : Bool := (cell.combining.bind (·.imagePlaceholder)).isSome

/-- Layers one continuation code point onto the cell; the first one allocates the tail. -/
def pushCombining (cell : Cell) (mark : Char) : Cell :=
  let cellExtra := cell.combining.getD .default
  { cell with combining := some { cellExtra with combining := cellExtra.combining ++ [mark] } }

end Cell

inductive RowEnd where
  | hard
  | soft
  | softWide
  deriving DecidableEq, Repr

/-- The length of a row with its trailing run of default blanks excluded. -/
def countRowContentCells (rowCells : List Cell) : Nat :=
  (rowCells.reverse.dropWhile (· = Cell.buildBlank)).length

theorem take_countContentCells (rowCells : List Cell) :
    rowCells.take (countRowContentCells rowCells) ++
      List.replicate (rowCells.length - countRowContentCells rowCells) Cell.buildBlank = rowCells := by
  have hsp := takeWhile_append_dropWhile (p := (· = Cell.buildBlank)) (l := rowCells.reverse)
  have hblks : rowCells.reverse.takeWhile (· = Cell.buildBlank) =
      List.replicate (rowCells.reverse.takeWhile (· = Cell.buildBlank)).length Cell.buildBlank :=
    eq_replicate_iff.2 ⟨rfl, fun c hm => by simpa using mem_takeWhile_imp hm⟩
  have hro : rowCells = (rowCells.reverse.dropWhile (· = Cell.buildBlank)).reverse ++
      (rowCells.reverse.takeWhile (· = Cell.buildBlank)).reverse := by
    rw [← reverse_append, hsp, reverse_reverse]
  have hc : rowCells.length - countRowContentCells rowCells =
      (rowCells.reverse.takeWhile (· = Cell.buildBlank)).length := by
    have := congrArg List.length hro
    simp only [length_append, length_reverse] at this
    unfold countRowContentCells
    omega
  rw [hc, ← reverse_replicate, ← hblks]
  conv_rhs => rw [hro]
  congr 1
  conv_lhs => rw [hro]
  exact take_left' (by simp [countRowContentCells])

theorem countContentCells_le (rowCells : List Cell) : countRowContentCells rowCells ≤ rowCells.length := by
  have := length_dropWhile_le (· = Cell.buildBlank) rowCells.reverse
  rwa [length_reverse] at this

end Koshi.Terminal
