import Mathlib.Data.Prod.Lex
import Koshi.Terminal.WordSelection

/-!
# Words part the text

A step over the cells of a logical line and the step back undo each other inside the rows and columns that the view
has, so the walks over the text cells do, and so the stretches of one word, or of one separator, part the text cells.
-/

namespace Koshi.Terminal

open Base Option

namespace TextView

variable {view : TextView} {rowIndex col : Nat} {p q : Nat × Nat}

/-! ### Reads -/

theorem readCell_eq (view : TextView) (rowIndex col : Nat) :
    view.readCell rowIndex col =
      ((view.readRow rowIndex).map (·.1)).join.bind fun (rowCells, _) =>
        match rowCells[col]? with
        | some ce => some ce
        | none => if col < view.getColumnCount then some .buildBlank else none := by
  unfold readCell getCell
  cases view.readRow rowIndex <;> rfl

theorem row_of_readCell (h : (view.readCell rowIndex col).isSome) :
    view.getFirstRowIndex ≤ rowIndex ∧ rowIndex ≤ view.getLastRowIndex := by
  obtain ⟨ce, hce⟩ := isSome_iff_exists.1 h
  rw [readCell_eq, bind_eq_some_iff] at hce
  obtain ⟨row, hro, -⟩ := hce
  obtain ⟨⟨_, nextView⟩, hrd, rfl⟩ := map_eq_some_iff.1 (join_eq_some_iff.1 hro)
  unfold TextView.readRow at hrd
  unfold getFirstRowIndex getLastRowIndex getScrollbackRowCount
  by_cases hlive : rowIndex ≥ view.liveScreenTopRowNumber
  · rw [if_pos hlive] at hrd
    obtain ⟨gridRowIndex, hfi, -⟩ := bind_eq_some_iff.1 (congrArg Prod.fst (some_inj.1 hrd))
    have hsh : rowIndex - view.liveScreenTopRowNumber < view.screenGrid.getGridDimensions.1 := by
      unfold findLiveRowIndex at hfi
      dsimp only at hfi
      split_ifs at hfi with hboth
      exact hboth.2
    omega
  · rw [if_neg hlive] at hrd
    cases hfi : view.findHistoryRow rowIndex with
    | none =>
      rw [hfi] at hrd
      exact absurd (congrArg Prod.fst (some_inj.1 hrd)) nofun
    | some rowSnapshot =>
      obtain ⟨scrollbackLines, hlns, hoff⟩ := bind_eq_some_iff.1 hfi
      dsimp only at hoff
      split_ifs at hoff with hrt
      rw [hlns, map_some, getD_some]
      omega

/-! ### Steps -/

def IsPosition (view : TextView) (p : Nat × Nat) : Prop :=
  view.getFirstRowIndex ≤ p.1 ∧ p.1 ≤ view.getLastRowIndex ∧ p.2 < view.getColumnCount

theorem previousCells_undoes : view.previousCells.Undoes view.nextCells view.IsPosition := by
  rintro ⟨rowIndex, col⟩ b ⟨hf, hl, hcol⟩ hstep
  dsimp only [nextCells] at hf hl hcol hstep
  split_ifs at hstep with hinn hro
  · obtain rfl := some_inj.1 hstep
    refine ⟨⟨hf, hl, by dsimp only; omega⟩, ?_⟩
    dsimp only [previousCells]
    rw [if_pos (Nat.succ_pos _), Nat.add_sub_cancel]
  · obtain rfl := some_inj.1 hstep
    refine ⟨⟨by dsimp only; omega, hro.1, by dsimp only; omega⟩, ?_⟩
    dsimp only [previousCells]
    rw [if_neg (Nat.lt_irrefl _), Nat.add_sub_cancel, if_pos ⟨by omega, hro.2⟩]
    congr 2
    omega

theorem nextCells_undoes : view.nextCells.Undoes view.previousCells view.IsPosition := by
  rintro ⟨rowIndex, col⟩ b ⟨hf, hl, hcol⟩ hstep
  dsimp only [previousCells] at hf hl hcol hstep
  split_ifs at hstep with hinn hro
  · obtain rfl := some_inj.1 hstep
    refine ⟨⟨hf, hl, by dsimp only; omega⟩, ?_⟩
    dsimp only [nextCells]
    rw [if_pos (by omega), Nat.sub_add_cancel hinn]
  · obtain rfl := some_inj.1 hstep
    refine ⟨⟨by dsimp only; omega, by dsimp only; omega, by dsimp only; omega⟩, ?_⟩
    dsimp only [nextCells]
    rw [if_neg (Nat.lt_irrefl _), if_pos ⟨by omega, hro.2⟩]
    congr 2 <;> omega

theorem nextCells_stepsUp : view.nextCells.StepsUp toLex view.IsPosition := by
  rintro ⟨rowIndex, col⟩ b ⟨hf, hl, hcol⟩ hstep
  dsimp only [nextCells] at hf hl hcol hstep
  split_ifs at hstep with hinn hro
  · obtain rfl := some_inj.1 hstep
    refine ⟨Prod.Lex.toLex_lt_toLex.2 (.inr ⟨rfl, Nat.lt_succ_self _⟩), fun c hc hac hcb => ?_⟩
    simp only [Prod.Lex.toLex_lt_toLex] at hac hcb
    omega
  · obtain rfl := some_inj.1 hstep
    refine ⟨Prod.Lex.toLex_lt_toLex.2 (.inl (Nat.lt_succ_self _)), fun c hc hac hcb => ?_⟩
    have hco := hc.2.2
    simp only [Prod.Lex.toLex_lt_toLex] at hac hcb
    omega

/-! ### Words -/

/-- A cell of text: it reads, inside the columns every row has, and it is no layout. -/
def IsTextCell (view : TextView) (p : Nat × Nat) : Prop :=
  p.2 < view.getColumnCount ∧ (view.readCell p.1 p.2).isSome ∧ view.isLayoutCell p.1 p.2 = false

instance (view : TextView) (p : Nat × Nat) : Decidable (view.IsTextCell p) :=
  inferInstanceAs (Decidable (_ ∧ _ ∧ _))

/-- What a word is grown by: the separator of a cell, or none; no class where nothing reads. -/
def wordClass (view : TextView) (p : Nat × Nat) : Option (Option Char) :=
  (view.readCell p.1 p.2).map fun _ => view.findSeparatorCharacter p.1 p.2

/-- The positions a word of the class is grown over. -/
def keepsWord (view : TextView) : Option (Option Char) → Nat × Nat → Bool
  | some separatorRun, q => !view.isWordBoundary separatorRun q.1 q.2
  | none, q => (view.readCell q.1 q.2).isNone

theorem keepsWord_class : Walk.KeepsClass view.keepsWord view.wordClass fun p =>
    view.IsPosition p ∧ (!view.isLayoutCell p.1 p.2) = true := by
  rintro a b ⟨-, hatext⟩ ⟨-, hbtext⟩
  rw [Bool.not_eq_true', isLayoutCell, Bool.or_eq_false_iff] at hatext hbtext
  unfold wordClass keepsWord
  cases ha : view.readCell a.1 a.2 with
  | none => simp
  | some ce =>
    have hseparator : view.findSeparatorCharacter a.1 a.2 =
        if wordSeparators.contains ce.character then some ce.character else none := by
      have hwd : ce.displayWidth ≠ 0 := by simpa [ha] using hatext.2
      rw [findSeparatorCharacter, ha, map_some, if_neg hwd, getD_some]
    rw [map_some, hseparator]
    cases hb : view.readCell b.1 b.2 with
    | none => by_cases hmem : ce.character ∈ wordSeparators <;> simp [isWordBoundary, isSeparator, hb, hmem]
    | some other =>
      have hwd : other.displayWidth ≠ 0 := by simpa [hb] using hbtext.2
      by_cases hmem : ce.character ∈ wordSeparators
      · simp [isWordBoundary, findSeparatorCharacter, hb, hwd, hmem]
        rintro hs
        rwa [hs]
      · simp [isWordBoundary, isSeparator, findSeparatorCharacter, hb, hwd, hmem]

/-- **Words part the text cells.** -/
theorem getWordPositions_partition (view : TextView) {p : Nat × Nat} (hp : view.IsTextCell p) :
    toLex (view.getWordStartPosition p) ≤ toLex p ∧ toLex p ≤ toLex (view.getWordEndPosition p) ∧
      ∀ q, view.IsTextCell q → toLex (view.getWordStartPosition p) ≤ toLex q →
        toLex q ≤ toLex (view.getWordEndPosition p) →
          view.getWordStartPosition q = view.getWordStartPosition p ∧
            view.getWordEndPosition q = view.getWordEndPosition p := by
  have hinside : ∀ {q}, view.IsTextCell q → view.IsPosition q ∧ (!view.isLayoutCell q.1 q.2) = true := fun hq =>
    ⟨⟨(row_of_readCell hq.2.1).1, (row_of_readCell hq.2.1).2, hq.1⟩, by rw [hq.2.2]; rfl⟩
  have hclass : ∀ {q}, view.IsTextCell q → view.wordClass q = some (view.findSeparatorCharacter q.1 q.2) := by
    intro q hq
    obtain ⟨cell, hcell⟩ := isSome_iff_exists.1 hq.2.1
    rw [wordClass, hcell, map_some]
  have hstart : ∀ {q}, view.IsTextCell q →
      view.previousTextCells.last (view.keepsWord (view.wordClass q)) q = view.getWordStartPosition q := by
    intro q hq
    rw [hclass hq]
    rfl
  have hend : ∀ {q}, view.IsTextCell q →
      view.nextTextCells.last (view.keepsWord (view.wordClass q)) q = view.getWordEndPosition q := by
    intro q hq
    rw [hclass hq]
    rfl
  rw [← hstart hp, ← hend hp]
  obtain ⟨hle, hge, hsame⟩ := Walk.stretches_partition previousCells_undoes.accepting nextCells_undoes.accepting
    (nextCells_stepsUp.accepting previousCells_undoes toLex.injective) keepsWord_class toLex.injective (hinside hp)
  refine ⟨hle, hge, fun q hq hfirst hlast => ?_⟩
  rw [← hstart hq, ← hend hq]
  exact hsame q (hinside hq) hfirst hlast

/-- The word `abc` over two soft wraps; the wide glyph `b` left a spacer behind `a`. -/
def wrappedWordView : TextView :=
  let cell character displayWidth := Cell.fromCharacter character displayWidth .default
  .fromGridWithoutScrollback ⟨[.fromCells [cell 'a' 1, cell ' ' 1] ⟨.softWide, false⟩,
    .fromCells [cell 'b' 2, cell ' ' 0] ⟨.soft, false⟩, .fromCells [cell 'c' 1, cell '(' 1] .default]⟩ 7

theorem getWordPositions_partition_wrapped :
    toLex (wrappedWordView.getWordStartPosition (8, 0)) ≤ toLex (8, 0) ∧
      toLex (8, 0) ≤ toLex (wrappedWordView.getWordEndPosition (8, 0)) ∧
      ∀ q, wrappedWordView.IsTextCell q → toLex (wrappedWordView.getWordStartPosition (8, 0)) ≤ toLex q →
        toLex q ≤ toLex (wrappedWordView.getWordEndPosition (8, 0)) →
          wrappedWordView.getWordStartPosition q = wrappedWordView.getWordStartPosition (8, 0) ∧
            wrappedWordView.getWordEndPosition q = wrappedWordView.getWordEndPosition (8, 0) :=
  getWordPositions_partition wrappedWordView (by decide)

end TextView

end Koshi.Terminal
