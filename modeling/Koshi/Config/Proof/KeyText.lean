import Mathlib.Data.List.TakeWhile
import Koshi.Config.KeyText

/-!
# The written form of a chord parses back

A canonical chord is read back from its own text, alone and in a sequence, unless its key is a capital that has
no small letter: `fold_uppercase_character` takes such a character for its own folded form and asks for a Shift
that no text can carry.
-/

variable (flags : BindingModifierFlags) {character : Char}

namespace Koshi.Core

/-- A capital and a small letter that map to one another: the capital folds. -/
def CaseTables.FoldsToPair (tables : CaseTables) (character : Char) : Prop :=
  tables.isUppercase character = true ∧ ∃ lowered, lowered ≠ character ∧
    tables.toLowercase character = [lowered] ∧ tables.toUppercase lowered = [character]

/-- A capital without case mappings, such as `ℂ`: both its cases are itself. -/
def CaseTables.IsUnpairedCapital (tables : CaseTables) (character : Char) : Prop :=
  tables.isUppercase character = true ∧ tables.toLowercase character = [character] ∧
    tables.toUppercase character = [character]

/-- The canonical form of a chord: a letter is the small letter with its case in Shift, no other character takes
Shift, no raw whitespace or control character is a key, and the function keys run from F1 to F24. -/
def KeyChord.IsCanonical (tables : CaseTables) (chord : KeyChord) : Prop :=
  match chord.key with
  | .char character =>
    isRaw character = false ∧ ¬tables.FoldsToPair character ∧
      (chord.modifierFlags.hasAllModifiers .shift = true → tables.isLowercase character = true)
  | .named (.f keyNumber) => 1 ≤ keyNumber ∧ keyNumber ≤ 24
  | .named _ => True

/-! ### Folding -/

/-- A capital folds to its small letter, is left alone, or has no case mapping and folds to itself. -/
theorem foldUppercaseCharacter_cases (tables : CaseTables) (character : Char) :
    (foldUppercaseCharacter tables character = (character, false) ∧ ¬tables.FoldsToPair character ∧
        ¬tables.IsUnpairedCapital character) ∨
      (∃ lowered, foldUppercaseCharacter tables character = (lowered, true) ∧ tables.FoldsToPair character ∧
        tables.isLowercase lowered = true ∧ ¬tables.IsUnpairedCapital character) ∨
      (foldUppercaseCharacter tables character = (character, true) ∧ tables.IsUnpairedCapital character) := by
  by_cases hupper : tables.isUppercase character = true
  · by_cases hpr : tables.FoldsToPair character
    · obtain ⟨_, lowered, hne, hlower, hback⟩ := hpr
      refine Or.inr (Or.inl ⟨lowered, ?_, ⟨hupper, lowered, hne, hlower, hback⟩,
        tables.lowercase_of_pair character lowered hupper hne hlower hback, fun hbare => ?_⟩)
      · simp [foldUppercaseCharacter, hupper, hlower, hback]
      · rw [hbare.2.1] at hlower
        exact hne (List.singleton_injective hlower).symm
    · by_cases hbare : tables.IsUnpairedCapital character
      · refine Or.inr (Or.inr ⟨?_, hbare⟩)
        simp [foldUppercaseCharacter, hupper, hbare.2.1, hbare.2.2]
      · refine Or.inl ⟨?_, hpr, hbare⟩
        unfold foldUppercaseCharacter
        rw [hupper]
        simp only [Bool.not_true, Bool.false_eq_true, if_false]
        split
        · rename_i lowered hlower
          split
          · rename_i rest hback
            rw [if_neg]
            rintro rfl
            by_cases hs : lowered = rest
            · subst hs
              exact hbare ⟨hupper, hlower, hback⟩
            · exact hpr ⟨hupper, lowered, hs, hlower, hback⟩
          · rfl
        · rfl
  · refine Or.inl ⟨?_, fun h => hupper h.1, fun h => hupper h.1⟩
    simp [foldUppercaseCharacter, hupper]

theorem CaseTables.not_foldsToPair_of_lowercase (tables : CaseTables) (h : tables.isLowercase character = true) :
    ¬tables.FoldsToPair character := by
  intro hpr
  have hnot := tables.uppercase_not_lowercase character hpr.1
  rw [h] at hnot
  exact Bool.noConfusion hnot

theorem BindingModifierFlags.hasAllModifiers_union_shift : (flags.union .shift).hasAllModifiers .shift = true := by
  obtain ⟨bits⟩ := flags
  revert bits
  decide

end Koshi.Core

namespace Koshi.Config

open Koshi.Core List

variable (tables : CaseTables)

variable {chord : KeyChord} {modifiers : BindingModifierFlags}

variable {keyToken : List Char}

theorem isCanonical_of_finishKeyCharacter {keyChar : Char}
    (h : finishKeyCharacter tables keyToken modifiers keyChar = .ok chord) : chord.IsCanonical tables := by
  by_cases hraw : (isWhitespace keyChar || isControl keyChar) = true
  · rw [finishKeyCharacter, if_pos hraw] at h
    exact absurd h (by simp)
  rw [finishKeyCharacter, if_neg hraw] at h
  rcases foldUppercaseCharacter_cases tables keyChar with ⟨hfold, hpr, _⟩ | ⟨lowered, hfold, _, hlower, _⟩ |
    ⟨hfold, hbare⟩
  · rw [hfold] at h
    simp only [Bool.false_eq_true, if_false] at h
    split_ifs at h with hshift
    obtain rfl := Except.ok.inj h
    refine ⟨Bool.eq_false_of_not_eq_true hraw, hpr, fun hh => ?_⟩
    have hh : modifiers.hasAllModifiers .shift = true := hh
    simpa [hh] using hshift
  · rw [hfold] at h
    simp only [if_true, hlower, Bool.not_true, Bool.and_false, Bool.false_eq_true, if_false] at h
    obtain rfl := Except.ok.inj h
    exact ⟨tables.lowercase_not_raw lowered hlower, tables.not_foldsToPair_of_lowercase hlower, fun _ => hlower⟩
  · -- the Shift a capital without case mappings asks for is refused
    have hlower := tables.uppercase_not_lowercase keyChar hbare.1
    rw [hfold] at h
    simp [BindingModifierFlags.hasAllModifiers_union_shift, hlower] at h

/-- A canonical key character parses to itself, unless it is a capital without case mappings. -/
theorem finishKeyCharacter_eq_ok_iff {keyChar : Char}
    (hcanonical : KeyChord.IsCanonical tables ⟨modifiers, .char keyChar⟩) :
    finishKeyCharacter tables keyToken modifiers keyChar = .ok ⟨modifiers, .char keyChar⟩ ↔
      ¬tables.IsUnpairedCapital keyChar := by
  obtain ⟨hraw, hpr, hshift⟩ := hcanonical
  have hraw : (isWhitespace keyChar || isControl keyChar) = false := hraw
  unfold finishKeyCharacter
  rw [hraw]
  rcases foldUppercaseCharacter_cases tables keyChar with ⟨hfold, _, hbare⟩ | ⟨lowered, _, hfolds, _⟩ |
    ⟨hfold, hbare⟩
  · rw [hfold]
    have hlower : (modifiers.hasAllModifiers .shift && !tables.isLowercase keyChar) = false := by
      cases hh : modifiers.hasAllModifiers .shift with
      | false => rfl
      | true => simp [hshift hh]
    simp [hlower, hbare]
  · exact absurd hfolds hpr
  · rw [hfold]
    have hlower := tables.uppercase_not_lowercase keyChar hbare.1
    simp [BindingModifierFlags.hasAllModifiers_union_shift, hlower, hbare]

/-! ### The text of one chord -/

/-- The text does not open with a modifier pair. -/
def EndsModifierRun (keyText : List Char) : Prop := ∀ modifier rest, keyText ≠ modifier :: '-' :: rest

theorem splitModifierFlags_of_ends {keyToken keyText : List Char} (h : EndsModifierRun keyText)
    (modifiers : BindingModifierFlags) :
    splitModifierFlags keyToken modifiers keyText = .ok (modifiers, keyText) := by
  unfold splitModifierFlags
  split
  · exact absurd rfl (h _ _)
  · rfl

theorem modifierBits_cases (bits : BitVec 4) :
    bits = 0 ∨ bits = 1 ∨ bits = 2 ∨ bits = 3 ∨ bits = 4 ∨ bits = 5 ∨ bits = 6 ∨ bits = 7 ∨ bits = 8 ∨ bits = 9 ∨
      bits = 10 ∨ bits = 11 ∨ bits = 12 ∨ bits = 13 ∨ bits = 14 ∨ bits = 15 := by
  revert bits
  decide

theorem splitModifierFlags_display {keyToken keyText : List Char} (h : EndsModifierRun keyText)
    (modifiers : BindingModifierFlags) :
    splitModifierFlags keyToken .none (modifiers.display ++ keyText) = .ok (modifiers, keyText) := by
  obtain ⟨bits⟩ := modifiers
  rcases modifierBits_cases bits with rfl | rfl | rfl | rfl | rfl | rfl | rfl | rfl | rfl | rfl | rfl | rfl |
      rfl | rfl |
    rfl | rfl <;> exact splitModifierFlags_of_ends h _

theorem display_append_ne_leaderWord {keyText : List Char} (h : toAsciiLowercase keyText ≠ leaderWord)
    (modifiers : BindingModifierFlags) :
    toAsciiLowercase (modifiers.display ++ keyText) ≠ leaderWord := by
  obtain ⟨bits⟩ := modifiers
  rcases modifierBits_cases bits with rfl | rfl | rfl | rfl | rfl | rfl | rfl | rfl | rfl | rfl | rfl | rfl |
      rfl | rfl |
    rfl | rfl
  · exact h
  all_goals exact fun hleader => absurd (head_eq_of_cons_eq hleader) (by decide)

theorem stripClosingBracket_append (text : List Char) : stripClosingBracket (text ++ ['>']) = some text := by
  simp [stripClosingBracket]

theorem parseChord_bracketed {keyText : List Char} (hends : EndsModifierRun keyText)
    (hleader : toAsciiLowercase keyText ≠ leaderWord) (modifiers : BindingModifierFlags) :
    parseChord tables ('<' :: (modifiers.display ++ keyText ++ ['>'])) =
      finishKeyText tables ('<' :: (modifiers.display ++ keyText ++ ['>'])) modifiers keyText := by
  rw [parseChord, stripClosingBracket_append]
  dsimp only
  by_cases hem : modifiers.display ++ keyText = []
  · rw [if_pos hem, (append_eq_nil_iff.1 hem).2]
    rfl
  · rw [if_neg hem, if_neg (display_append_ne_leaderWord hleader modifiers), splitModifierFlags_display hends]

theorem endsModifierRun_singleton (character : Char) : EndsModifierRun [character] :=
  fun _ _ h => absurd (congrArg length h) (by simp)

theorem toAsciiLowercase_singleton_ne (character : Char) : toAsciiLowercase [character] ≠ leaderWord :=
  fun h => absurd (congrArg length h) (by simp [toAsciiLowercase, leaderWord])

theorem not_isBracketed (h : ¬chord.isBracketed = true) :
    ∃ character, chord = ⟨.none, .char character⟩ ∧ character ≠ '<' := by
  obtain ⟨⟨bits⟩, key⟩ := chord
  cases key with
  | named namedKey => simp [KeyChord.isBracketed] at h
  | char character =>
    simp only [KeyChord.isBracketed, BindingModifierFlags.isEmpty, Bool.or_eq_true, not_or] at h
    obtain rfl : bits = 0 := by simpa using h.1
    exact ⟨character, rfl, by simpa using h.2⟩

theorem parseChord_bare (h : character ≠ '<') :
    parseChord tables [character] = finishKeyCharacter tables [character] .none character := by
  unfold parseChord
  split
  · rename_i heq
    exact absurd heq (cons_ne_nil _ _)
  · rename_i heq
    exact absurd (head_eq_of_cons_eq heq) h
  · rename_i heq
    rw [head_eq_of_cons_eq heq]
  · rename_i ho
    exact absurd rfl (ho character)

theorem parseChord_display_char (modifiers : BindingModifierFlags) (character : Char) :
    parseChord tables (KeyChord.display ⟨modifiers, .char character⟩) =
      finishKeyCharacter tables (KeyChord.display ⟨modifiers, .char character⟩) modifiers character := by
  by_cases hparen : KeyChord.isBracketed ⟨modifiers, .char character⟩ = true
  · rw [KeyChord.display, if_pos hparen]
    exact parseChord_bracketed tables (endsModifierRun_singleton character) (toAsciiLowercase_singleton_ne character)
      modifiers
  · obtain ⟨bare, heq, hbare⟩ := not_isBracketed hparen
    obtain ⟨rfl, hkey⟩ := KeyChord.mk.inj heq
    obtain rfl := Key.char.inj hkey
    rw [KeyChord.display, if_neg hparen]
    exact parseChord_bare tables hbare

/-! ### Named keys -/

def HasSpelling : NamedKey → Prop
  | .f keyNumber => 1 ≤ keyNumber ∧ keyNumber ≤ 24
  | _ => True

theorem isCanonical_named_iff (namedKey : NamedKey) (modifiers : BindingModifierFlags) :
    KeyChord.IsCanonical tables ⟨modifiers, .named namedKey⟩ ↔ HasSpelling namedKey := by
  cases namedKey <;> exact Iff.rfl

theorem functionKey_digits : ∀ number : Fin 25, 1 ≤ number.val →
    ((Nat.toDigits 10 number.val).head?.any (· ≠ '-') = true) ∧
      toAsciiLowercase ('F' :: Nat.toDigits 10 number.val) ≠ leaderWord ∧ '>' ∉ 'F' :: Nat.toDigits 10 number.val ∧
      ('F' :: Nat.toDigits 10 number.val).all (!isWhitespace ·) = true ∧
      functionKeyNumberText ('F' :: Nat.toDigits 10 number.val) = some (Nat.toDigits 10 number.val) ∧
      ((parseByte (Nat.toDigits 10 number.val)).filter fun parsed => 1 ≤ parsed ∧ parsed ≤ 24) =
        some (UInt8.ofNat number.val) := by
  decide +kernel

variable {namedKey : NamedKey}

/-- The spellings of the keys: two characters at least, the second no dash, read back by name. -/
theorem namedKey_display (h : HasSpelling namedKey) :
    (∃ first second rest, namedKey.display = first :: second :: rest ∧ second ≠ '-') ∧
      toAsciiLowercase namedKey.display ≠ leaderWord ∧ '>' ∉ namedKey.display ∧
      namedKey.display.all (!isWhitespace ·) = true ∧
      ∀ keyToken, resolveNamedKey keyToken namedKey.display = .ok namedKey := by
  cases namedKey with
  | f keyNumber =>
    obtain ⟨hlow, hhigh⟩ := h
    have hlow : 1 ≤ keyNumber.toNat := hlow
    have hhigh : keyNumber.toNat ≤ 24 := hhigh
    obtain ⟨hse, hleader, hbracket, hblk, htext, hparsed⟩ :=
      functionKey_digits ⟨keyNumber.toNat, by omega⟩ hlow
    rw [UInt8.ofNat_toNat] at hparsed
    refine ⟨?_, hleader, hbracket, hblk, fun keyToken => ?_⟩
    · cases hdigits : Nat.toDigits 10 keyNumber.toNat with
      | nil =>
        rw [hdigits] at hse
        exact absurd hse (by decide)
      | cons digit rest =>
        rw [hdigits] at hse
        exact ⟨'F', digit, rest, by rw [NamedKey.display, hdigits], by simpa using hse⟩
    · rw [NamedKey.display, resolveNamedKey, htext]
      dsimp only
      rw [hparsed]
  | _ => refine ⟨⟨_, _, _, rfl, by decide⟩, by decide, by decide, by decide, fun keyToken => rfl⟩

theorem parseChord_display_named (h : HasSpelling namedKey) (modifiers : BindingModifierFlags) :
    parseChord tables (KeyChord.display ⟨modifiers, .named namedKey⟩) = .ok ⟨modifiers, .named namedKey⟩ := by
  obtain ⟨⟨first, second, rest, hdisplay, hdash⟩, hleader, _, _, hresolve⟩ := namedKey_display h
  have hparen : KeyChord.isBracketed ⟨modifiers, .named namedKey⟩ = true := by simp [KeyChord.isBracketed]
  have hends : EndsModifierRun namedKey.display := by
    intro modifier tail heq
    rw [hdisplay] at heq
    simp only [cons.injEq] at heq
    exact hdash heq.2.1
  rw [KeyChord.display, if_pos hparen]
  refine (parseChord_bracketed tables hends hleader modifiers).trans ?_
  have hresolved := hresolve ('<' :: (modifiers.display ++ namedKey.display ++ ['>']))
  simp only [hdisplay] at hresolved ⊢
  simp only [finishKeyText, hresolved]

/-- The chord's key is no capital without case mappings. -/
def IsWritable (tables : CaseTables) (chord : KeyChord) : Prop :=
  ∀ character, chord.key = .char character → ¬tables.IsUnpairedCapital character

/-- **The text of a canonical chord parses back**, exactly when its key is not a capital without case mappings. -/
theorem parseChord_display_iff (h : chord.IsCanonical tables) :
    parseChord tables chord.display = .ok chord ↔ IsWritable tables chord := by
  obtain ⟨modifiers, key⟩ := chord
  cases key with
  | char character =>
    rw [parseChord_display_char, finishKeyCharacter_eq_ok_iff tables h]
    constructor
    · intro hbare other ho
      obtain rfl := Key.char.inj ho
      exact hbare
    · exact fun hall => hall character rfl
  | named namedKey =>
    have hspelling := (isCanonical_named_iff tables namedKey modifiers).1 h
    exact iff_of_true (parseChord_display_named tables hspelling modifiers) fun _ ho => Key.noConfusion ho

theorem hasSpelling_of_resolveNamedKey {keyToken keyName : List Char}
    (h : resolveNamedKey keyToken keyName = .ok namedKey) : HasSpelling namedKey := by
  unfold resolveNamedKey at h
  split at h
  · split at h
    · rename_i number hnum
      obtain rfl := Except.ok.inj h
      have hrng : 1 ≤ number ∧ number ≤ 24 := of_decide_eq_true (Option.filter_eq_some_iff.1 hnum).2
      exact hrng
    · exact absurd h (by simp)
  · split at h
    · rename_i found hfo
      obtain rfl := Except.ok.inj h
      obtain ⟨before, after, hsp, _⟩ := lookup_eq_some_iff.1 hfo
      have hall : ∀ entry ∈ namedKeyByName, HasSpelling entry.2 := by simp [namedKeyByName, HasSpelling]
      exact hall (_, found) (hsp ▸ mem_append_right _ mem_cons_self)
    · exact absurd h (by simp)

theorem isCanonical_of_finishKeyText {text keyText : List Char}
    (h : finishKeyText tables text modifiers keyText = .ok chord) :
    chord.IsCanonical tables := by
  unfold finishKeyText at h
  split at h
  · exact absurd h (by simp)
  · exact isCanonical_of_finishKeyCharacter tables h
  · split at h
    · exact absurd h (by simp)
    · rename_i namedKey hnamed
      obtain rfl := Except.ok.inj h
      exact (isCanonical_named_iff tables namedKey modifiers).2 (hasSpelling_of_resolveNamedKey hnamed)

/-- **What the chord parser accepts is canonical.** -/
theorem isCanonical_of_parseChord {text : List Char} (h : parseChord tables text = .ok chord) :
    chord.IsCanonical tables := by
  unfold parseChord at h
  split at h
  · exact absurd h (by simp)
  · split at h
    · exact absurd h (by simp)
    · split_ifs at h
      split at h
      · exact absurd h (by simp)
      · exact isCanonical_of_finishKeyText tables h
  · exact isCanonical_of_finishKeyCharacter tables h
  · exact absurd h (by simp)

/-! ### Key events -/

/-- The key a chord is built from: the shifted character where it stands for the key, else the key reported. -/
def bindingKey (keyInput : KeyInput) : Option Key :=
  match keyInput.key with
  | .key key =>
    match keyInput.modifierFlags.toBindingModifiers.hasAllModifiers .shift, key, keyInput.shiftedKey with
    | true, .char keyCharacter, some shifted =>
      some (if shifted ≠ keyCharacter then .char shifted else key)
    | _, _, _ => some key
  | _ => none

/-- The key has a canonical chord: a character other than a space is not raw and not a capital without case
mappings, a function key is one of F1 to F24. -/
def HasCanonicalChord : Key → Prop
  | .char character =>
    character = ' ' ∨ (isRaw character = false ∧ ¬tables.IsUnpairedCapital character)
  | .named namedKey => HasSpelling namedKey

theorem isCanonical_buildCanonicalChord_iff (reportedKey : Key) (hflags : modifiers.hasAllModifiers .shift = false)
    (isShift : Bool) :
    (buildCanonicalChord tables reportedKey modifiers isShift).IsCanonical tables ↔
      HasCanonicalChord tables reportedKey := by
  cases reportedKey with
  | named namedKey => exact isCanonical_named_iff tables namedKey _
  | char character =>
    unfold buildCanonicalChord HasCanonicalChord
    by_cases hspace : character = ' '
    · simp only [hspace, if_true, true_or, iff_true]
      exact trivial
    · simp only [hspace, if_false, false_or]
      rcases foldUppercaseCharacter_cases tables character with ⟨hfold, hpr, hbare⟩ |
        ⟨lowered, hfold, hpr, hlower, hbare⟩ | ⟨hfold, hbare⟩
      · rw [hfold]
        refine ⟨fun h => ⟨h.1, hbare⟩, fun h => ⟨h.1, hpr, fun hshift => ?_⟩⟩
        by_contra hlower
        simp [hlower, hflags] at hshift
      · rw [hfold]
        have hraw := tables.uppercase_not_raw character hpr.1
        exact iff_of_true ⟨tables.lowercase_not_raw lowered hlower, tables.not_foldsToPair_of_lowercase hlower,
          fun _ => hlower⟩ ⟨hraw, hbare⟩
      · rw [hfold]
        refine iff_of_false (fun h => ?_) fun h => h.2 hbare
        have hlower := h.2.2 (modifiers.hasAllModifiers_union_shift)
        rw [tables.uppercase_not_lowercase character hbare.1] at hlower
        exact Bool.noConfusion hlower

theorem hasAllModifiers_withoutShift : flags.withoutShift.hasAllModifiers .shift = false := by
  obtain ⟨bits⟩ := flags
  revert bits
  decide

theorem toBindingChord_eq_some {keyInput : KeyInput} (h : keyInput.toBindingChord tables = some chord) :
    ∃ key isShift, bindingKey keyInput = some key ∧
      chord = buildCanonicalChord tables key keyInput.modifierFlags.toBindingModifiers.withoutShift isShift := by
  unfold KeyInput.toBindingChord at h
  unfold bindingKey
  split_ifs at h
  cases hkey : keyInput.key with
  | codepoint codepoint =>
    rw [hkey] at h
    exact absurd h (by simp)
  | unnamed =>
    rw [hkey] at h
    exact absurd h (by simp)
  | key key =>
    rw [hkey] at h
    dsimp only at h ⊢
    cases hshift : keyInput.modifierFlags.toBindingModifiers.hasAllModifiers .shift with
    | false =>
      rw [hshift] at h
      exact ⟨key, false, rfl, (Option.some.inj h).symm⟩
    | true =>
      rw [hshift] at h
      cases key with
      | named namedKey => exact ⟨_, true, rfl, (Option.some.inj h).symm⟩
      | char keyChar =>
        cases hshifted : keyInput.shiftedKey with
        | none =>
          rw [hshifted] at h
          exact ⟨_, true, rfl, (Option.some.inj h).symm⟩
        | some shifted =>
          rw [hshifted] at h
          dsimp only at h
          split_ifs at h with hdiffers
          · exact ⟨_, false, congrArg some (if_pos hdiffers), (Option.some.inj h).symm⟩
          · exact ⟨_, true, congrArg some (if_neg hdiffers), (Option.some.inj h).symm⟩

/-- **The chord of a key event is canonical** exactly when the key it is built from has a canonical chord. -/
theorem isCanonical_toBindingChord_iff {keyInput : KeyInput} (h : keyInput.toBindingChord tables = some chord) :
    chord.IsCanonical tables ↔ ∃ key, bindingKey keyInput = some key ∧ HasCanonicalChord tables key := by
  obtain ⟨key, isShift, hkey, rfl⟩ := toBindingChord_eq_some tables h
  rw [isCanonical_buildCanonicalChord_iff tables key (hasAllModifiers_withoutShift _)]
  simp [hkey]

/-! ### The text of a sequence -/

/-- The text between the brackets of a chord. -/
def innerText (chord : KeyChord) : List Char := chord.modifierFlags.display ++ chord.key.display

theorem display_of_isBracketed (h : chord.isBracketed = true) : chord.display = '<' :: (innerText chord ++ ['>']) := by
  rw [KeyChord.display, if_pos h, innerText]

theorem display_modifiers : '>' ∉ flags.display ∧ flags.display.all (!isWhitespace ·) = true := by
  obtain ⟨bits⟩ := flags
  rcases modifierBits_cases bits with rfl | rfl | rfl | rfl | rfl | rfl | rfl | rfl | rfl | rfl | rfl | rfl |
      rfl | rfl |
    rfl | rfl <;> decide

variable {tables}

theorem isWhitespace_of_mem_display (h : chord.IsCanonical tables) (hm : character ∈ chord.display) :
    isWhitespace character = false := by
  obtain ⟨modifiers, key⟩ := chord
  have hflags : ∀ other ∈ modifiers.display, isWhitespace other = false := by
    simpa using (display_modifiers modifiers).2
  have hkey : ∀ other ∈ key.display, isWhitespace other = false := by
    cases key with
    | char keyChar =>
      intro other ho
      obtain rfl := mem_singleton.1 ho
      exact (Bool.or_eq_false_iff.1 h.1).1
    | named namedKey =>
      have hblk := (namedKey_display ((isCanonical_named_iff tables namedKey modifiers).1 h)).2.2.2.1
      rw [Key.display]
      simpa using hblk
  unfold KeyChord.display at hm
  split_ifs at hm
  · simp only [mem_cons, mem_append, not_mem_nil, or_false] at hm
    rcases hm with rfl | (hm | hm) | rfl
    · decide
    · exact hflags character hm
    · exact hkey character hm
    · decide
  · exact hkey character hm

theorem innerText_ne_leaderWord (h : chord.IsCanonical tables) : toAsciiLowercase (innerText chord) ≠ leaderWord := by
  obtain ⟨modifiers, key⟩ := chord
  refine display_append_ne_leaderWord ?_ modifiers
  cases key with
  | char keyChar => exact toAsciiLowercase_singleton_ne keyChar
  | named namedKey => exact (namedKey_display ((isCanonical_named_iff tables namedKey modifiers).1 h)).2.1

theorem eq_of_closing_mem_innerText (h : chord.IsCanonical tables) (hm : '>' ∈ innerText chord) :
    chord.key = .char '>' := by
  obtain ⟨modifiers, key⟩ := chord
  rcases mem_append.1 hm with hm | hm
  · exact absurd hm (display_modifiers modifiers).1
  · cases key with
    | char keyChar => rw [mem_singleton.1 hm]
    | named namedKey =>
      exact absurd hm (namedKey_display ((isCanonical_named_iff tables namedKey modifiers).1 h)).2.2.1

/-! #### One token -/

variable {inner : List Char}

theorem splitKeyToken_bracketed (h : '>' ∉ inner) (after : List Char) :
    splitKeyToken '<' (inner ++ '>' :: after) = .ok ('<' :: (inner ++ ['>']), after) := by
  have hinn : ∀ character ∈ inner, decide (character ≠ '>') = true := by
    intro character hm
    exact decide_eq_true fun heq => h (heq ▸ hm)
  unfold splitKeyToken
  rw [if_pos rfl, dropWhile_append_of_pos hinn, takeWhile_append_of_pos hinn]
  simp

theorem parseToken_of_separated {keyToken after : List Char} (h : after.head? ≠ some '>') :
    parseToken tables keyToken after = (parseChord tables keyToken).map fun keyChord => (keyChord, keyToken,
      after) := by
  unfold parseToken
  cases parseChord tables keyToken with
  | ok keyChord => rfl
  | error failure =>
    dsimp only
    split
    · exact absurd rfl h
    · rfl

theorem parseToken_closing (h : modifiers.display ≠ []) (htok : keyToken = '<' :: (modifiers.display ++ ['>']))
    (after : List Char) :
    parseToken tables keyToken ('>' :: after) =
      (parseChord tables (keyToken ++ ['>'])).map fun keyChord => (keyChord, keyToken ++ ['>'], after) := by
  have hmissing : parseChord tables keyToken = .error ⟨keyToken, .missingKey⟩ := by
    have hends : EndsModifierRun [] := fun _ _ heq => absurd heq.symm (cons_ne_nil _ _)
    have hparse := parseChord_bracketed tables hends (by decide) modifiers
    rw [append_nil, finishKeyText, ← htok] at hparse
    exact hparse
  have hbare : keyToken ≠ ['<', '>'] := by
    rw [htok]
    simpa using h
  unfold parseToken
  rw [hmissing]
  simp only [ne_eq, hbare, not_false_iff, and_self, if_true]
  cases parseChord tables (keyToken ++ ['>']) <;> rfl

theorem isLeaderToken_bracketed (h : toAsciiLowercase inner ≠ leaderWord) :
    isLeaderToken ('<' :: (inner ++ ['>'])) = false := by
  simp [isLeaderToken, stripClosingBracket_append, h]

/-- What one token leaves: the chord as it is read back, and the text after it. -/
def tokenRead (chords : List KeyChord) (after : List Char) (parsed : Except KeyParseError KeyChord) :
    Except KeyParseError (TokenLoop × List Char) :=
  parsed.map fun keyChord => (⟨chords ++ [keyChord], .none, false⟩, after)

theorem readToken_of_parseToken {firstChar : Char} {rest keyToken remaining readText after : List Char}
    (leader : Leader) (chords : List KeyChord) (isFirst : Bool)
    (hsp : splitKeyToken firstChar rest = .ok (keyToken, remaining)) (hleader : isLeaderToken keyToken = false)
    (hparse : parseToken tables keyToken remaining =
      (parseChord tables readText).map fun keyChord => (keyChord, readText, after)) :
    readToken tables leader ⟨chords, .none, isFirst⟩ firstChar rest =
      tokenRead chords after (parseChord tables readText) := by
  simp only [readToken, hsp, hleader, hparse, bind, Except.bind, Bool.false_eq_true, if_false]
  cases parseChord tables readText <;> rfl

theorem display_ne_nil_of_isBracketed (h : KeyChord.isBracketed ⟨modifiers, .char '>'⟩ = true) :
    modifiers.display ≠ [] := by
  obtain ⟨bits⟩ := modifiers
  revert bits
  decide

theorem readToken_display (h : chord.IsCanonical tables) (leader : Leader) (chords : List KeyChord) (isFirst : Bool)
    {after : List Char} (haf : after.head? ≠ some '>') :
    ∃ firstCharacter rest, chord.display = firstCharacter :: rest ∧
      readToken tables leader ⟨chords, .none, isFirst⟩ firstCharacter (rest ++ after) =
        tokenRead chords after (parseChord tables chord.display) := by
  by_cases hparen : chord.isBracketed = true
  · have hdisplay := display_of_isBracketed hparen
    refine ⟨'<', innerText chord ++ ['>'], hdisplay, ?_⟩
    rw [append_assoc, singleton_append]
    by_cases hcl : '>' ∈ innerText chord
    · -- the key is `>` itself: the token ends at it, and is extended through the next one
      obtain ⟨modifiers, key⟩ := chord
      obtain rfl : key = .char '>' := eq_of_closing_mem_innerText h hcl
      have hflags := display_ne_nil_of_isBracketed hparen
      have hinn : innerText ⟨modifiers, .char '>'⟩ = modifiers.display ++ ['>'] := rfl
      have hleader : toAsciiLowercase (modifiers.display ++ []) ≠ leaderWord :=
        display_append_ne_leaderWord (by decide) modifiers
      rw [append_nil] at hleader
      rw [hdisplay, hinn, append_assoc, singleton_append]
      exact readToken_of_parseToken leader chords isFirst
        (splitKeyToken_bracketed (display_modifiers modifiers).1 _) (isLeaderToken_bracketed hleader)
        (parseToken_closing hflags rfl after)
    · refine readToken_of_parseToken leader chords isFirst (splitKeyToken_bracketed hcl after)
        (isLeaderToken_bracketed (innerText_ne_leaderWord h)) ?_
      rw [hdisplay]
      exact parseToken_of_separated haf
  · obtain ⟨character, rfl, hbare⟩ := not_isBracketed hparen
    have hdisplay : KeyChord.display ⟨.none, .char character⟩ = [character] := by
      rw [KeyChord.display, if_neg hparen]
      rfl
    refine ⟨character, [], hdisplay, ?_⟩
    rw [hdisplay]
    refine readToken_of_parseToken leader chords isFirst (if_neg hbare) ?_ (parseToken_of_separated haf)
    unfold isLeaderToken
    split
    · rename_i heq
      exact absurd (head_eq_of_cons_eq heq) hbare
    · rfl

/-! #### The token loop -/

def chordsText (chords : List KeyChord) : List Char := [' '].intercalate (chords.map KeyChord.display)

/-- The text after the first chord: nothing, or a space and the other chords. -/
def remainingText : List KeyChord → List Char
  | [] => []
  | chords => ' ' :: chordsText chords

theorem chordsText_cons (chord : KeyChord) (chords : List KeyChord) :
    chordsText (chord :: chords) = chord.display ++ remainingText chords := by
  cases chords with
  | nil => simp [chordsText, remainingText, intercalate]
  | cons next rest => simp [chordsText, remainingText, intercalate]

theorem head?_remainingText_ne (chords : List KeyChord) : (remainingText chords).head? ≠ some '>' := by
  cases chords with
  | nil => exact nofun
  | cons next rest => simp [remainingText]

theorem display_ne_nil (chord : KeyChord) : chord.display ≠ [] := by
  by_cases hparen : chord.isBracketed = true
  · rw [display_of_isBracketed hparen]
    exact cons_ne_nil _ _
  · obtain ⟨character, rfl, _⟩ := not_isBracketed hparen
    rw [KeyChord.display, if_neg hparen]
    exact cons_ne_nil _ _

theorem trimStart_display_append (h : chord.IsCanonical tables) (after : List Char) :
    trimStart (chord.display ++ after) = chord.display ++ after := by
  obtain ⟨firstChar, rest, hdisplay⟩ := exists_cons_of_ne_nil (display_ne_nil chord)
  have hf := isWhitespace_of_mem_display h (hdisplay ▸ mem_cons_self : firstChar ∈ chord.display)
  rw [hdisplay, trimStart, cons_append, dropWhile_cons_of_neg (by simp [hf])]

variable {chords : List KeyChord}

theorem trimStart_chordsText (h : ∀ chord ∈ chords, chord.IsCanonical tables) :
    trimStart (chordsText chords) = chordsText chords := by
  cases chords with
  | nil => rfl
  | cons chord rest =>
    rw [chordsText_cons]
    exact trimStart_display_append (h chord mem_cons_self) _

theorem trimStart_remainingText (h : ∀ chord ∈ chords, chord.IsCanonical tables) :
    trimStart (remainingText chords) = chordsText chords := by
  cases chords with
  | nil => rfl
  | cons chord rest =>
    have htrim := trimStart_chordsText h
    rw [remainingText, trimStart, dropWhile_cons_of_pos (by decide)]
    · exact htrim
    · exact cons_ne_nil _ _

theorem readTokens_chordsText_cons (h : ∀ other ∈ chord :: chords, other.IsCanonical tables) (leader : Leader)
    (taken : List KeyChord) (isFirst : Bool) :
    readTokens tables leader ⟨taken, .none, isFirst⟩ (chordsText (chord :: chords)) =
      (parseChord tables chord.display).bind fun keyChord =>
        readTokens tables leader ⟨taken ++ [keyChord], .none, false⟩ (chordsText chords) := by
  obtain ⟨firstChar, rest, hdisplay, hrd⟩ :=
    readToken_display (h chord mem_cons_self) leader taken isFirst (head?_remainingText_ne chords)
  have htrim := trimStart_remainingText fun other ho => h other (mem_cons_of_mem chord ho)
  rw [chordsText_cons, hdisplay, cons_append, readTokens]
  rw [hdisplay] at hrd
  split
  · rename_i failure herr
    rw [hrd] at herr
    cases hparse : parseChord tables (firstChar :: rest) with
    | error other =>
      rw [hparse] at herr
      rw [Except.error.inj herr]
      rfl
    | ok keyChord =>
      rw [hparse] at herr
      exact absurd herr (by simp [tokenRead, Except.map])
  · rename_i next after hok
    rw [hrd] at hok
    cases hparse : parseChord tables (firstChar :: rest) with
    | error other =>
      rw [hparse] at hok
      exact absurd hok (by simp [tokenRead, Except.map])
    | ok keyChord =>
      rw [hparse] at hok
      obtain ⟨rfl, rfl⟩ := Prod.mk.inj (Except.ok.inj hok)
      rw [htrim]
      rfl

/-! #### The words -/

theorem splitOnP_of_forall {word : List Char} (h : ∀ character ∈ word, isWhitespace character = false) :
    word.splitOnP isWhitespace = [word] := by
  apply splitOnP_eq_singleton
  simpa using h

theorem splitWhitespace_chordsText (h : ∀ chord ∈ chords, chord.IsCanonical tables) :
    splitWhitespace (chordsText chords) = chords.map KeyChord.display := by
  induction chords with
  | nil => rfl
  | cons chord rest ih =>
    have hblk : ∀ character ∈ chord.display, isWhitespace character = false := fun character hm =>
      isWhitespace_of_mem_display (h chord mem_cons_self) hm
    have hne := display_ne_nil chord
    rw [chordsText_cons]
    cases rest with
    | nil => simp [remainingText, splitWhitespace, splitOnP_of_forall hblk, hne]
    | cons next others =>
      have ih := ih fun other ho => h other (mem_cons_of_mem chord ho)
      rw [map_cons, ← ih, remainingText, splitWhitespace,
        splitOnP_append_cons_of_forall_mem (by simpa using hblk) ' ' (by decide)]
      · simp [splitWhitespace, hne]
      · exact cons_ne_nil _ _

theorem isDashForm_of_not_mem {word : List Char} (hopening : '<' ∉ word)
    (hdash : hasDashBetweenAlphanumerics tables word = false) : isDashForm tables word = false := by
  have hword : ∀ character ∈ word, decide (character ≠ '<') = true := by
    intro character hm
    exact decide_eq_true fun heq => hopening (heq ▸ hm)
  unfold isDashForm
  rw [takeWhile_eq_self_iff.2 hword]
  simp only [hdash, Bool.false_eq_true, if_false]
  split
  · rfl
  · rename_i hop
    rw [dropWhile_eq_nil_iff.2 hword] at hop
    exact absurd hop.symm (cons_ne_nil _ _)

theorem isDashForm_bracketed (h : '>' ∉ inner) (after : List Char) :
    isDashForm tables ('<' :: (inner ++ '>' :: after)) = isDashForm tables after := by
  have hinn : ∀ character ∈ inner, decide (character ≠ '>') = true := by
    intro character hm
    exact decide_eq_true fun heq => h (heq ▸ hm)
  have hcl : (inner ++ '>' :: after).dropWhile (fun character => decide (character ≠ '>')) = '>' :: after := by
    rw [dropWhile_append_of_pos hinn, dropWhile_cons_of_neg (by decide)]
  rw [isDashForm, takeWhile_cons_of_neg (by decide)]
  simp only [hasDashBetweenAlphanumerics, Bool.false_eq_true, if_false]
  split
  · rename_i hop
    rw [dropWhile_cons_of_neg (by decide)] at hop
    exact absurd hop (cons_ne_nil _ _)
  · rename_i first bracketed hop
    rw [dropWhile_cons_of_neg (by decide)] at hop
    obtain rfl := tail_eq_of_cons_eq hop
    split
    · rename_i hclose
      rw [hcl] at hclose
      exact absurd hclose (cons_ne_nil _ _)
    · rename_i closing rest hclose
      rw [hcl] at hclose
      rw [tail_eq_of_cons_eq hclose]

theorem isDashForm_display (h : chord.IsCanonical tables) : isDashForm tables chord.display = false := by
  by_cases hparen : chord.isBracketed = true
  · rw [display_of_isBracketed hparen]
    by_cases hcl : '>' ∈ innerText chord
    · obtain ⟨modifiers, key⟩ := chord
      obtain rfl : key = .char '>' := eq_of_closing_mem_innerText h hcl
      have hinn : innerText ⟨modifiers, .char '>'⟩ = modifiers.display ++ ['>'] := rfl
      rw [hinn, append_assoc, singleton_append, isDashForm_bracketed (display_modifiers modifiers).1]
      exact isDashForm_of_not_mem (by decide) rfl
    · rw [isDashForm_bracketed hcl]
      exact isDashForm_of_not_mem (by decide) rfl
  · obtain ⟨character, rfl, hbare⟩ := not_isBracketed hparen
    have hdisplay : KeyChord.display ⟨.none, .char character⟩ = [character] := by
      rw [KeyChord.display, if_neg hparen]
      rfl
    rw [hdisplay]
    exact isDashForm_of_not_mem (by simpa using hbare.symm) rfl

/-! #### The sequence -/

theorem parseChord_display_error (h : chord.IsCanonical tables) (hwritable : ¬IsWritable tables chord) :
    ∃ failure, parseChord tables chord.display = .error failure := by
  obtain ⟨modifiers, key⟩ := chord
  simp only [IsWritable, not_forall, not_not] at hwritable
  obtain ⟨character, hkey, hbare⟩ := hwritable
  obtain rfl : key = .char character := hkey
  rw [parseChord_display_char]
  cases hfinish : finishKeyCharacter tables (KeyChord.display ⟨modifiers, .char character⟩) modifiers character with
  | error failure => exact ⟨failure, rfl⟩
  | ok parsed =>
    have hraw : (isWhitespace character || isControl character) = false := h.1
    have hlower := tables.uppercase_not_lowercase character hbare.1
    have hfold : foldUppercaseCharacter tables character = (character, true) := by
      simp [foldUppercaseCharacter, hbare.1, hbare.2.1, hbare.2.2]
    unfold finishKeyCharacter at hfinish
    rw [hraw, hfold] at hfinish
    simp [BindingModifierFlags.hasAllModifiers_union_shift, hlower] at hfinish

theorem readTokens_nil (leader : Leader) (st : TokenLoop) : readTokens tables leader st [] = .ok st := by
  rw [readTokens]

theorem readTokens_chordsText (h : ∀ chord ∈ chords, chord.IsCanonical tables)
    (hwritable : ∀ chord ∈ chords, IsWritable tables chord) (leader : Leader) (taken : List KeyChord) (isFirst : Bool) :
    ∃ isFstAfter, readTokens tables leader ⟨taken, .none, isFirst⟩ (chordsText chords) =
      .ok ⟨taken ++ chords, .none, isFstAfter⟩ := by
  induction chords generalizing taken isFirst with
  | nil => exact ⟨isFirst, by rw [append_nil]; exact readTokens_nil leader _⟩
  | cons chord rest ih =>
    have hchord := (parseChord_display_iff tables (h chord mem_cons_self)).2 (hwritable chord mem_cons_self)
    obtain ⟨isFstAfter, hr⟩ := ih (fun other ho => h other (mem_cons_of_mem chord ho))
      (fun other ho => hwritable other (mem_cons_of_mem chord ho)) (taken ++ [chord]) false
    refine ⟨isFstAfter, ?_⟩
    rw [readTokens_chordsText_cons h, hchord]
    refine hr.trans ?_
    rw [append_assoc, singleton_append]

theorem readTokens_chordsText_error (h : ∀ chord ∈ chords, chord.IsCanonical tables) {unwritable : KeyChord}
    (hm : unwritable ∈ chords) (hwritable : ¬IsWritable tables unwritable) (leader : Leader) (taken : List KeyChord)
    (isFirst : Bool) :
    ∃ failure, readTokens tables leader ⟨taken, .none, isFirst⟩ (chordsText chords) = .error failure := by
  induction chords generalizing taken isFirst with
  | nil => exact absurd hm not_mem_nil
  | cons chord rest ih =>
    rw [readTokens_chordsText_cons h]
    by_cases hchord : IsWritable tables chord
    · rw [(parseChord_display_iff tables (h chord mem_cons_self)).2 hchord]
      have hr : unwritable ∈ rest := by
        rcases mem_cons.1 hm with rfl | hr
        · exact absurd hchord hwritable
        · exact hr
      exact ih (fun other ho => h other (mem_cons_of_mem chord ho)) hr _ _
    · obtain ⟨failure, herr⟩ := parseChord_display_error (h chord mem_cons_self) hchord
      exact ⟨failure, by rw [herr]; rfl⟩

/-- The text of a sequence of canonical chords parses back exactly when every chord of it can be written. -/
theorem parseSequence_display_iff {keys : KeySequence} (h : ∀ chord ∈ keys.chords, chord.IsCanonical tables)
    (leader : Leader) {maxDepth : UInt8} (hdepth : keys.chords.length ≤ maxDepth.toNat) :
    parseSequence tables keys.display leader maxDepth = .ok keys ↔ ∀ chord ∈ keys.chords, IsWritable tables chord := by
  have hdisplay : keys.display = chordsText keys.chords := rfl
  have hwords : (splitWhitespace keys.display).find? (isDashForm tables) = none := by
    rw [hdisplay, splitWhitespace_chordsText h, find?_eq_none]
    intro word hword
    obtain ⟨chord, hchord, rfl⟩ := mem_map.1 hword
    simp [isDashForm_display (h chord hchord)]
  unfold parseSequence
  rw [hwords, hdisplay, trimStart_chordsText h]
  constructor
  · intro hparsed
    by_contra hnot
    simp only [not_forall] at hnot
    obtain ⟨chord, hchord, hwritable⟩ := hnot
    obtain ⟨failure, herr⟩ := readTokens_chordsText_error h hchord hwritable leader [] true
    rw [herr] at hparsed
    exact absurd hparsed (by simp)
  · intro hwritable
    obtain ⟨isFirstAfter, hrd⟩ := readTokens_chordsText h hwritable leader [] true
    obtain ⟨chords, hnonempty⟩ := keys
    cases chords with
    | nil => exact absurd rfl hnonempty
    | cons firstChord restChords =>
      rw [hrd]
      have hlen : ¬maxDepth.toNat < (firstChord :: restChords).length := not_lt.2 hdepth
      simp only [nil_append, if_neg hlen]
      rfl

/-- **Key text round trip.** Canonical chords and sequences of them are read back from their own text, exactly when
no key is a capital without case mappings. What the chord parser accepts is canonical, and so is the chord of a key
event, exactly when the key it is built from is neither raw nor such a capital. -/
theorem keyText_roundTrip (tables : CaseTables) :
    (∀ chord : KeyChord, chord.IsCanonical tables →
      (parseChord tables chord.display = .ok chord ↔ IsWritable tables chord)) ∧
    (∀ (keys : KeySequence) (leader : Leader) (maximumChordDepth : UInt8),
      (∀ chord ∈ keys.chords, chord.IsCanonical tables) →
      keys.chords.length ≤ maximumChordDepth.toNat →
      (parseSequence tables keys.display leader maximumChordDepth = .ok keys ↔
        ∀ chord ∈ keys.chords, IsWritable tables chord)) ∧
    (∀ (text : List Char) (chord : KeyChord), parseChord tables text = .ok chord → chord.IsCanonical tables) ∧
    ∀ (keyInput : KeyInput) (chord : KeyChord), keyInput.toBindingChord tables = some chord →
      (chord.IsCanonical tables ↔ ∃ key, bindingKey keyInput = some key ∧ HasCanonicalChord tables key) := by
  refine ⟨?_, ?_, ?_, ?_⟩
  · intro chord h
    exact parseChord_display_iff tables h
  · intro keys leader maximumChordDepth h hdepth
    exact parseSequence_display_iff h leader hdepth
  · intro text chord h
    exact isCanonical_of_parseChord tables h
  · intro keyInput chord h
    exact isCanonical_toBindingChord_iff tables h

/-! ### A capital without case mappings -/

theorem toNat_ofNat_add (h : character.toNat ≤ 90) :
    (Char.ofNat (character.toNat + 32)).toNat = character.toNat + 32 := by
  have hv : (character.toNat + 32).isValidChar := by
    simp only [Nat.isValidChar]
    omega
  rw [Char.ofNat, dif_pos hv]
  rfl

/-- The case tables on the Latin letters and on `ℂ`, which is a capital and its own upper and lower case. -/
def latinTables : CaseTables where
  isUppercase character := decide (65 ≤ character.toNat ∧ character.toNat ≤ 90) || decide (character = 'ℂ')
  isLowercase character := decide (97 ≤ character.toNat ∧ character.toNat ≤ 122)
  isAlphanumeric character := character.isAlphanum || decide (character = 'ℂ')
  toLowercase character :=
    [if 65 ≤ character.toNat ∧ character.toNat ≤ 90 then Char.ofNat (character.toNat + 32) else character]
  toUppercase character :=
    [if 97 ≤ character.toNat ∧ character.toNat ≤ 122 then Char.ofNat (character.toNat - 32) else character]
  uppercase_not_lowercase character h := by
    simp only [Bool.or_eq_true, decide_eq_true_eq] at h
    rcases h with h | rfl
    · simp only [decide_eq_false_iff_not]
      omega
    · decide
  uppercase_not_raw character h := by
    simp only [Bool.or_eq_true, decide_eq_true_eq] at h
    rcases h with h | rfl
    · simp [isRaw, isWhitespace, isControl]
      omega
    · decide
  lowercase_not_raw character h := by
    simp only [decide_eq_true_eq] at h
    simp [isRaw, isWhitespace, isControl]
    omega
  lowercase_of_pair character lowered h hne hlower _ := by
    obtain rfl := singleton_injective hlower
    split_ifs at hne ⊢ with hcapital
    · rw [toNat_ofNat_add hcapital.2, decide_eq_true_eq]
      omega
    · exact absurd rfl hne

/-- The chord on `ℂ` is canonical and its text is refused, and the key event of `ℂ` gives a chord with Shift on a
character that is no letter. -/
theorem keyText_unpaired_capital :
    KeyChord.IsCanonical latinTables ⟨.none, .char 'ℂ'⟩ ∧
      parseChord latinTables (KeyChord.display ⟨.none, .char 'ℂ'⟩) = .error ⟨['ℂ'], .shiftOnNonLetter 'ℂ'⟩ ∧
      KeyInput.toBindingChord latinTables ⟨.key (.char 'ℂ'), .press, none, ⟨0⟩⟩ = some ⟨.shift, .char 'ℂ'⟩ ∧
      isRaw 'ℂ' = false ∧ ¬KeyChord.IsCanonical latinTables ⟨.shift, .char 'ℂ'⟩ := by
  have hpair : ¬latinTables.FoldsToPair 'ℂ' := by
    rintro ⟨_, lowered, hne, hlower, _⟩
    exact hne (singleton_injective hlower).symm
  refine ⟨⟨by decide, hpair, fun h => ?_⟩, by decide, by decide, by decide, fun h => ?_⟩
  · exact absurd h (by decide)
  · exact absurd (h.2.2 (by decide)) (by decide)

end Koshi.Config
