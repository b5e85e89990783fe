import Koshi.Config.Proof.KeyText
import Koshi.Input.Keyboard

/-!
# Keys that share legacy bytes

Legacy bytes of one byte, alone or behind `ESC`, come from a character key or a C0 key. In the extended-keys mode such a
key keeps those bytes exactly when it owns the byte or nobody does.
-/

namespace Koshi.Input

open Koshi.Core List Option

variable {tables : CaseTables} {keyInput : KeyInput} {chord : KeyChord} {isAppMode : Bool} {legacy : List UInt8}

/-! ### The length of legacy bytes -/

theorem length_encodeSs3Key (finalByte : UInt8) (parameter : Nat) : 3 ≤ (encodeSs3Key finalByte parameter).length := by
  unfold encodeSs3Key
  split
  · exact Nat.le_refl 3
  · simp only [length_append, length_cons]
    omega

theorem length_encodeCursorKey (finalByte : UInt8) (parameter : Nat) :
    3 ≤ (encodeCursorKey finalByte parameter isAppMode).length := by
  unfold encodeCursorKey
  split
  · exact Nat.le_refl 3
  · exact length_encodeSs3Key ..

theorem length_encodeTildeKey (tildeKeyCode parameter : Nat) : 3 ≤ (encodeTildeKey tildeKeyCode parameter).length := by
  unfold encodeTildeKey
  simp only [length_append, length_cons, length_nil]
  omega

theorem length_encodeNamedKey {namedKey : NamedKey} {modifiers : BindingModifierFlags}
    {functionalKeyForm : FunctionalKeyForm × BindingModifierFlags}
    (hform : findFunctionalKeyForm namedKey = some (some functionalKeyForm))
    (hby : encodeNamedKey namedKey modifiers isAppMode = some legacy) :
    3 ≤ legacy.length := by
  cases namedKey <;> simp only [findFunctionalKeyForm, Option.some.injEq, reduceCtorEq] at hform <;>
    simp only [encodeNamedKey, findFunctionalKeyForm, Option.some.injEq] at hby
  case f functionNumber =>
    obtain ⟨⟨form, addedModifierFlags⟩, -, rfl⟩ := map_eq_some_iff.mp hby
    cases form with
    | cursor finalByte => exact length_encodeSs3Key ..
    | ss3 finalByte => exact length_encodeSs3Key ..
    | tilde tildeKeyCode => exact length_encodeTildeKey ..
  all_goals
    subst hby
    first | exact length_encodeCursorKey .. | exact length_encodeTildeKey ..

/-- A key whose legacy bytes do not depend on the cursor-key mode: a character or a C0 key. -/
def IsByteKey (key : Key) : Prop := ∀ namedKey, key = .named namedKey → findFunctionalKeyForm namedKey = some none

theorem isByteKey_of_encodeKeyChord (hby : encodeKeyChord tables chord isAppMode = some legacy)
    (hlen : legacy.length ≤ 2) : IsByteKey chord.key := by
  intro namedKey hkey
  unfold encodeKeyChord at hby
  rw [hkey] at hby
  rcases hform : findFunctionalKeyForm namedKey with _ | _ | form
  · cases namedKey <;> simp only [findFunctionalKeyForm, reduceCtorEq] at hform
    simp only [encodeNamedKey, encodeFunctionKey, map_eq_none_iff.mp hform] at hby
    cases hby
  · rfl
  · have hlong := length_encodeNamedKey hform hby
    omega

theorem encodeKeyChord_of_isByteKey (hkey : IsByteKey chord.key) (isOther : Bool) :
    encodeKeyChord tables chord isOther = encodeKeyChord tables chord isAppMode := by
  rcases chord with ⟨modifiers, char | namedKey⟩
  · rfl
  · have hform := hkey namedKey rfl
    cases namedKey <;> first | rfl | cases hform

/-! ### The key of an event and of its chord -/

theorem isByteKey_of_toBindingChord (hchord : keyInput.toBindingChord tables = some chord)
    (hkey : IsByteKey chord.key) :
    ∃ key, keyInput.key = .key key ∧ IsByteKey key := by
  unfold KeyInput.toBindingChord at hchord
  split at hchord
  · cases hchord
  split at hchord
  · rename_i bindingKey hbnd
    refine ⟨bindingKey, hbnd, ?_⟩
    rintro namedKey rfl
    dsimp only at hchord
    split at hchord
    · rename_i hchar _
      cases hchar
    · rw [← Option.some.inj hchord] at hkey
      exact hkey namedKey rfl
  · cases hchord

theorem isSome_getCsiUKeyNumber {key : Key} (hkey : IsByteKey key) : ∃ number, getCsiUKeyNumber key = some number := by
  rcases key with char | namedKey
  · exact ⟨_, rfl⟩
  · have hform := hkey namedKey rfl
    cases namedKey <;> first | exact ⟨_, rfl⟩ | cases hform | skip
    obtain ⟨_, -, hnone⟩ := map_eq_some_iff.mp hform
    cases hnone

/-! ### Events a pane without flags receives -/

structure IsTextlessPress (keyInput : KeyInput) : Prop where
  press : keyInput.keyEventKind = .press
  textless : keyInput.associatedText = []

/-- The bytes are a `CSI u` report. -/
def IsCsiUReport (bytes : List UInt8) : Prop := ∃ body, bytes = [escapeByte, 0x5b] ++ body ++ [0x75]

theorem isCsiUReport_encodeCsiUEvent (number : Nat) :
    ∃ bytes, encodeCsiUEvent keyInput number 0 = some bytes ∧ IsCsiUReport bytes ∧ 3 ≤ bytes.length := by
  have hki : findEventKindNumber keyInput 0 = some none := rfl
  unfold encodeCsiUEvent
  rw [hki]
  refine ⟨_, rfl, ⟨encodeDecimal number ++ encodeModifierField (getReportedModifierParameter keyInput) none false ++
    encodeTextField [], ?_⟩, ?_⟩
  · simp only [append_assoc]
    rfl
  · simp only [length_append, length_cons, length_nil]
    omega

theorem isKeyEscapeCoded_zero {key : Key} (hkey : keyInput.key = .key key) (hb : IsByteKey key) :
    isKeyEscapeCoded keyInput 0 = some false := by
  unfold isKeyEscapeCoded
  rw [if_neg (by decide)]
  split
  · rfl
  rw [hkey]
  rcases key with char | namedKey
  · rfl
  · dsimp only
    rw [hb namedKey rfl]
    rfl

/-- The byte a chord's legacy bytes are belongs to another chord. -/
def isOwnedByOther (chord : KeyChord) (shared : UInt8) (altFlags : BindingModifierFlags) : Bool :=
  match findC0ByteOwner shared with
  | none => false
  | some owner => chord ≠ ⟨owner.modifierFlags.union altFlags, owner.key⟩

theorem encodeKeyInput_textlessPress (hprs : IsTextlessPress keyInput)
    (hchord : keyInput.toBindingChord tables = some chord) (hby : encodeKeyChord tables chord isAppMode = some legacy)
    {shared : UInt8} {altFlags : BindingModifierFlags} (hshr : findSharedByte legacy = some (shared, altFlags))
    (hlen : legacy.length ≤ 2) :
    ∃ bs, encodeKeyInput tables keyInput 0 isAppMode .always = some bs ∧
      if isOwnedByOther chord shared altFlags then IsCsiUReport bs ∧ 3 ≤ bs.length else bs = legacy := by
  have hchordKey := isByteKey_of_encodeKeyChord hby hlen
  obtain ⟨key, hkey, hbKey⟩ := isByteKey_of_toBindingChord hchord hchordKey
  obtain ⟨number, hnum⟩ := isSome_getCsiUKeyNumber hbKey
  have hcoded := isKeyEscapeCoded_zero hkey hbKey
  have hlost : isKeyLostByLegacyEncoding tables keyInput = some (isOwnedByOther chord shared altFlags) := by
    unfold isKeyLostByLegacyEncoding
    rw [hchord]
    dsimp only
    rw [encodeKeyChord_of_isByteKey hchordKey false, hby]
    simp only [map_some, hshr]
    rfl
  have hwt : isCsiUWritten tables keyInput 0 .always = some (isOwnedByOther chord shared altFlags) := by
    unfold isCsiUWritten
    rw [hcoded]
    exact hlost
  have hlegacy : encodeLegacyEvent tables keyInput isAppMode = some legacy := by
    unfold encodeLegacyEvent
    rw [if_neg (by rw [hprs.textless]; exact fun hne => hne rfl), hchord]
    exact hby
  have henc : encodeKeyInput tables keyInput 0 isAppMode .always =
      encodeCsiUOrLegacyEvent tables keyInput key 0 isAppMode .always := by
    have hev : isEventWritten keyInput 0 = some true := by
      unfold isEventWritten
      rw [hprs.press]
      rfl
    unfold encodeKeyInput encodeWrittenEvent
    rw [hev, hkey]
    rcases key with char | namedKey
    · rfl
    · simp only [hbKey namedKey rfl]
      rfl
  rw [henc]
  unfold encodeCsiUOrLegacyEvent
  rw [hwt, hnum, hlegacy]
  rcases isOwnedByOther chord shared altFlags with _ | _
  · exact ⟨legacy, rfl, rfl⟩
  · obtain ⟨bs, hreport, hisReport, hlong⟩ := @isCsiUReport_encodeCsiUEvent keyInput number
    exact ⟨bs, hreport, hisReport, hlong⟩

/-! ### Two keys of one byte -/

def listOwnedBytes : List UInt8 := [0x00, 0x08, 0x09, 0x0d, 0x1b, 0x7f]

theorem isSome_findC0ByteOwner_iff (shared : UInt8) :
    (findC0ByteOwner shared).isSome = true ↔ shared ∈ listOwnedBytes := by
  unfold findC0ByteOwner listOwnedBytes
  simp only [mem_cons, not_mem_nil, or_false]
  split_ifs <;> simp_all

/-- Two events reach a pane apart: at most one as the legacy bytes, and the other as a `CSI u` report. -/
def ReachPaneApart (tables : CaseTables) (isAppMode : Bool) (legacy : List UInt8) (first second : KeyInput) : Prop :=
  ¬(encodeKeyInput tables first 0 isAppMode .always = some legacy ∧
      encodeKeyInput tables second 0 isAppMode .always = some legacy) ∧
    ∀ keyInput ∈ [first, second],
      encodeKeyInput tables keyInput 0 isAppMode .always = some legacy ∨
        ∃ bytes, encodeKeyInput tables keyInput 0 isAppMode .always = some bytes ∧ IsCsiUReport bytes

theorem findSharedByte_of_shared {shared : UInt8} (hshr : legacy = [shared] ∨ legacy = [escapeByte, shared]) :
    ∃ altFlags, findSharedByte legacy = some (shared, altFlags) ∧ legacy.length ≤ 2 := by
  rcases hshr with rfl | rfl
  · exact ⟨.none, rfl, Nat.le_succ 1⟩
  · exact ⟨.alt, rfl, Nat.le_refl 2⟩

/-- **Two chords of one legacy byte reach a pane apart exactly when the byte has an owner.** -/
theorem reachPaneApart_iff (tables : CaseTables) (isAppMode : Bool) (first second : KeyInput)
    (firstChord secondChord : KeyChord) (legacy : List UInt8) (shared : UInt8) (hfirst : IsTextlessPress first)
    (hsecond : IsTextlessPress second) (hfirstChord : first.toBindingChord tables = some firstChord)
    (hsecondChord : second.toBindingChord tables = some secondChord) (hdistinct : firstChord ≠ secondChord)
    (hfirstBytes : encodeKeyChord tables firstChord isAppMode = some legacy)
    (hsecondBytes : encodeKeyChord tables secondChord isAppMode = some legacy)
    (hshared : legacy = [shared] ∨ legacy = [escapeByte, shared]) :
    ReachPaneApart tables isAppMode legacy first second ↔ shared ∈ [(0x00 : UInt8), 0x08, 0x09, 0x0d, 0x1b, 0x7f] := by
  obtain ⟨altFlags, hfound, hlen⟩ := findSharedByte_of_shared hshared
  obtain ⟨firstWritten, hfirstWritten, hformA⟩ :=
    encodeKeyInput_textlessPress hfirst hfirstChord hfirstBytes hfound hlen
  obtain ⟨secondWritten, hsecondWritten, hformB⟩ :=
    encodeKeyInput_textlessPress hsecond hsecondChord hsecondBytes hfound hlen
  rw [show [(0x00 : UInt8), 0x08, 0x09, 0x0d, 0x1b, 0x7f] = listOwnedBytes from rfl, ← isSome_findC0ByteOwner_iff]
  unfold ReachPaneApart
  rw [hfirstWritten, hsecondWritten]
  unfold isOwnedByOther at hformA hformB
  rcases hfoundOwner : findC0ByteOwner shared with _ | owner
  · -- nobody owns the byte, so both keep their legacy bytes
    rw [hfoundOwner] at hformA hformB
    obtain rfl : firstWritten = legacy := hformA
    obtain rfl : secondWritten = firstWritten := hformB
    exact iff_of_false (fun happart => happart.1 ⟨rfl, rfl⟩) Bool.false_ne_true
  · rw [hfoundOwner] at hformA hformB
    simp only [decide_eq_true_eq] at hformA hformB
    have hform : ∀ {keyInput : KeyInput} {chord : KeyChord} {written : List UInt8},
        encodeKeyInput tables keyInput 0 isAppMode .always = some written →
        (if chord ≠ ⟨owner.modifierFlags.union altFlags, owner.key⟩ then
          IsCsiUReport written ∧ 3 ≤ written.length else written = legacy) →
        encodeKeyInput tables keyInput 0 isAppMode .always = some legacy ∨
          ∃ bytes, encodeKeyInput tables keyInput 0 isAppMode .always = some bytes ∧ IsCsiUReport bytes := by
      intro keyInput chord written hwritten hform
      split at hform
      · exact .inr ⟨written, hwritten, hform.1⟩
      · rw [hform] at hwritten
        exact .inl hwritten
    refine iff_of_true ⟨?_, ?_⟩ rfl
    · rintro ⟨hfirstLegacy, hsecondLegacy⟩
      obtain rfl := Option.some.inj hfirstLegacy
      obtain rfl := Option.some.inj hsecondLegacy
      split at hformA
      · omega
      · rename_i hfirstOwner
        split at hformB
        · omega
        · rename_i hsecondOwner
          exact hdistinct ((not_not.mp hfirstOwner).trans (not_not.mp hsecondOwner).symm)
    · intro keyInput hmem
      rcases mem_cons.mp hmem with rfl | hmem
      · exact hform hfirstWritten hformA
      · rw [mem_singleton.mp hmem]
        exact hform hsecondWritten hformB

/-- A press of a key that reported nothing else. -/
def keyPress (key : Key) (modifiers : KeyModifierFlags) : KeyInput :=
  ⟨⟨.key key, .press, none, modifiers⟩, none, []⟩

/-- Enter keeps `0x0d`, and Shift+Enter is a report. -/
theorem enter_reaches_apart_from_shift_enter :
    ReachPaneApart Config.latinTables false [0x0d] (keyPress (.named .enter) ⟨0⟩) (keyPress (.named .enter) .shift) :=
  (reachPaneApart_iff Config.latinTables false _ _ ⟨.none, .named .enter⟩ ⟨.shift, .named .enter⟩ [0x0d] 0x0d
    ⟨rfl, rfl⟩ ⟨rfl, rfl⟩ (by decide) (by decide) (by decide) (by decide) (by decide) (.inl rfl)).mpr (by decide)

/-- Control with `4` and Control with the backslash both reach a pane as `0x1c`. -/
theorem control_four_reaches_as_control_backslash :
    (keyPress (.char '4') .ctrl).toBindingChord Config.latinTables = some ⟨.ctrl, .char '4'⟩ ∧
      (keyPress (.char '\\') .ctrl).toBindingChord Config.latinTables = some ⟨.ctrl, .char '\\'⟩ ∧
      encodeKeyChord Config.latinTables ⟨.ctrl, .char '4'⟩ false = some [0x1c] ∧
      encodeKeyChord Config.latinTables ⟨.ctrl, .char '\\'⟩ false = some [0x1c] ∧
      ¬ReachPaneApart Config.latinTables false [0x1c] (keyPress (.char '4') .ctrl) (keyPress (.char '\\') .ctrl) := by
  refine ⟨by decide, by decide, by decide, by decide, fun happart => happart.1 ⟨?_, ?_⟩⟩
  · decide
  · decide

end Koshi.Input
