import Koshi.Core.KeyText
import Koshi.Base.Reader
import Koshi.Config.Conflict

/-!
# Parsing chords and key sequences

`parse_chord` of `koshi-config/src/key.rs` and `parse_sequence` of `key_sequence.rs`, over lists of characters.
-/

namespace Koshi.Config

open Koshi.Core Base List

inductive KeyParseErrorKind where
  | empty
  | unclosedBracket
  | missingKey
  | unknownModifier (modifier : Char)
  | duplicateModifier (modifier : Char)
  | unknownNamedKey (keyName : List Char)
  | unbracketedMultiChar
  | shiftOnNonLetter (keyCharacter : Char)
  | functionKeyOutOfRange (functionKeyNumberText : List Char)
  | rawWhitespaceOrControl (keyCharacter : Char)
  | leaderNotAChord
  | leaderNotFirst
  | danglingLeaderModifiers
  | sequenceTooLong (chordCount : Nat) (maximumChordDepth : UInt8)
  deriving DecidableEq

/-- A key token that does not name a chord, with the reason. -/
structure KeyParseError where
  keyToken : List Char
  errorKind : KeyParseErrorKind
  deriving DecidableEq

/-- Maps a modifier letter to its bit, accepting either case. -/
def resolveModifierFlag (modifierCharacter : Char) : Option BindingModifierFlags :=
  if modifierCharacter = 'C' ∨ modifierCharacter = 'c' then some .ctrl
  else if modifierCharacter = 'A' ∨ modifierCharacter = 'a' then some .alt
  else if modifierCharacter = 'S' ∨ modifierCharacter = 's' then some .shift
  else if modifierCharacter = 'D' ∨ modifierCharacter = 'd' then some .super
  else none

/-- Consumes leading `X-` modifier pairs: the modifiers, over those already read, and the rest of the text. -/
def splitModifierFlags (keyToken : List Char) (modifierFlags : BindingModifierFlags) :
    List Char → Except KeyParseError (BindingModifierFlags × List Char)
  | modifierCharacter :: '-' :: rest =>
    match resolveModifierFlag modifierCharacter with
    | none => .error ⟨keyToken, .unknownModifier modifierCharacter⟩
    | some modifierFlag =>
      if modifierFlags.hasAllModifiers modifierFlag then .error ⟨keyToken, .duplicateModifier modifierCharacter⟩
      else splitModifierFlags keyToken (modifierFlags.union modifierFlag) rest
  | keyText => .ok (modifierFlags, keyText)

variable (tables : CaseTables)

/-- Folds a single-character key into canonical form. -/
def finishKeyCharacter (keyToken : List Char) (modifierFlags : BindingModifierFlags) (keyCharacter : Char) :
    Except KeyParseError KeyChord :=
  if isWhitespace keyCharacter || isControl keyCharacter then .error ⟨keyToken, .rawWhitespaceOrControl keyCharacter⟩
  else
    let folded := foldUppercaseCharacter tables keyCharacter
    let modifierFlags := if folded.2 then modifierFlags.union .shift else modifierFlags
    if modifierFlags.hasAllModifiers .shift && !tables.isLowercase folded.1 then
      .error ⟨keyToken, .shiftOnNonLetter folded.1⟩
    else .ok ⟨modifierFlags, .char folded.1⟩

def toAsciiLowercase (text : List Char) : List Char := text.map Char.toLower

def isAsciiDigit (character : Char) : Bool := character.isDigit

/-- `str::parse::<u8>` on a nonempty run of digits. -/
def parseByte (digits : List Char) : Option UInt8 :=
  let value := digits.foldl (fun value digit => 10 * value + (digit.toNat - '0'.toNat)) 0
  if value < 256 then some (UInt8.ofNat value) else none

/-- The number after `F` or `f`, if the name is one. -/
def functionKeyNumberText (keyName : List Char) : Option (List Char) :=
  match keyName with
  | 'F' :: digits | 'f' :: digits => if digits ≠ [] ∧ digits.all isAsciiDigit then some digits else none
  | _ => none

def namedKeyByName : List (List Char × NamedKey) :=
  [(['c', 'r'], .enter), (['b', 's'], .backspace), (['u', 'p'], .up), (['t', 'a', 'b'], .tab), (['e', 's', 'c'], .esc),
    (['d', 'e', 'l'], .delete), (['e', 'n', 'd'], .end), (['l', 'e', 'f', 't'], .left), (['h', 'o', 'm', 'e'], .home),
    (['d', 'o', 'w', 'n'], .down), (['s', 'p', 'a', 'c', 'e'], .space), (['r', 'i', 'g', 'h', 't'], .right),
    (['i', 'n', 's', 'e', 'r', 't'], .insert), (['p', 'a', 'g', 'e', 'u', 'p'], .pageUp),
    (['p', 'a', 'g', 'e', 'd', 'o', 'w', 'n'], .pageDown)]

/-- Resolves a bracketed multi-character key name. -/
def resolveNamedKey (keyToken keyName : List Char) : Except KeyParseError NamedKey :=
  match functionKeyNumberText keyName with
  | some digits =>
    match (parseByte digits).filter fun number => 1 ≤ number ∧ number ≤ 24 with
    | some number => .ok (.f number)
    | none => .error ⟨keyToken, .functionKeyOutOfRange digits⟩
  | none =>
    match namedKeyByName.lookup (toAsciiLowercase keyName) with
    | some namedKey => .ok namedKey
    | none => .error ⟨keyToken, .unknownNamedKey keyName⟩

def leaderWord : List Char := ['l', 'e', 'a', 'd', 'e', 'r']

/-- `str::strip_suffix('>')`. -/
def stripClosingBracket (text : List Char) : Option (List Char) :=
  if text.getLast? = some '>' then some text.dropLast else none

def finishKeyText (chordText : List Char) (modifierFlags : BindingModifierFlags) :
    List Char → Except KeyParseError KeyChord
  | [] => .error ⟨chordText, .missingKey⟩
  | [keyCharacter] => finishKeyCharacter tables chordText modifierFlags keyCharacter
  | keyName =>
    match resolveNamedKey chordText keyName with
    | .error keyParseError => .error keyParseError
    | .ok namedKey => .ok ⟨modifierFlags, .named namedKey⟩

def parseChord (chordText : List Char) : Except KeyParseError KeyChord :=
  match chordText with
  | [] => .error ⟨chordText, .empty⟩
  | '<' :: keyText =>
    match stripClosingBracket keyText with
    | none => .error ⟨chordText, .unclosedBracket⟩
    | some bracketedKeyText =>
      if bracketedKeyText = [] then .error ⟨chordText, .missingKey⟩
      else if toAsciiLowercase bracketedKeyText = leaderWord then .error ⟨chordText, .leaderNotAChord⟩
      else
        match splitModifierFlags chordText .none bracketedKeyText with
        | .error keyParseError => .error keyParseError
        | .ok (modifierFlags, remainingKeyText) => finishKeyText tables chordText modifierFlags remainingKeyText
  | [keyCharacter] => finishKeyCharacter tables chordText .none keyCharacter
  | _ => .error ⟨chordText, .unbracketedMultiChar⟩

/-! ### Sequences -/

/-- Whether the fragment holds a `-` between two alphanumeric characters. -/
def hasDashBetweenAlphanumerics (tables : CaseTables) : List Char → Bool
  | first :: second :: third :: rest =>
    (tables.isAlphanumeric first && second = '-' && tables.isAlphanumeric third) ||
      hasDashBetweenAlphanumerics tables (second :: third :: rest)
  | _ => false

/-- Whether the word is written in the dash form, outside every angle-bracketed run. -/
def isDashForm (tables : CaseTables) (wordText : List Char) : Bool :=
  let fragment := wordText.takeWhile (· ≠ '<')
  if hasDashBetweenAlphanumerics tables fragment then true
  else
    match hopen : wordText.dropWhile (· ≠ '<') with
    | [] => false
    | _ :: bracketed =>
      match hclose : bracketed.dropWhile (· ≠ '>') with
      | [] => false
      | _ :: rest => isDashForm tables rest
termination_by wordText.length
decreasing_by
  have hbracketed := congrArg List.length hopen
  have hclosing := congrArg List.length hclose
  have hfirst := (dropWhile_suffix (l := wordText) (· ≠ '<')).length_le
  have hsecond := (dropWhile_suffix (l := bracketed) (· ≠ '>')).length_le
  simp only [length_cons] at hbracketed hclosing
  omega

/-- The words between runs of whitespace. -/
def splitWhitespace (text : List Char) : List (List Char) := (text.splitOnP isWhitespace).filter (· ≠ [])

def trimStart (text : List Char) : List Char := text.dropWhile isWhitespace

/-- Splits the next key token off a nonempty text: a `<...>` run through its first closing `>`, or one bare
character. -/
def splitKeyToken (firstCharacter : Char) (rest : List Char) : Except KeyParseError (List Char × List Char) :=
  if firstCharacter = '<' then
    match rest.dropWhile (· ≠ '>') with
    | [] => .error ⟨firstCharacter :: rest, .unclosedBracket⟩
    | closing :: after => .ok (firstCharacter :: (rest.takeWhile (· ≠ '>') ++ [closing]), after)
  else .ok ([firstCharacter], rest)

def isLeaderToken (keyToken : List Char) : Bool :=
  match keyToken with
  | '<' :: body => (stripClosingBracket body).any fun tokenBody => toAsciiLowercase tokenBody = leaderWord
  | _ => false

/-- Merges a modifier-run leader into the chord that follows it. -/
def mergeLeaderModifierFlags (keyToken : List Char) (leaderModifierFlags : BindingModifierFlags) (keyChord : KeyChord) :
    Except KeyParseError KeyChord :=
  let mergedModifierFlags := keyChord.modifierFlags.union leaderModifierFlags
  match keyChord.key with
  | .char keyCharacter => finishKeyCharacter tables keyToken mergedModifierFlags keyCharacter
  | .named namedKey => .ok ⟨mergedModifierFlags, .named namedKey⟩

/-- Parses one token, extended through the next `>` where the key is `>` itself: the chord, the token as it was
read, and the text after it. -/
def parseToken (keyToken remainingAfterToken : List Char) : Except KeyParseError (KeyChord × List Char × List Char) :=
  match parseChord tables keyToken with
  | .ok keyChord => .ok (keyChord, keyToken, remainingAfterToken)
  | .error keyParseError =>
    match remainingAfterToken with
    | '>' :: after =>
      if keyParseError.errorKind = .missingKey ∧ keyToken ≠ ['<', '>'] then
        match parseChord tables (keyToken ++ ['>']) with
        | .ok keyChord => .ok (keyChord, keyToken ++ ['>'], after)
        | .error keyParseError => .error keyParseError
      else .error keyParseError
    | _ => .error keyParseError

/-- What the token loop carries: the chords so far, the leader modifiers waiting for a chord, and whether no token
was read yet. -/
structure TokenLoop where
  chords : List KeyChord
  pendingLeaderModifierFlags : BindingModifierFlags
  isFirstToken : Bool
  deriving DecidableEq

def takeLeader (leader : Leader) (state : TokenLoop) (keyToken : List Char) : Except KeyParseError TokenLoop :=
  if state.isFirstToken then
    match leader with
    | .chord leaderChord => .ok ⟨state.chords ++ [leaderChord], state.pendingLeaderModifierFlags, false⟩
    | .modifiers leaderModifierFlags => .ok ⟨state.chords, leaderModifierFlags, false⟩
  else .error ⟨keyToken, .leaderNotFirst⟩

/-- Takes the chord of a token, with the leader modifiers that wait for it. -/
def takeChord (state : TokenLoop) (keyChord : KeyChord) (keyToken : List Char) : Except KeyParseError TokenLoop :=
  if state.pendingLeaderModifierFlags.isEmpty then
    .ok ⟨state.chords ++ [keyChord], state.pendingLeaderModifierFlags, false⟩
  else
    match mergeLeaderModifierFlags tables keyToken state.pendingLeaderModifierFlags keyChord with
    | .error keyParseError => .error keyParseError
    | .ok mergedChord => .ok ⟨state.chords ++ [mergedChord], .none, false⟩

/-- One round of the token loop: the next state, and the text after the token. -/
def readToken (leader : Leader) (state : TokenLoop) (firstCharacter : Char) (rest : List Char) :
    Except KeyParseError (TokenLoop × List Char) := do
  let (keyToken, remainingAfterToken) ← splitKeyToken firstCharacter rest
  if isLeaderToken keyToken then
    return (← takeLeader leader state keyToken, remainingAfterToken)
  else
    let (keyChord, keyToken, remainingAfterToken) ← parseToken tables keyToken remainingAfterToken
    return (← takeChord tables state keyChord keyToken, remainingAfterToken)

/-! Every round consumes at least one character. -/

theorem length_of_splitKeyToken {firstChar : Char} {rest keyToken after : List Char}
    (h : splitKeyToken firstChar rest = .ok (keyToken, after)) : after.length ≤ rest.length := by
  unfold splitKeyToken at h
  split_ifs at h
  · have hsuffix := (dropWhile_suffix (l := rest) (· ≠ '>')).length_le
    split at h
    · exact absurd h (by simp)
    · rename_i closing tail hdrop
      rw [hdrop, length_cons] at hsuffix
      simp only [Except.ok.injEq, Prod.mk.injEq] at h
      obtain ⟨_, rfl⟩ := h
      omega
  · simp only [Except.ok.injEq, Prod.mk.injEq] at h
    obtain ⟨_, rfl⟩ := h
    exact le_rfl

theorem length_of_parseToken {tables : CaseTables} {keyToken rest readToken after : List Char} {keyChord : KeyChord}
    (h : parseToken tables keyToken rest = .ok (keyChord, readToken, after)) : after.length ≤ rest.length := by
  unfold parseToken at h
  split at h
  · simp only [Except.ok.injEq, Prod.mk.injEq] at h
    obtain ⟨_, _, rfl⟩ := h
    exact le_rfl
  · split at h
    · split_ifs at h
      split at h
      · simp only [Except.ok.injEq, Prod.mk.injEq] at h
        obtain ⟨_, _, rfl⟩ := h
        simp
      · exact absurd h (by simp)
    · exact absurd h (by simp)

theorem length_of_readToken {tables : CaseTables} {leader : Leader} {st next : TokenLoop} {firstChar : Char}
    {rest after : List Char} (h : readToken tables leader st firstChar rest = .ok (next, after)) :
    after.length ≤ rest.length := by
  obtain ⟨⟨keyToken, remaining⟩, hsp, h⟩ := bind_eq_ok h
  refine le_trans ?_ (length_of_splitKeyToken hsp)
  dsimp only at h
  split_ifs at h
  · obtain ⟨taken, _, h⟩ := bind_eq_ok h
    rw [(Prod.mk.inj (Except.ok.inj h)).2]
  · obtain ⟨⟨keyChord, readToken, extended⟩, hparse, h⟩ := bind_eq_ok h
    obtain ⟨taken, _, h⟩ := bind_eq_ok h
    rw [← (Prod.mk.inj (Except.ok.inj h)).2]
    exact length_of_parseToken hparse

def readTokens (tables : CaseTables) (leader : Leader) (state : TokenLoop) (remainingSequenceText : List Char) :
    Except KeyParseError TokenLoop :=
  match remainingSequenceText with
  | [] => .ok state
  | firstCharacter :: rest =>
    match h : readToken tables leader state firstCharacter rest with
    | .error keyParseError => .error keyParseError
    | .ok (next, after) => readTokens tables leader next (trimStart after)
termination_by remainingSequenceText.length
decreasing_by
  have hafter := length_of_readToken h
  have htrim := (dropWhile_suffix (l := after) isWhitespace).length_le
  simp only [trimStart, length_cons]
  omega

def parseSequence (sequenceText : List Char) (leader : Leader) (maximumChordDepth : UInt8) :
    Except KeyParseError KeySequence :=
  match (splitWhitespace sequenceText).find? (isDashForm tables) with
  | some sequenceWord => .error ⟨sequenceWord, .unbracketedMultiChar⟩
  | none =>
    match readTokens tables leader ⟨[], .none, true⟩ (trimStart sequenceText) with
    | .error keyParseError => .error keyParseError
    | .ok state =>
      if !state.pendingLeaderModifierFlags.isEmpty then .error ⟨sequenceText, .danglingLeaderModifiers⟩
      else
        match state.chords with
        | [] => .error ⟨sequenceText, .empty⟩
        | firstChord :: remainingChords =>
          if maximumChordDepth.toNat < (firstChord :: remainingChords).length then
            .error ⟨sequenceText, .sequenceTooLong (firstChord :: remainingChords).length maximumChordDepth⟩
          else .ok (.fromFirstAndRest firstChord remainingChords)

end Koshi.Config
