import Koshi.Config.Proof.KeyText
import Koshi.Input.HostParser

/-!
# Bracketed paste

A paste reaches the parser as the start sequence, the pasted bytes and the end sequence, in any chunks. The end
sequence begins with the only ESC it holds, so the number of its bytes matched is read off the bytes consumed: the
longest beginning of the end sequence they end in. The pasted bytes collected are the bytes before that beginning. The
limit is checked only where such a beginning has not just started, so a paste past the limit is discarded exactly when
one of its beginnings past the limit does not end in a beginning of the end sequence.
-/

namespace Koshi.Input.Host

open Base Koshi.Core List Koshi.Input.Host.Parser

variable {bytes : List UInt8} {byte : UInt8} {matched : Nat}

/-- The bytes end in a beginning of the end sequence that is neither empty nor whole. -/
def EndsInPartialEnd (bytes : List UInt8) : Prop :=
  ∃ matched, 0 < matched ∧ matched < pasteEndSequenceBytes.length ∧ pasteEndSequenceBytes.take matched <:+ bytes

/-- The end sequence does not occur in the pasted bytes and their end sequence before the end. -/
def EndsFirstAtEnd (pasted : List UInt8) : Prop :=
  ∀ index < pasted.length, ¬pasteEndSequenceBytes <+: (pasted ++ pasteEndSequenceBytes).drop index

/-- Some beginning of the bytes is past the limit where the limit is checked. -/
def OverrunsPaste (bytes : List UInt8) : Prop :=
  ∃ first, first <+: bytes ∧ maxPasteByteCount < first.length ∧ ¬EndsInPartialEnd first

def Event.isKey : Event → Bool
  | .key _ => true
  | _ => false

def Event.isPaste : Event → Bool
  | .paste _ => true
  | _ => false

/-! ### The beginning of the end sequence that was matched -/

structure Matches (bytes : List UInt8) (matched : Nat) : Prop where
  lt : matched < pasteEndSequenceBytes.length
  isSuffix : pasteEndSequenceBytes.take matched <:+ bytes
  longest : ∀ length < pasteEndSequenceBytes.length, pasteEndSequenceBytes.take length <:+ bytes → length ≤ matched

theorem length_pasteEnd : pasteEndSequenceBytes.length = 6 := rfl

theorem take_suffix_concat {length : Nat} (hlen : length < pasteEndSequenceBytes.length) :
    pasteEndSequenceBytes.take (length + 1) <:+ bytes ++ [byte] ↔
      pasteEndSequenceBytes.take length <:+ bytes ∧ pasteEndSequenceBytes[length]? = some byte := by
  rw [take_add_one, List.getElem?_eq_getElem hlen]
  simp only [Option.toList_some, Option.some.injEq]
  constructor
  · rintro ⟨before, hb⟩
    rw [← append_assoc] at hb
    obtain ⟨hby, hbyte⟩ := append_inj' hb rfl
    exact ⟨⟨before, hby⟩, singleton_inj.mp hbyte⟩
  · rintro ⟨⟨before, hb⟩, rfl⟩
    refine ⟨before, ?_⟩
    rw [← append_assoc, hb]

theorem not_take_suffix_take : ∀ longer < pasteEndSequenceBytes.length, ∀ shorter < longer, 0 < shorter →
    ¬pasteEndSequenceBytes.take shorter <:+ pasteEndSequenceBytes.take longer := by
  decide

theorem Matches.nil : Matches [] 0 := by
  refine ⟨by decide, nil_suffix, fun length hlt hsuffix => ?_⟩
  have hlen := hsuffix.length_le
  rw [length_take, length_nil] at hlen
  omega

section

variable (h : Matches bytes matched)

include h

theorem Matches.eq_of_take_suffix {length : Nat} (hlt : length < pasteEndSequenceBytes.length) (hpos : 0 < length)
    (hsuffix : pasteEndSequenceBytes.take length <:+ bytes) : length = matched := by
  have hle := h.longest length hlt hsuffix
  by_contra hne
  apply not_take_suffix_take matched h.lt length (by omega) hpos
  apply suffix_of_suffix_length_le hsuffix h.isSuffix
  rw [length_take, length_take]
  omega

theorem Matches.endsInPartialEnd_iff : EndsInPartialEnd bytes ↔ matched ≠ 0 := by
  constructor
  · rintro ⟨length, hpos, hlt, hsuffix⟩
    have heq := h.eq_of_take_suffix hlt hpos hsuffix
    omega
  · intro hne
    exact ⟨matched, by omega, h.lt, h.isSuffix⟩

/-- The match stays short of the whole end sequence where that does not end here. -/
theorem Matches.succ_lt (hb : pasteEndSequenceBytes[matched]? = some byte)
    (hl : ¬pasteEndSequenceBytes <:+ bytes ++ [byte]) : matched + 1 < pasteEndSequenceBytes.length := by
  have hbo := h.lt
  by_contra hnot
  apply hl
  have hwhole := (take_suffix_concat h.lt).mpr ⟨h.isSuffix, hb⟩
  rw [take_of_length_le (by omega)] at hwhole
  exact hwhole

theorem Matches.concat_matched (hb : pasteEndSequenceBytes[matched]? = some byte)
    (hlt : matched + 1 < pasteEndSequenceBytes.length) : Matches (bytes ++ [byte]) (matched + 1) := by
  refine ⟨hlt, (take_suffix_concat h.lt).mpr ⟨h.isSuffix, hb⟩, fun length hlen hsuffix => ?_⟩
  obtain _ | length := length
  · omega
  · have hshorter := ((take_suffix_concat (by omega)).mp hsuffix).1
    have hle := h.longest length (by omega) hshorter
    omega

theorem Matches.concat_unmatched (hb : pasteEndSequenceBytes[matched]? ≠ some byte) :
    Matches (bytes ++ [byte]) (if byte = escapeByte then 1 else 0) := by
  have hf : ∀ length, length + 1 < pasteEndSequenceBytes.length →
      pasteEndSequenceBytes.take (length + 1) <:+ bytes ++ [byte] → length = 0 ∧ byte = escapeByte := by
    intro length hlen hsuffix
    obtain ⟨hshorter, hn⟩ := (take_suffix_concat (by omega)).mp hsuffix
    have hz : length = 0 := by
      by_contra hne
      have heq := h.eq_of_take_suffix (by omega) (by omega) hshorter
      rw [heq] at hn
      exact hb hn
    rw [hz] at hn
    exact ⟨hz, (Option.some.inj hn).symm⟩
  split_ifs with hescape
  · refine ⟨by decide, (take_suffix_concat (by decide)).mpr ⟨nil_suffix, ?_⟩, fun length hlen hsuffix => ?_⟩
    · rw [hescape]
      rfl
    · obtain _ | length := length
      · omega
      · have hz := (hf length hlen hsuffix).1
        omega
  · refine ⟨by decide, nil_suffix, fun length hlen hsuffix => ?_⟩
    obtain _ | length := length
    · omega
    · exact absurd (hf length hlen hsuffix).2 hescape

end

/-! ### Bytes past the limit -/

theorem not_overrunsPaste_nil : ¬OverrunsPaste [] := by
  rintro ⟨first, hst, hlen, -⟩
  rw [prefix_nil.mp hst, length_nil] at hlen
  omega

theorem overrunsPaste_concat :
    OverrunsPaste (bytes ++ [byte]) ↔
      OverrunsPaste bytes ∨ (maxPasteByteCount < bytes.length + 1 ∧ ¬EndsInPartialEnd (bytes ++ [byte])) := by
  constructor
  · rintro ⟨first, hst, hlen, hends⟩
    obtain rfl | hst := prefix_concat_iff.mp hst
    · right
      rw [length_append, length_singleton] at hlen
      exact ⟨hlen, hends⟩
    · left
      exact ⟨first, hst, hlen, hends⟩
  · rintro (⟨first, hst, hlen, hends⟩ | ⟨hlen, hends⟩)
    · exact ⟨first, hst.trans (prefix_append _ _), hlen, hends⟩
    · refine ⟨bytes ++ [byte], prefix_rfl, ?_, hends⟩
      rw [length_append, length_singleton]
      exact hlen

theorem OverrunsPaste.length (h : OverrunsPaste bytes) : maxPasteByteCount < bytes.length := by
  obtain ⟨first, hst, hlen, -⟩ := h
  have hle := hst.length_le
  omega

namespace Parser

/-! ### One byte of a paste -/

section Byte

variable (parser : Parser) (byte : UInt8) (discards : Bool)

theorem processPasteByte_matched (hb : pasteEndSequenceBytes[parser.pasteMarkerMatchLength]? = some byte)
    (hlt : parser.pasteMarkerMatchLength + 1 < pasteEndSequenceBytes.length) :
    parser.processPasteByte byte discards =
      { parser with pasteMarkerMatchLength := parser.pasteMarkerMatchLength + 1 } := by
  rw [processPasteByte, if_pos hb]
  dsimp only
  rw [if_neg (by omega)]

theorem processPasteByte_completed (hb : pasteEndSequenceBytes[parser.pasteMarkerMatchLength]? = some byte)
    (heq : parser.pasteMarkerMatchLength + 1 = pasteEndSequenceBytes.length) :
    parser.processPasteByte byte discards =
      { parser.resetInputParser with
        pendingEvents := parser.pendingEvents ++
          if discards then [] else [.paste (fromUtf8Lossy parser.pasteBytes)] } := by
  rw [processPasteByte, if_pos hb]
  dsimp only
  rw [if_pos heq]
  cases discards with
  | true => simp [resetInputParser]
  | false => rfl

theorem processPasteByte_restarted (hb : pasteEndSequenceBytes[parser.pasteMarkerMatchLength]? ≠ some byte)
    (hescape : byte = escapeByte) :
    parser.processPasteByte byte discards =
      { parser with
        pasteBytes := if discards then parser.pasteBytes
          else parser.pasteBytes ++ pasteEndSequenceBytes.take parser.pasteMarkerMatchLength
        pasteMarkerMatchLength := 1 } := by
  have hne : parser.pasteMarkerMatchLength ≠ 0 := by
    intro hz
    rw [hz, hescape] at hb
    exact hb rfl
  rw [processPasteByte, if_neg hb, if_pos hne]
  dsimp only
  rw [if_pos hescape]

theorem processPasteByte_unmatched (hb : pasteEndSequenceBytes[parser.pasteMarkerMatchLength]? ≠ some byte)
    (hescape : byte ≠ escapeByte) :
    parser.processPasteByte byte discards =
      if discards then { parser with pasteMarkerMatchLength := 0 }
      else { parser with
        pasteBytes := parser.pasteBytes ++ pasteEndSequenceBytes.take parser.pasteMarkerMatchLength
        pasteMarkerMatchLength := 0 }.pushPasteByte byte := by
  rw [processPasteByte, if_neg hb]
  by_cases hz : parser.pasteMarkerMatchLength = 0
  · rw [if_neg (by omega)]
    obtain ⟨parserState, controlSequence, pasteBytes, matched, pendingEvents, isAltHeld⟩ := parser
    obtain rfl : matched = 0 := hz
    simp only [take_zero, append_nil]
  · rw [if_pos hz]
    dsimp only
    rw [if_neg hescape]
    cases discards <;> rfl

end Byte

/-! ### A paste -/

section Paste

variable (tables : CaseTables)

theorem processInputBytes_append (parser : Parser) (first laterBytes : List UInt8) :
    parser.processInputBytes tables (first ++ laterBytes) =
      (parser.processInputBytes tables first).processInputBytes tables laterBytes :=
  List.foldl_append

theorem foldl_processInputBytes (parser : Parser) (chunks : List (List UInt8)) :
    chunks.foldl (processInputBytes tables) parser = parser.processInputBytes tables chunks.flatten :=
  foldl_flatten.symm

/-- The parser once the start sequence was read. -/
def startPaste (parser : Parser) : Parser :=
  { parser with parserState := .paste, controlSequence := [], pasteBytes := [], pasteMarkerMatchLength := 0 }

theorem bytesOf_pasteParameter : bytesOf "200~" = [0x32, 0x30, 0x30, 0x7e] := by decide

theorem processInputBytes_start (parser : Parser) (hground : parser.parserState = .ground) :
    parser.processInputBytes tables pasteStartSequenceBytes = parser.startPaste := by
  obtain ⟨parserState, controlSequence, pasteBytes, matched, pendingEvents, isAltHeld⟩ := parser
  obtain rfl : parserState = .ground := hground
  have hbracket : byteOf '[' = 0x5b := by decide
  have hfinal : isCsiFinal 0x32 = false ∧ isCsiFinal 0x30 = false := by decide
  have habort : isAbortByte 0x32 = false ∧ isAbortByte 0x30 = false ∧ isAbortByte 0x7e = false := by decide
  have hlead : byteOf 'M' = 0x4d ∧ byteOf '?' = 0x3f := by decide
  simp [processInputBytes, pasteStartSequenceBytes, processInputByte, processGroundByte, processEscapeByte,
    processCsiByte, escapeByte, bytesOf_pasteParameter, hbracket, hfinal, habort, hlead, maxCsiByteCount, startPaste]

/-- The parser after `consumedBytes` of a paste, when none of the beginnings checked was past the limit. -/
def collectPaste (parser : Parser) (consumedBytes : List UInt8) (matched : Nat) : Parser :=
  { parser with
    parserState := .paste
    controlSequence := []
    pasteBytes := consumedBytes.take (consumedBytes.length - matched)
    pasteMarkerMatchLength := matched }

/-- The parser after the bytes of a paste that is discarded. -/
def dropPaste (parser : Parser) (matched : Nat) : Parser :=
  { parser with
    parserState := .discardPaste
    controlSequence := []
    pasteBytes := []
    pasteMarkerMatchLength := matched }

theorem take_append_take {bytes : List UInt8} {matched : Nat} (h : Matches bytes matched) :
    bytes.take (bytes.length - matched) ++ pasteEndSequenceBytes.take matched = bytes := by
  obtain ⟨before, hb⟩ := h.isSuffix
  have hlt := h.lt
  have hlen := congrArg List.length hb
  rw [length_append, length_take] at hlen
  conv_lhs => rw [← hb]
  rw [hb, show bytes.length - matched = before.length by omega]
  conv_rhs => rw [← hb]
  rw [← hb, take_left]

variable {parser : Parser} {bytes : List UInt8} {matched : Nat} {byte : UInt8}

theorem processInputByte_collectPaste (h : Matches bytes matched) (hl : ¬pasteEndSequenceBytes <:+ bytes ++ [byte]) :
    ∃ nextLen, Matches (bytes ++ [byte]) nextLen ∧
      (parser.collectPaste bytes matched).processInputByte tables byte =
        if nextLen = 0 ∧ maxPasteByteCount < bytes.length + 1 then parser.dropPaste nextLen
        else parser.collectPaste (bytes ++ [byte]) nextLen := by
  have hle : matched ≤ bytes.length := by
    have hlen := h.isSuffix.length_le
    have hlt := h.lt
    rw [length_take] at hlen
    omega
  change ∃ nextLen, _ ∧ (parser.collectPaste bytes matched).processPasteByte byte false = _
  by_cases hb : pasteEndSequenceBytes[matched]? = some byte
  · have hlt := h.succ_lt hb hl
    refine ⟨matched + 1, h.concat_matched hb hlt, ?_⟩
    rw [processPasteByte_matched _ _ _ hb hlt, if_neg (by omega), collectPaste, collectPaste, length_append,
      length_singleton, Nat.add_sub_add_right, take_append_of_le_length (by omega)]
  · refine ⟨_, h.concat_unmatched hb, ?_⟩
    by_cases hescape : byte = escapeByte
    · rw [processPasteByte_restarted _ _ _ hb hescape, if_pos hescape]
      simp only [collectPaste, take_append_take h, length_append, length_singleton, Nat.add_sub_cancel,
        take_left, Bool.false_eq_true, if_false, Nat.one_ne_zero, false_and]
    · rw [processPasteByte_unmatched _ _ _ hb hescape, if_neg hescape]
      simp only [collectPaste, take_append_take h, Bool.false_eq_true, if_false, pushPasteByte, length_append,
        length_singleton, gt_iff_lt, true_and, Nat.sub_zero]
      split_ifs with hover
      · rfl
      · rw [take_of_length_le (by rw [length_append, length_singleton])]

theorem processInputByte_dropPaste (h : Matches bytes matched) (hl : ¬pasteEndSequenceBytes <:+ bytes ++ [byte]) :
    ∃ nextLen, Matches (bytes ++ [byte]) nextLen ∧
      (parser.dropPaste matched).processInputByte tables byte = parser.dropPaste nextLen := by
  change ∃ nextLen, _ ∧ (parser.dropPaste matched).processPasteByte byte true = _
  by_cases hb : pasteEndSequenceBytes[matched]? = some byte
  · have hlt := h.succ_lt hb hl
    refine ⟨matched + 1, h.concat_matched hb hlt, ?_⟩
    rw [processPasteByte_matched _ _ _ hb hlt]
    rfl
  · refine ⟨_, h.concat_unmatched hb, ?_⟩
    by_cases hescape : byte = escapeByte
    · rw [processPasteByte_restarted _ _ _ hb hescape, if_pos hescape]
      rfl
    · rw [processPasteByte_unmatched _ _ _ hb hescape, if_neg hescape]
      rfl

variable (parser) (bytes)

/-- The parser after any bytes of a paste in which the end sequence has not come yet. -/
theorem processInputBytes_startPaste (hen : ∀ first, first <+: bytes → ¬pasteEndSequenceBytes <:+ first) :
    ∃ matched, Matches bytes matched ∧
      (OverrunsPaste bytes → parser.startPaste.processInputBytes tables bytes = parser.dropPaste matched) ∧
      (¬OverrunsPaste bytes →
        parser.startPaste.processInputBytes tables bytes = parser.collectPaste bytes matched) := by
  induction bytes using List.reverseRecOn with
  | nil => exact ⟨0, Matches.nil, fun hover => absurd hover not_overrunsPaste_nil, fun _ => rfl⟩
  | append_singleton bytes byte ih =>
    obtain ⟨matched, hmatches, hdp, hcollected⟩ :=
      ih fun first hst => hen first (hst.trans (prefix_append _ _))
    have hl := hen (bytes ++ [byte]) prefix_rfl
    have hrun : parser.startPaste.processInputBytes tables (bytes ++ [byte]) =
        (parser.startPaste.processInputBytes tables bytes).processInputByte tables byte :=
      processInputBytes_append tables _ _ _
    rw [hrun]
    by_cases hover : OverrunsPaste bytes
    · obtain ⟨nextLen, hn, hstep⟩ := @processInputByte_dropPaste tables parser _ _ _ hmatches hl
      refine ⟨nextLen, hn, fun _ => ?_, fun hnot => absurd (overrunsPaste_concat.mpr (.inl hover)) hnot⟩
      rw [hdp hover, hstep]
    · obtain ⟨nextLen, hn, hstep⟩ := @processInputByte_collectPaste tables parser _ _ _ hmatches hl
      refine ⟨nextLen, hn, fun hnow => ?_, fun hnot => ?_⟩
      · obtain hb | ⟨hlen, hends⟩ := overrunsPaste_concat.mp hnow
        · exact absurd hb hover
        · rw [hn.endsInPartialEnd_iff, not_not] at hends
          rw [hcollected hover, hstep, if_pos ⟨hends, hlen⟩]
      · rw [hcollected hover, hstep, if_neg]
        rintro ⟨hz, hlen⟩
        apply hnot
        rw [overrunsPaste_concat, hn.endsInPartialEnd_iff]
        exact .inr ⟨hlen, fun hne => hne hz⟩

end Paste

end Parser

/-! ### The end of a paste -/

theorem pasteEnd_eq : pasteEndSequenceBytes = pasteEndSequenceBytes.dropLast ++ [0x7e] := rfl

theorem EndsFirstAtEnd.not_suffix {pasted first : List UInt8} (h : EndsFirstAtEnd pasted)
    (hst : first <+: pasted ++ pasteEndSequenceBytes.dropLast) :
    ¬pasteEndSequenceBytes <:+ first := by
  rintro ⟨before, rfl⟩
  have hlen := hst.length_le
  rw [length_append, length_append, length_dropLast, length_pasteEnd] at hlen
  apply h before.length (by omega)
  obtain ⟨after, haf⟩ := hst
  rw [pasteEnd_eq, ← append_assoc, ← haf, ← pasteEnd_eq, append_assoc, append_assoc, drop_left]
  exact prefix_append _ _

theorem overrunsPaste_append_end {pasted : List UInt8} :
    OverrunsPaste (pasted ++ pasteEndSequenceBytes.dropLast) ↔ OverrunsPaste pasted := by
  constructor
  · rintro ⟨first, hst, hlen, hends⟩
    obtain hshort | ⟨partialEnd, rfl⟩ := prefix_or_prefix_of_prefix hst (prefix_append _ _)
    · exact ⟨first, hshort, hlen, hends⟩
    · have hpart := (prefix_append_right_inj _).mp hst
      have hshorter := hpart.length_le
      rw [length_dropLast] at hshorter
      obtain rfl | hne := eq_or_ne partialEnd []
      · refine ⟨pasted, prefix_rfl, ?_, ?_⟩
        · rw [append_nil] at hlen
          exact hlen
        · rw [append_nil] at hends
          exact hends
      · have hpos := length_pos_iff.mpr hne
        have htake := prefix_iff_eq_take.mp (hpart.trans ( dropLast_prefix _))
        refine absurd ⟨partialEnd.length, hpos, ?_, ?_⟩ hends
        · rw [length_pasteEnd] at hshorter ⊢
          omega
        · rw [← htake]
          exact suffix_append _ _
  · rintro ⟨first, hst, hlen, hends⟩
    exact ⟨first, hst.trans (prefix_append _ _), hlen, hends⟩

/-- **What a whole paste leaves behind**: its text is queued exactly when the limit was never found passed. -/
theorem processInputBytes_paste (tables : CaseTables) (parser : Parser) (hground : parser.parserState = .ground)
    (pasted : List UInt8) (hen : EndsFirstAtEnd pasted) :
    (OverrunsPaste pasted →
      parser.processInputBytes tables (pasteStartSequenceBytes ++ pasted ++ pasteEndSequenceBytes) =
        parser.resetInputParser) ∧
    (¬OverrunsPaste pasted →
      parser.processInputBytes tables (pasteStartSequenceBytes ++ pasted ++ pasteEndSequenceBytes) =
        parser.resetInputParser.pushEvent (.paste (fromUtf8Lossy pasted))) := by
  obtain ⟨matched, hmatches, hdp, hcollected⟩ := parser.processInputBytes_startPaste tables
    (pasted ++ pasteEndSequenceBytes.dropLast) fun first hst => hen.not_suffix hst
  have hlen : 5 = matched :=
    hmatches.eq_of_take_suffix (by decide) (by decide) (suffix_append _ _)
  subst hlen
  rw [overrunsPaste_append_end] at hdp hcollected
  have hrun : parser.processInputBytes tables (pasteStartSequenceBytes ++ pasted ++ pasteEndSequenceBytes) =
      (parser.startPaste.processInputBytes tables (pasted ++ pasteEndSequenceBytes.dropLast)).processInputByte
        tables 0x7e := by
    rw [append_assoc, processInputBytes_append, parser.processInputBytes_start tables hground]
    conv_lhs => rw [pasteEnd_eq, ← append_assoc, processInputBytes_append]
    rfl
  rw [hrun]
  constructor
  · intro hover
    rw [hdp hover]
    change (parser.dropPaste 5).processPasteByte 0x7e true = _
    rw [processPasteByte_completed _ _ _ rfl rfl]
    simp [dropPaste, resetInputParser]
  · intro hover
    rw [hcollected hover]
    change (parser.collectPaste _ 5).processPasteByte 0x7e false = _
    rw [processPasteByte_completed _ _ _ rfl rfl]
    simp [collectPaste, resetInputParser, pushEvent, length_pasteEnd]

structure FramesPaste (parser final : Parser) (pasted : List UInt8) : Prop where
  ground : final.parserState = .ground
  queued : ∃ newEvents, final.pendingEvents = parser.pendingEvents ++ newEvents ∧
    newEvents.filter Event.isPaste =
      (if pasted.length ≤ maxPasteByteCount then [.paste (fromUtf8Lossy pasted)] else []) ∧
    ∀ event ∈ newEvents, event.isKey = false

theorem framesPaste_reset_iff (parser : Parser) (pasted : List UInt8) :
    FramesPaste parser parser.resetInputParser pasted ↔ maxPasteByteCount < pasted.length := by
  constructor
  · rintro ⟨-, newEvents, hqd, hpaste, -⟩
    by_contra hle
    have hnone : newEvents = [] := by
      rw [← append_cancel_left_eq parser.pendingEvents, ← hqd, append_nil]
      rfl
    rw [if_pos (by omega), hnone] at hpaste
    exact cons_ne_nil _ _ hpaste.symm
  · intro hlong
    refine ⟨rfl, [], (append_nil _).symm, ?_, fun event hev => absurd hev not_mem_nil⟩
    rw [if_neg (by omega)]
    rfl

theorem framesPaste_pushEvent_iff (parser : Parser) (pasted : List UInt8) :
    FramesPaste parser (parser.resetInputParser.pushEvent (.paste (fromUtf8Lossy pasted))) pasted ↔
      pasted.length ≤ maxPasteByteCount := by
  constructor
  · rintro ⟨-, newEvents, hqd, hpaste, -⟩
    by_contra hlong
    have hone : newEvents = [.paste (fromUtf8Lossy pasted)] := append_cancel_left hqd.symm
    rw [if_neg hlong, hone] at hpaste
    exact cons_ne_nil _ _ hpaste
  · intro hle
    refine ⟨rfl, [.paste (fromUtf8Lossy pasted)], rfl, ?_, ?_⟩
    · rw [if_pos hle]
      rfl
    · intro event hev
      rw [mem_singleton.mp hev]
      rfl

/-- **When a paste is framed**: within the limit, or past it at a byte after which the limit is checked. A paste past
the limit only inside beginnings of the end sequence is queued whole. -/
theorem processInputBytes_framesPaste_iff (tables : CaseTables) (parser : Parser)
    (hground : parser.parserState = .ground) (pasted : List UInt8) (hend : EndsFirstAtEnd pasted)
    (chunks : List (List UInt8))
    (hchunks : chunks.flatten = pasteStartSequenceBytes ++ pasted ++ pasteEndSequenceBytes) :
    FramesPaste parser (chunks.foldl (processInputBytes tables) parser) pasted ↔
      pasted.length ≤ maxPasteByteCount ∨ OverrunsPaste pasted := by
  obtain ⟨hdropped, hqueued⟩ := processInputBytes_paste tables parser hground pasted hend
  rw [foldl_processInputBytes, hchunks]
  by_cases hover : OverrunsPaste pasted
  · rw [hdropped hover, framesPaste_reset_iff]
    exact ⟨fun _ => .inr hover, fun _ => hover.length⟩
  · rw [hqueued hover, framesPaste_pushEvent_iff]
    exact ⟨.inl, fun h => h.resolve_right hover⟩

/-- A paste of `hi`, cut inside both of its markers. -/
theorem processInputBytes_framesPaste_iff_threeChunks :
    FramesPaste .default
      ([[0x1b, 0x5b, 0x32, 0x30], [0x30, 0x7e, 0x68, 0x69, 0x1b], [0x5b, 0x32, 0x30, 0x31, 0x7e]].foldl
        (processInputBytes Config.latinTables) .default) [0x68, 0x69] :=
  (processInputBytes_framesPaste_iff Config.latinTables .default rfl [0x68, 0x69]
    (by unfold EndsFirstAtEnd; decide) [[0x1b, 0x5b, 0x32, 0x30], [0x30, 0x7e, 0x68, 0x69, 0x1b],
      [0x5b, 0x32, 0x30, 0x31, 0x7e]] rfl).2 (.inl (by decide))

theorem endsFirstAtEnd_replicate_escape (byteCount : Nat) : EndsFirstAtEnd (List.replicate byteCount escapeByte) := by
  intro index hidx hst
  rw [length_replicate] at hidx
  obtain ⟨after, haf⟩ := hst
  -- the second byte of the end sequence is no ESC, and every byte up to the real end is one
  have hse : (List.replicate byteCount escapeByte ++ pasteEndSequenceBytes)[index + 1]? = some 0x5b := by
    rw [← List.getElem?_drop, ← haf]
    rfl
  rw [List.getElem?_append, length_replicate] at hse
  split_ifs at hse with hlt
  · rw [List.getElem?_replicate, if_pos hlt] at hse
    exact absurd hse (by decide)
  · rw [show index + 1 - byteCount = 0 by omega] at hse
    exact absurd hse (by decide)

/-- A paste of ESC bytes alone is inside a beginning of the end sequence after each of them. -/
theorem not_overrunsPaste_replicate_escape (byteCount : Nat) :
    ¬OverrunsPaste (List.replicate byteCount escapeByte) := by
  rintro ⟨first, hst, hlen, hends⟩
  apply hends
  obtain ⟨beforeBytes, lastByte, rfl⟩ :=
    (eq_nil_or_concat' first).resolve_left (length_pos_iff.mp (by omega))
  have hl : lastByte = escapeByte :=
    eq_of_mem_replicate (hst.mem (mem_append_right _ (mem_singleton_self _)))
  refine ⟨1, by decide, by decide, ?_⟩
  rw [hl]
  exact suffix_append _ _

/-- One ESC past the limit is queued whole. -/
theorem not_framesPaste_escapes :
    EndsFirstAtEnd (List.replicate (maxPasteByteCount + 1) escapeByte) ∧
    ¬FramesPaste .default
      ([pasteStartSequenceBytes ++ List.replicate (maxPasteByteCount + 1) escapeByte ++ pasteEndSequenceBytes].foldl
        (processInputBytes Config.latinTables) .default)
      (List.replicate (maxPasteByteCount + 1) escapeByte) := by
  have hend := endsFirstAtEnd_replicate_escape (maxPasteByteCount + 1)
  obtain ⟨-, hqueued⟩ := processInputBytes_paste Config.latinTables .default rfl _ hend
  refine ⟨hend, ?_⟩
  rw [foldl_processInputBytes, flatten_singleton, hqueued (not_overrunsPaste_replicate_escape _),
    framesPaste_pushEvent_iff, length_replicate]
  omega

end Koshi.Input.Host
