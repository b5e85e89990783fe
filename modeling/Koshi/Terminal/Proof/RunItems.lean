import Mathlib.Tactic
import Koshi.Terminal.Proof.StyleTable

/-!
# The items of a run

What the bytes of one run mean: a list of items, each a base character with a shape, continuation characters
and a repeat count. The text holds one character per item and the exceptions say where an item is not one
plain narrow cell. `decodeRunLoop` reads the bytes of a list of items as the cells of the items, in the fast
path for ASCII stretches as in the item by item one.
-/

namespace Koshi.Terminal

open Koshi.Base Koshi.Core ExceptionPayload ItemException ExceptionReader List

variable {previous : Nat}

/-! ### UTF-8 text -/

theorem utf8EncodeChar_of_isAscii {char : Char} (hascii : isAscii char) :
    String.utf8EncodeChar char = [char.toNat.toUInt8] := by
  have hlt : char.toNat < 128 := by simpa [isAscii] using hascii
  have hle : char.val.toNat ≤ 0x7f := Nat.le_of_lt_succ hlt
  unfold String.utf8EncodeChar
  rw [if_pos hle]
  rfl

theorem isAsciiByte_toUInt8 {char : Char} (hascii : isAscii char) :
    isAsciiByte char.toNat.toUInt8 ∧ Char.ofNat char.toNat.toUInt8.toNat = char := by
  have hlt : char.toNat < 128 := by simpa [isAscii] using hascii
  have hb : char.toNat.toUInt8.toNat = char.toNat := by
    simp only [Nat.toUInt8, UInt8.toNat_ofNat']
    omega
  refine ⟨by simpa [isAsciiByte, hb] using hlt, ?_⟩
  rw [hb, Char.ofNat_toNat]

theorem utf8EncodeChar_of_not_isAscii {char : Char} (hascii : ¬ isAscii char) :
    ∃ firstByte otherBytes, String.utf8EncodeChar char = firstByte :: otherBytes ∧ ¬ isAsciiByte firstByte := by
  have hge : ¬ char.val.toNat ≤ 0x7f := by
    have : ¬ char.toNat < 128 := by simpa [isAscii] using hascii
    intro hle
    exact this (Nat.lt_succ_of_le hle)
  unfold String.utf8EncodeChar
  rw [if_neg hge]
  split_ifs
  all_goals
    refine ⟨_, _, rfl, ?_⟩
    simp only [isAsciiByte, UInt8.toNat_ofNat', decide_eq_true_eq]
    omega

theorem decodeCharacter?_utf8EncodeChar_append (char : Char) (tail : List UInt8) :
    decodeCharacter? (String.utf8EncodeChar char ++ tail) = some char := by
  rw [decodeCharacter?, toByteArray_append, ByteArray.utf8DecodeChar?_utf8EncodeChar_append]

theorem drop_utf8Size_utf8EncodeChar_append (char : Char) (tail : List UInt8) :
    (String.utf8EncodeChar char ++ tail).drop char.utf8Size = tail := by
  rw [← String.length_utf8EncodeChar, drop_left]

variable (chars : List Char)

theorem decodeUtf8Loop_flatMap (ts : Nat) (hturns : (chars.flatMap String.utf8EncodeChar).length ≤ ts) :
    decodeUtf8Loop ts (chars.flatMap String.utf8EncodeChar) = some chars := by
  induction chars generalizing ts with
  | nil => cases ts <;> rfl
  | cons char chars ih =>
    have hpos := char.utf8Size_pos
    rw [flatMap_cons, length_append, String.length_utf8EncodeChar] at hturns
    obtain _ | ts := ts
    · omega
    · obtain ⟨firstByte, otherBytes, hby⟩ : ∃ firstByte otherBytes, (char :: chars).flatMap String.utf8EncodeChar =
          firstByte :: otherBytes := by
        apply exists_cons_of_ne_nil
        rw [flatMap_cons]
        exact append_ne_nil_of_left_ne_nil String.utf8EncodeChar_ne_nil _
      rw [hby, decodeUtf8Loop, ← hby, flatMap_cons, decodeCharacter?_utf8EncodeChar_append]
      · simp only
        rw [drop_utf8Size_utf8EncodeChar_append, ih ts (by omega)]
        rfl
      · simp

theorem fromUtf8?_flatMap : fromUtf8? (chars.flatMap String.utf8EncodeChar) = some chars :=
  decodeUtf8Loop_flatMap chars _ (Nat.le_refl _)

theorem countUtf8Bytes_eq_length : countUtf8Bytes chars = (chars.flatMap String.utf8EncodeChar).length := by
  simp [countUtf8Bytes, length_flatMap]

/-! ### Items -/

structure RunItem where
  character : Char
  itemShape : ItemShape
  combiningCharacters : List Char
  repeatItemCount : Nat

variable (runStyle : Style) {item : RunItem}

namespace RunItem

/-- An item that takes no exception: one narrow cell. -/
def plain (character : Char) : RunItem := ⟨character, .single 1, [], 1⟩

/-- What the encoder writes and the decoder accepts. -/
structure Valid (item : RunItem) : Prop where
  width : ∀ displayWidth, item.itemShape = .single displayWidth → displayWidth ≤ 2
  combining : item.combiningCharacters.length ≤ maxGraphemeContinuationCount
  repeat_pos : 0 < item.repeatItemCount
  repeat_le : item.repeatItemCount ≤ u16Max

/-- The number of cells the item stands for. -/
def countCells (item : RunItem) : Nat := item.itemShape.countItemCells * item.repeatItemCount

/-- The decoder's state once it read every exception of the item. -/
def itemState (item : RunItem) (lastExceptionKind : Option Nat) : ItemState :=
  ⟨item.itemShape, item.combiningCharacters, item.repeatItemCount, lastExceptionKind⟩

def buildCells (runStyle : Style) (item : RunItem) : List Cell :=
  (replicate item.repeatItemCount (buildItemCells item.character (item.itemState none) runStyle)).flatten

/-- What the exceptions of the item say, in the order they are written. -/
def listExceptionPayloads (item : RunItem) : List ExceptionPayload :=
  (match item.itemShape with
    | .widePair => [.widePair]
    | .single displayWidth => if displayWidth = 1 then [] else [.width displayWidth]) ++
  (if item.combiningCharacters = [] then [] else [.combining item.combiningCharacters]) ++
  (if item.repeatItemCount > 1 then [.repeated (item.repeatItemCount - 1)] else [])

theorem length_buildCells (item : RunItem) : (item.buildCells runStyle).length = item.countCells := by
  have hone : (buildItemCells item.character (item.itemState none) runStyle).length =
      item.itemShape.countItemCells := by
    unfold buildItemCells itemState
    cases item.itemShape <;> rfl
  rw [buildCells, length_flatten, map_replicate, sum_replicate, hone, smul_eq_mul, Nat.mul_comm, countCells]

theorem buildCells_plain (char : Char) : (plain char).buildCells runStyle = [.fromCharacter char 1 runStyle] := rfl

theorem Valid.eq_plain (hv : item.Valid) (hnone : item.listExceptionPayloads = []) : item = plain item.character := by
  obtain ⟨char, itemShape, combining, repeatCount⟩ := item
  have hpos := hv.repeat_pos
  simp only [listExceptionPayloads, append_eq_nil_iff, ite_eq_left_iff, ite_eq_right_iff,
    cons_ne_nil, imp_false, not_not, Nat.not_lt] at hnone hpos
  obtain ⟨⟨hshape, hcomb⟩, hrepeat⟩ := hnone
  cases itemShape with
  | widePair => simp at hshape
  | single displayWidth =>
    simp only [ite_eq_left_iff, cons_ne_nil, imp_false, not_not] at hshape
    subst hshape hcomb
    rw [show repeatCount = 1 by omega]
    rfl

end RunItem

/-! ### Exceptions -/

namespace ExceptionPayload

def exceptionKind : ExceptionPayload → Nat
  | .widePair => widePairExceptionKind
  | .width _ => widthExceptionKind
  | .combining _ => combiningExceptionKind
  | .repeated _ => repeatExceptionKind

def writePayload : ExceptionPayload → List UInt8
  | .widePair => []
  | .width displayWidth => writeVarint displayWidth
  | .combining marks =>
    writeVarint (countUtf8Bytes marks) ++ marks.flatMap String.utf8EncodeChar
  | .repeated extraCount => writeVarint extraCount

def Valid : ExceptionPayload → Prop
  | .widePair => True
  | .width displayWidth => displayWidth ≤ 2
  | .combining marks => marks.length ≤ maxGraphemeContinuationCount
  | .repeated extraCount => extraCount < u16Max

end ExceptionPayload

theorem countUtf8Bytes_le : countUtf8Bytes chars ≤ 4 * chars.length := by
  induction chars with
  | nil => simp [countUtf8Bytes]
  | cons char chars ih =>
    have := char.utf8Size_le_four
    simp only [countUtf8Bytes, map_cons, sum_cons, length_cons] at ih ⊢
    omega

theorem readExceptionPayload_writePayload (payload : ExceptionPayload) (hv : payload.Valid) (tail : List UInt8) :
    readExceptionPayload payload.exceptionKind (payload.writePayload ++ tail) = .ok (payload, tail) := by
  cases payload with
  | widePair => rfl
  | width displayWidth =>
    have hle : displayWidth ≤ 2 := hv
    simp only [ExceptionPayload.exceptionKind, ExceptionPayload.writePayload, widthExceptionKind,
      readExceptionPayload, bind, Except.bind, ByteReader.readVarint_writeVarint (show displayWidth < 2 ^ 64 by omega)]
    rw [if_neg (by omega)]
  | combining marks =>
    have hle : marks.length ≤ 32 := hv
    have hby := countUtf8Bytes_le marks
    simp only [ExceptionPayload.exceptionKind, ExceptionPayload.writePayload, combiningExceptionKind,
      readExceptionPayload, bind, Except.bind, append_assoc,
      ByteReader.readVarint_writeVarint (show countUtf8Bytes marks < 2 ^ 64 by omega)]
    rw [countUtf8Bytes_eq_length, ByteReader.readBytes_append]
    simp only [fromUtf8?_flatMap]
  | repeated extraCount =>
    have hlt : extraCount < 65535 := hv
    simp only [ExceptionPayload.exceptionKind, ExceptionPayload.writePayload, repeatExceptionKind,
      readExceptionPayload, bind, Except.bind, ByteReader.readVarint_writeVarint (show extraCount < 2 ^ 64 by omega)]

def ItemException.ofPayload (itemIndex : Nat) (payload : ExceptionPayload) : ItemException :=
  ⟨itemIndex, payload.exceptionKind, payload⟩

def writeExceptions : Nat → List ItemException → List UInt8
  | _, [] => []
  | previous, exception :: exceptions =>
    writeVarint (exception.itemIndex - previous) ++ writeVarint exception.exceptionKind ++
      exception.payload.writePayload ++ writeExceptions exception.itemIndex exceptions

def ExceptionsFrom : Nat → List ItemException → Prop
  | _, [] => True
  | previous, exception :: exceptions =>
    previous ≤ exception.itemIndex ∧ exception.itemIndex ≤ u16Max ∧
      exception.exceptionKind = exception.payload.exceptionKind ∧ exception.payload.Valid ∧
      ExceptionsFrom exception.itemIndex exceptions

def ExceptionReader.readAhead (exceptions : List ItemException) : ExceptionReader :=
  ⟨exceptions.head?, exceptions.length - 1⟩

def bytesAfterReadAhead (exceptions : List ItemException) (suffix : List UInt8) : List UInt8 :=
  match exceptions with
  | [] => suffix
  | exception :: exceptions => writeExceptions exception.itemIndex exceptions ++ suffix

theorem readNextException_writeExceptions {exceptions : List ItemException} (hfrom : ExceptionsFrom previous exceptions)
    (tail : List UInt8) :
    readNextException exceptions.length previous (writeExceptions previous exceptions ++ tail) =
      .ok (.readAhead exceptions, bytesAfterReadAhead exceptions tail) := by
  cases exceptions with
  | nil => rfl
  | cons exception exceptions =>
    obtain ⟨hle, hbo, hki, hv, -⟩ := hfrom
    have hkindLt : exception.payload.exceptionKind < 2 ^ 64 := by
      cases exception.payload <;> norm_num [ExceptionPayload.exceptionKind, widePairExceptionKind,
        widthExceptionKind, combiningExceptionKind, repeatExceptionKind]
    unfold u16Max at hbo
    rw [length_cons, writeExceptions, readNextException]
    simp only [append_assoc, bind, Except.bind, hki,
      ByteReader.readVarint_writeVarint (show exception.itemIndex - previous < 2 ^ 64 by omega),
      ByteReader.readVarint_writeVarint hkindLt, readExceptionPayload_writePayload _ hv]
    rw [if_neg (by unfold u64Max; omega), Nat.add_sub_cancel' hle, ← hki]
    rfl

def applyPayloads (itemIndex : Nat) (itemState : ItemState) : List ExceptionPayload → Except RowDecodeError ItemState
  | [] => .ok itemState
  | payload :: payloads =>
    match applyItemException itemState (.ofPayload itemIndex payload) with
    | .error error => .error error
    | .ok itemState => applyPayloads itemIndex itemState payloads

theorem applyPayloads_listExceptionPayloads (itemIndex : Nat) (hv : item.Valid) :
    ∃ lastExceptionKind, applyPayloads itemIndex .initial item.listExceptionPayloads =
      .ok (item.itemState lastExceptionKind) := by
  obtain ⟨char, itemShape, combining, repeatItemCount⟩ := item
  have hpos : 0 < repeatItemCount := hv.repeat_pos
  have hle : repeatItemCount ≤ 65535 := hv.repeat_le
  have hc : ¬ maxGraphemeContinuationCount < combining.length := Nat.not_lt.2 hv.combining
  have hmin : min (repeatItemCount - 1 + 1) u64Max = repeatItemCount := by unfold u64Max; omega
  have hrepeat : ¬ repeatItemCount > 1 → repeatItemCount = 1 := by omega
  cases itemShape with
  | widePair =>
    by_cases hcomb : combining = [] <;> by_cases hmany : repeatItemCount > 1
    all_goals
      simp [RunItem.listExceptionPayloads, RunItem.itemState, applyPayloads, applyItemException,
        ItemException.ofPayload, ItemState.initial, isExceptionInOrder, ExceptionPayload.exceptionKind,
        widePairExceptionKind, widthExceptionKind, combiningExceptionKind, repeatExceptionKind, hcomb, hmany,
        hmin, hc, hrepeat]
  | single displayWidth =>
    by_cases hwd : displayWidth = 1 <;> by_cases hcomb : combining = [] <;> by_cases hmany : repeatItemCount > 1
    all_goals
      simp [RunItem.listExceptionPayloads, RunItem.itemState, applyPayloads, applyItemException,
        ItemException.ofPayload, ItemState.initial, isExceptionInOrder, ExceptionPayload.exceptionKind,
        widePairExceptionKind, widthExceptionKind, combiningExceptionKind, repeatExceptionKind, hwd, hcomb,
        hmany, hmin, hc, hrepeat]

variable {itemIndex : Nat}

theorem readItemExceptions_append (pays : List ExceptionPayload) (later : List ItemException) (tail : List UInt8)
    {itemState finalState : ItemState} (hlr : ∀ exception ∈ later.head?, exception.itemIndex ≠ itemIndex)
    (hfrom : ExceptionsFrom previous (pays.map (.ofPayload itemIndex) ++ later))
    (happly : applyPayloads itemIndex itemState pays = .ok finalState) :
    readItemExceptions itemIndex (readAhead (pays.map (.ofPayload itemIndex) ++ later)).remainingExceptionCount
        (readAhead (pays.map (.ofPayload itemIndex) ++ later)).nextException itemState
        (bytesAfterReadAhead (pays.map (.ofPayload itemIndex) ++ later) tail) =
      .ok ((finalState, .readAhead later), bytesAfterReadAhead later tail) := by
  induction pays generalizing itemState previous with
  | nil =>
    obtain rfl : itemState = finalState := by simpa [applyPayloads] using happly
    rw [map_nil, nil_append]
    cases later with
    | nil => rfl
    | cons exception later =>
      have hne : exception.itemIndex ≠ itemIndex := hlr exception rfl
      cases later <;> simp [readAhead, readItemExceptions, hne]
  | cons payload pays ih =>
    rw [applyPayloads] at happly
    split at happly
    · simp at happly
    · next nextState hn =>
      rw [map_cons, cons_append] at hfrom ⊢
      obtain ⟨-, -, -, -, hr⟩ := hfrom
      have ih := ih hr happly
      generalize pays.map (ofPayload itemIndex) ++ later = others at *
      simp only [readAhead, head?_cons, length_cons, Nat.add_sub_cancel, bytesAfterReadAhead]
      cases others with
      | nil =>
        simp only [length_nil]
        rw [readItemExceptions, if_neg (by simp [ofPayload]), hn]
        simpa [bind, Except.bind, readAhead, readItemExceptions, bytesAfterReadAhead, writeExceptions] using ih
      | cons other others =>
        rw [length_cons, readItemExceptions, if_neg (by simp [ofPayload]), hn]
        simp only [bind, Except.bind]
        have hrd := readNextException_writeExceptions hr tail
        rw [length_cons] at hrd
        rw [hrd]
        simpa [readAhead, bytesAfterReadAhead] using ih

/-! ### The bytes of a list of items -/

def listRunExceptions : Nat → List RunItem → List ItemException
  | _, [] => []
  | itemIndex, item :: items =>
    item.listExceptionPayloads.map (.ofPayload itemIndex) ++ listRunExceptions (itemIndex + 1) items

def writeItemText (items : List RunItem) : List UInt8 :=
  items.flatMap fun item => String.utf8EncodeChar item.character

def buildRunCells (runStyle : Style) (items : List RunItem) : List Cell := items.flatMap (·.buildCells runStyle)

theorem listExceptionPayloads_valid (hv : item.Valid) : ∀ payload ∈ item.listExceptionPayloads, payload.Valid := by
  intro payload hm
  simp only [RunItem.listExceptionPayloads, mem_append] at hm
  rcases hm with (hm | hm) | hm
  · cases hshape : item.itemShape with
    | widePair =>
      rw [hshape] at hm
      obtain rfl : payload = .widePair := by simpa using hm
      trivial
    | single displayWidth =>
      simp only [hshape] at hm
      split at hm
      · simp at hm
      · obtain rfl : payload = .width displayWidth := by simpa using hm
        exact hv.width displayWidth hshape
  · split at hm
    · simp at hm
    · obtain rfl : payload = .combining item.combiningCharacters := by simpa using hm
      exact hv.combining
  · split at hm
    · obtain rfl : payload = .repeated (item.repeatItemCount - 1) := by simpa using hm
      have := hv.repeat_pos
      have := hv.repeat_le
      simp only [ExceptionPayload.Valid]
      omega
    · simp at hm

theorem exceptionsFrom_map_append {pays : List ExceptionPayload} (hv : ∀ payload ∈ pays, payload.Valid)
    (hle : previous ≤ itemIndex) (hbo : itemIndex ≤ u16Max) {later : List ItemException}
    (hlr : ∀ index, index ≤ itemIndex → ExceptionsFrom index later) :
    ExceptionsFrom previous (pays.map (.ofPayload itemIndex) ++ later) := by
  induction pays generalizing previous with
  | nil => exact hlr previous hle
  | cons payload pays ih =>
    refine ⟨hle, hbo, rfl, hv payload (by simp), ?_⟩
    exact ih (fun other ho => hv other (by simp [ho])) (Nat.le_refl itemIndex)

theorem exceptionsFrom_listRunExceptions {items : List RunItem} (hv : ∀ item ∈ items, item.Valid)
    (hbo : itemIndex + items.length ≤ u16Max) :
    ∀ index, index ≤ itemIndex → ExceptionsFrom index (listRunExceptions itemIndex items) := by
  induction items generalizing itemIndex with
  | nil => intro index _; trivial
  | cons item items ih =>
    intro index hidx
    rw [length_cons] at hbo
    refine exceptionsFrom_map_append (listExceptionPayloads_valid (hv item (by simp))) hidx (by omega) ?_
    intro other ho
    exact ih (fun later hlr => hv later (by simp [hlr])) (by omega) other (by omega)

theorem head?_listRunExceptions_ge (items : List RunItem) (itemIndex : Nat) :
    ∀ exception ∈ (listRunExceptions itemIndex items).head?, itemIndex ≤ exception.itemIndex := by
  induction items generalizing itemIndex with
  | nil => simp [listRunExceptions]
  | cons item items ih =>
    intro exception hm
    rw [listRunExceptions, head?_append] at hm
    cases hpays : item.listExceptionPayloads with
    | nil =>
      rw [hpays] at hm
      have := ih (itemIndex + 1) exception (by simpa using hm)
      omega
    | cons payload payloads =>
      rw [hpays] at hm
      obtain rfl : ofPayload itemIndex payload = exception := by simpa using hm
      exact Nat.le_refl itemIndex

variable (fst second : List RunItem)

theorem listRunExceptions_append (itemIndex : Nat) :
    listRunExceptions itemIndex (fst ++ second) =
      listRunExceptions itemIndex fst ++ listRunExceptions (itemIndex + fst.length) second := by
  induction fst generalizing itemIndex with
  | nil => rfl
  | cons item fst ih =>
    rw [cons_append, listRunExceptions, listRunExceptions, ih, append_assoc, length_cons,
      Nat.add_right_comm, Nat.add_assoc]

theorem lt_nextExceptionIndex_listRunExceptions (items : List RunItem) (hidx : itemIndex + 1 + items.length ≤ u16Max) :
    itemIndex < (readAhead (listRunExceptions (itemIndex + 1) items)).nextExceptionItemIndex := by
  rw [nextExceptionItemIndex, readAhead]
  cases hhead : (listRunExceptions (itemIndex + 1) items).head? with
  | none =>
    simp only [Option.map_none, Option.getD_none]
    unfold u16Max at hidx
    unfold u64Max
    omega
  | some exception =>
    have := head?_listRunExceptions_ge items _ exception hhead
    simp only [Option.map_some, Option.getD_some]
    omega

/-! ### ASCII stretches -/

/-- The item takes one ASCII byte and no exception. -/
def RunItem.isPlainAscii (item : RunItem) : Bool :=
  item.listExceptionPayloads.isEmpty && isAscii item.character

theorem RunItem.Valid.eq_plain_of_isPlainAscii (hv : item.Valid) (hpl : item.isPlainAscii) :
    item = .plain item.character ∧ isAscii item.character := by
  simp only [RunItem.isPlainAscii, Bool.and_eq_true, List.isEmpty_iff] at hpl
  exact ⟨hv.eq_plain hpl.1, hpl.2⟩

def asciiItemBytes (items : List RunItem) : List UInt8 := items.map fun item => item.character.toNat.toUInt8

variable {items : List RunItem}

theorem writeItemText_of_isAscii (hascii : ∀ item ∈ items, isAscii item.character) :
    writeItemText items = asciiItemBytes items := by
  induction items with
  | nil => rfl
  | cons item items ih =>
    have ih := ih fun other ho => hascii other (by simp [ho])
    simp only [writeItemText, asciiItemBytes, flatMap_cons, map_cons] at ih ⊢
    rw [ih, utf8EncodeChar_of_isAscii (hascii item (by simp)), singleton_append]

theorem listRunExceptions_of_isPlainAscii (hpl : ∀ item ∈ items, item.isPlainAscii)
    (itemIndex : Nat) : listRunExceptions itemIndex items = [] := by
  induction items generalizing itemIndex with
  | nil => rfl
  | cons item items ih =>
    have hitem : item.listExceptionPayloads = [] := by
      have := hpl item (by simp)
      simp only [RunItem.isPlainAscii, Bool.and_eq_true, List.isEmpty_iff] at this
      exact this.1
    rw [listRunExceptions, hitem, ih fun other ho => hpl other (by simp [ho])]
    rfl

theorem takeWhile_asciiItemBytes_append (hascii : ∀ item ∈ items, isAscii item.character) (tail : List UInt8) :
    (asciiItemBytes items ++ tail).takeWhile isAsciiByte = asciiItemBytes items ++ tail.takeWhile isAsciiByte := by
  apply takeWhile_append_of_pos
  intro byte hm
  obtain ⟨item, hitem, rfl⟩ := mem_map.1 hm
  exact (isAsciiByte_toUInt8 (hascii item hitem)).1

theorem takePlainAsciiBytes_writeItemText {plainItems items' : List RunItem}
    (hpl : ∀ item ∈ plainItems, item.isPlainAscii) (ho : ∀ item ∈ items'.head?, item.isPlainAscii = false)
    (hidx : itemIndex + (plainItems ++ items').length ≤ u16Max) :
    takePlainAsciiBytes itemIndex
        (readAhead (listRunExceptions itemIndex (plainItems ++ items'))).nextExceptionItemIndex
        (writeItemText (plainItems ++ items')) = asciiItemBytes plainItems := by
  have hascii : ∀ item ∈ plainItems, isAscii item.character := by
    intro item hitem
    have := hpl item hitem
    simp only [RunItem.isPlainAscii, Bool.and_eq_true] at this
    exact this.2
  have htext : writeItemText (plainItems ++ items') = asciiItemBytes plainItems ++ writeItemText items' := by
    rw [← writeItemText_of_isAscii hascii]
    simp [writeItemText]
  have hln : (asciiItemBytes plainItems).length = plainItems.length := by simp [asciiItemBytes]
  have hself := takeWhile_asciiItemBytes_append hascii []
  rw [append_nil, takeWhile_nil, append_nil] at hself
  rw [length_append] at hidx
  unfold u16Max at hidx
  rw [listRunExceptions_append, listRunExceptions_of_isPlainAscii hpl, nil_append, htext]
  cases items' with
  | nil =>
    have hn : (readAhead (listRunExceptions (itemIndex + plainItems.length) [])).nextExceptionItemIndex = u64Max := rfl
    have htake : (asciiItemBytes plainItems).take (u64Max - itemIndex) = asciiItemBytes plainItems :=
      take_of_length_le (by rw [hln]; unfold u64Max; omega)
    rw [hn, takePlainAsciiBytes, if_pos (by unfold u64Max; omega), writeItemText, flatMap_nil, append_nil, htake, hself]
  | cons item items' =>
    have hitem : item.isPlainAscii = false := ho item rfl
    cases hpays : item.listExceptionPayloads with
    | cons payload payloads =>
      -- the next exception is the first item's that is not plain
      have hn : (readAhead (listRunExceptions (itemIndex + plainItems.length)
          (item :: items'))).nextExceptionItemIndex = itemIndex + plainItems.length := by
        rw [listRunExceptions, hpays]
        rfl
      rw [hn, takePlainAsciiBytes, Nat.add_sub_cancel_left]
      split_ifs with hlt
      · rw [← hln, take_left, hself]
      · have : plainItems.length = 0 := by omega
        rw [eq_nil_of_length_eq_zero this]
        rfl
    | nil =>
      -- the first item that is not plain starts with a byte past ASCII
      have hnotAscii : ¬ isAscii item.character := by
        intro hisAscii
        simp [RunItem.isPlainAscii, hpays, hisAscii] at hitem
      obtain ⟨firstByte, otherBytes, hby, hf⟩ := utf8EncodeChar_of_not_isAscii hnotAscii
      have hn : itemIndex + plainItems.length < (readAhead (listRunExceptions
          (itemIndex + plainItems.length) (item :: items'))).nextExceptionItemIndex := by
        rw [listRunExceptions, hpays, map_nil, nil_append]
        rw [length_cons] at hidx
        exact lt_nextExceptionIndex_listRunExceptions items' (by unfold u16Max; omega)
      generalize (readAhead (listRunExceptions (itemIndex + plainItems.length)
        (item :: items'))).nextExceptionItemIndex = nextExceptionItemIndex at hn ⊢
      obtain ⟨extraCount, hextra⟩ : ∃ extraCount, nextExceptionItemIndex - itemIndex =
          plainItems.length + (extraCount + 1) := ⟨nextExceptionItemIndex - itemIndex - plainItems.length - 1, by omega⟩
      rw [takePlainAsciiBytes, if_pos (by omega), hextra, ← hln, take_length_add_append,
        takeWhile_asciiItemBytes_append hascii, writeItemText, flatMap_cons, hby, cons_append,
        take_succ_cons, takeWhile_cons_of_neg hf, append_nil]

/-! ### Reading a list of items -/

/-- The number of cells `items` stand for. -/
def countRunCells (items : List RunItem) : Nat := (items.map RunItem.countCells).sum

theorem length_buildRunCells (items : List RunItem) : (buildRunCells runStyle items).length = countRunCells items := by
  simp [buildRunCells, countRunCells, length_flatMap, RunItem.length_buildCells]

theorem countRunCells_append : countRunCells (fst ++ second) = countRunCells fst + countRunCells second := by
  simp [countRunCells]

theorem buildRunCells_of_isPlainAscii (hv : ∀ item ∈ items, item.Valid) (hpl : ∀ item ∈ items, item.isPlainAscii) :
    buildRunCells runStyle items = (asciiItemBytes items).map fun textByte =>
      Cell.fromCharacter (Char.ofNat textByte.toNat) 1 runStyle := by
  induction items with
  | nil => rfl
  | cons item items ih =>
    have ih := ih (fun other ho => hv other (by simp [ho])) fun other ho => hpl other (by simp [ho])
    obtain ⟨hitem, hascii⟩ := (hv item (by simp)).eq_plain_of_isPlainAscii (hpl item (by simp))
    simp only [buildRunCells, asciiItemBytes, flatMap_cons, map_cons] at ih ⊢
    rw [ih, hitem, RunItem.buildCells_plain, singleton_append, RunItem.plain, (isAsciiByte_toUInt8 hascii).2]

theorem readCharacter_writeItemText (runTextKind : RunTextKind) (item : RunItem) (items : List RunItem)
    (hki : runTextKind = .ascii → isAscii item.character) :
    readCharacter runTextKind (writeItemText (item :: items)) = some item.character := by
  rw [writeItemText, flatMap_cons]
  cases runTextKind with
  | ascii =>
    have hascii := hki rfl
    rw [readCharacter, utf8EncodeChar_of_isAscii hascii]
    rw [singleton_append, head?_cons, Option.map_some, (isAsciiByte_toUInt8 hascii).2]
  | utf8 => exact decodeCharacter?_utf8EncodeChar_append _ _

theorem readCharacter_nil (runTextKind : RunTextKind) : readCharacter runTextKind [] = none := by
  cases runTextKind <;> rfl

/-- **The loop over a run reads the bytes of a list of items as their cells**, and leaves the reader at the end
of the exceptions. -/
theorem decodeRunLoop_items (context : RunContext) (items : List RunItem) (ts itemIndex dec : Nat) (tail : List UInt8)
    (rowCells : List Cell) (hv : ∀ item ∈ items, item.Valid)
    (hki : context.runTextKind = .ascii → ∀ item ∈ items, isAscii item.character)
    (hturns : (writeItemText items).length ≤ ts) (hidx : itemIndex + items.length ≤ u16Max)
    (hcx : dec + countRunCells items ≤ context.runEndCellCount) :
    decodeRunLoop context ts (writeItemText items) itemIndex dec (.readAhead (listRunExceptions itemIndex items))
        (bytesAfterReadAhead (listRunExceptions itemIndex items) tail) rowCells =
      .ok (⟨none, 0⟩, dec + countRunCells items, tail, rowCells ++ buildRunCells context.runStyle items) := by
  induction hlen : items.length using Nat.strong_induction_on generalizing items ts itemIndex dec rowCells with
  | _ length ih =>
  subst hlen
  cases items with
  | nil =>
    cases ts with
    | zero => simp [decodeRunLoop, listRunExceptions, readAhead, bytesAfterReadAhead, countRunCells, buildRunCells]
    | succ ts => simp [decodeRunLoop, writeItemText, readCharacter_nil, listRunExceptions,
        readAhead, bytesAfterReadAhead, countRunCells, buildRunCells]
  | cons item items =>
    have hpos := item.character.utf8Size_pos
    have htext : writeItemText (item :: items) = String.utf8EncodeChar item.character ++ writeItemText items := by
      simp [writeItemText]
    obtain _ | ts := ts
    · rw [htext, length_append, String.length_utf8EncodeChar] at hturns
      omega
    rw [decodeRunLoop, readCharacter_writeItemText _ _ _ fun h => hki h item (by simp)]
    simp only
    -- the plain ASCII items at the front, which one turn of the loop takes together
    obtain ⟨plainItems, items', hitems, hpl, ho⟩ : ∃ plainItems items',
        item :: items = plainItems ++ items' ∧ (∀ item ∈ plainItems, item.isPlainAscii) ∧
          ∀ item ∈ items'.head?, item.isPlainAscii = false := by
      refine ⟨(item :: items).takeWhile (·.isPlainAscii), (item :: items).dropWhile (·.isPlainAscii),
        takeWhile_append_dropWhile.symm, fun _ => mem_takeWhile_imp, ?_⟩
      intro other hhead
      have := head?_dropWhile_not (·.isPlainAscii) (item :: items)
      rw [Option.mem_def.1 hhead] at this
      simpa using this
    have hascii := @takePlainAsciiBytes_writeItemText itemIndex _ _ hpl ho (by rwa [← hitems])
    rw [← hitems] at hascii
    rw [hascii]
    have hln : (asciiItemBytes plainItems).length = plainItems.length := by simp [asciiItemBytes]
    rw [hln]
    by_cases hfast : plainItems.length > 0
    · have hokPlain : ∀ item ∈ plainItems, item.Valid := fun other h => hv other (by rw [hitems]; simp [h])
      have hokOther : ∀ item ∈ items', item.Valid := fun other h => hv other (by rw [hitems]; simp [h])
      have hbuild := buildRunCells_of_isPlainAscii context.runStyle hokPlain hpl
      have hc : countRunCells plainItems = plainItems.length := by
        rw [← length_buildRunCells context.runStyle, hbuild, length_map, hln]
      have hdrop : (writeItemText (item :: items)).drop plainItems.length = writeItemText items' := by
        rw [hitems, writeItemText, flatMap_append, ← writeItemText,
          writeItemText_of_isAscii fun other h => (hokPlain other h).eq_plain_of_isPlainAscii (hpl other h) |>.2,
          ← hln, drop_left]
        rfl
      have hturnsOther : (writeItemText items').length ≤ ts := by
        rw [← hdrop, length_drop]
        omega
      have hexceptions : listRunExceptions itemIndex (item :: items) =
          listRunExceptions (itemIndex + plainItems.length) items' := by
        rw [hitems, listRunExceptions_append, listRunExceptions_of_isPlainAscii hpl, nil_append]
      rw [hitems, countRunCells_append, hc] at hcx
      have hlengths : (item :: items).length = plainItems.length + items'.length := by
        rw [hitems, length_append]
      rw [if_pos hfast, if_neg (by omega), hdrop, hexceptions,
        ih items'.length (by omega) items' ts _ _ _ hokOther
          (fun h other hm => hki h other (by rw [hitems]; simp [hm])) hturnsOther (by omega) (by omega) rfl,
        hitems, countRunCells_append, hc, Nat.add_assoc, ← hbuild, append_assoc]
      simp [buildRunCells]
    · rw [if_neg hfast]
      have hturnsItems : (writeItemText items).length ≤ ts := by
        rw [htext, length_append, String.length_utf8EncodeChar] at hturns
        omega
      have hitem : item.isPlainAscii = false := by
        obtain rfl : plainItems = [] := eq_nil_of_length_eq_zero (by omega)
        rw [nil_append] at hitems
        exact ho item (by rw [← hitems]; rfl)
      have hcountCons : countRunCells (item :: items) = item.countCells + countRunCells items := by
        simp [countRunCells]
      have hbuildCons : buildRunCells context.runStyle (item :: items) =
          item.buildCells context.runStyle ++ buildRunCells context.runStyle items := by
        simp [buildRunCells]
      rw [hcountCons] at hcx ⊢
      rw [length_cons] at hidx
      have hokItems : ∀ item ∈ items, item.Valid := fun other h => hv other (by simp [h])
      have hkindItems : context.runTextKind = .ascii → ∀ item ∈ items, isAscii item.character :=
        fun h other hm => hki h other (by simp [hm])
      have hdrop : (writeItemText (item :: items)).drop item.character.utf8Size = writeItemText items := by
        rw [htext, drop_utf8Size_utf8EncodeChar_append]
      cases hpays : item.listExceptionPayloads with
      | nil =>
        have hplainItem := (hv item (by simp)).eq_plain hpays
        have hcountItem : item.countCells = 1 := by rw [hplainItem]; rfl
        have hexceptions : listRunExceptions itemIndex (item :: items) = listRunExceptions (itemIndex + 1) items := by
          rw [listRunExceptions, hpays, map_nil, nil_append]
        rw [hexceptions, if_pos (lt_nextExceptionIndex_listRunExceptions items (by omega)), if_neg (by omega), hdrop,
          ih items.length (by simp) items ts _ _ _ hokItems hkindItems hturnsItems (by omega) (by omega) rfl,
          hcountItem, hbuildCons, hplainItem, RunItem.buildCells_plain, Nat.add_assoc, append_assoc]
        rfl
      | cons payload payloads =>
        have hn : (readAhead (listRunExceptions itemIndex (item :: items))).nextExceptionItemIndex = itemIndex := by
          rw [listRunExceptions, hpays]
          rfl
        obtain ⟨lastKind, happly⟩ :=
          applyPayloads_listExceptionPayloads itemIndex (hv item (by simp))
        have hlr : ∀ exception ∈ (listRunExceptions (itemIndex + 1) items).head?, exception.itemIndex ≠ itemIndex := by
          intro exception hm
          have := head?_listRunExceptions_ge items _ exception hm
          omega
        have hrd := readItemExceptions_append item.listExceptionPayloads
          (listRunExceptions (itemIndex + 1) items) tail hlr
          (exceptionsFrom_listRunExceptions hv hidx itemIndex (Nat.le_refl itemIndex)) happly
        rw [← listRunExceptions] at hrd
        rw [hn, if_neg (Nat.lt_irrefl _), hrd]
        have hcountItem : (item.itemState lastKind).itemShape.countItemCells *
            (item.itemState lastKind).repeatItemCount = item.countCells := rfl
        simp only [withCells, bind, Except.bind, hcountItem]
        rw [if_neg (by omega), hdrop,
          ih items.length (by simp) items ts _ _ _ hokItems hkindItems hturnsItems (by omega) (by omega) rfl,
          hbuildCons, append_assoc, Nat.add_comm item.countCells, Nat.add_assoc]
        rfl

end Koshi.Terminal
