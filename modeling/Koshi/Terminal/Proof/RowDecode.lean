import Koshi.Terminal.CheckedRowDecode
import Koshi.Terminal.Proof.RowRoundTrip

/-!
# The row decoder on any bytes

Whatever the bytes, the decoder does not panic: every slice of a run's text starts at a character. What it accepts is a
row of the declared column count with cells that encode, so it encodes and reads back; what it refuses leaves the
caller's cells alone.
-/

namespace Koshi.Terminal

open Base Koshi.Core List Option ByteReader CheckedDecode

variable {bs text tail : List UInt8} {chars : List Char} {itemState : ItemState} {cells : List Cell}

/-! ### Text -/

theorem decodeCharacter?_eq_some {character : Char} (h : decodeCharacter? bs = some character) :
    ∃ tail, bs = String.utf8EncodeChar character ++ tail := by
  have hby := String.toByteArray_utf8EncodeChar_of_utf8DecodeChar?_eq_some h
  have hlist : String.utf8EncodeChar character = bs.take character.utf8Size := by
    have := congrArg (fun byteArray : ByteArray => byteArray.data.toList) hby
    simpa using this
  exact ⟨bs.drop character.utf8Size, by rw [hlist, take_append_drop]⟩

theorem decodeUtf8Loop_eq_some (ts : Nat)
    (h : decodeUtf8Loop ts bs = some chars) : bs = chars.flatMap String.utf8EncodeChar := by
  induction ts generalizing bs chars with
  | zero =>
    cases bs with
    | nil =>
      obtain rfl := some_inj.1 h
      rfl
    | cons byte bs => exact absurd h (some_ne_none _).symm
  | succ ts ih =>
    cases bs with
    | nil =>
      obtain rfl := some_inj.1 h
      rfl
    | cons byte bs =>
      rw [decodeUtf8Loop] at h
      · cases hchar : decodeCharacter? (byte :: bs) with
        | none =>
          rw [hchar] at h
          exact absurd h (some_ne_none _).symm
        | some character =>
          rw [hchar] at h
          obtain ⟨rest, hr, rfl⟩ := map_eq_some_iff.1 h
          obtain ⟨tail, hsp⟩ := decodeCharacter?_eq_some hchar
          rw [hsp, drop_utf8Size_utf8EncodeChar_append] at hr
          rw [hsp, flatMap_cons, ih hr]
      · simp

theorem fromUtf8?_eq_some (h : fromUtf8? bs = some chars) :
    bs = chars.flatMap String.utf8EncodeChar := decodeUtf8Loop_eq_some _ h

variable {textByte : UInt8}

theorem isAscii_ofNat (h : isAsciiByte textByte = true) :
    isAscii (Char.ofNat textByte.toNat) = true ∧ String.utf8EncodeChar (Char.ofNat textByte.toNat) = [textByte] := by
  have hlt : textByte.toNat < 128 := by simpa [isAsciiByte] using h
  have hnat : (Char.ofNat textByte.toNat).toNat = textByte.toNat := by
    rw [Char.ofNat, dif_pos (show textByte.toNat.isValidChar from Or.inl (by omega))]
    rfl
  have hascii : isAscii (Char.ofNat textByte.toNat) = true := by
    simpa [isAscii, hnat] using hlt
  refine ⟨hascii, ?_⟩
  rw [utf8EncodeChar_of_isAscii hascii, hnat]
  simp

structure RunText (runTextKind : RunTextKind) (text : List UInt8) (chars : List Char) : Prop where
  bytes_eq : text = chars.flatMap String.utf8EncodeChar
  ascii : runTextKind = .ascii → ∀ character ∈ chars, isAscii character = true

theorem runText_of_all (h : text.all isAsciiByte = true) :
    RunText .ascii text (text.map fun textByte => Char.ofNat textByte.toNat) := by
  rw [List.all_eq_true] at h
  refine ⟨?_, fun _ character hchar => ?_⟩
  · induction text with
    | nil => rfl
    | cons textByte text ih =>
      rw [map_cons, flatMap_cons, (isAscii_ofNat (h _ (mem_cons_self ..))).2,
        ← ih fun byte hb => h byte (mem_cons_of_mem _ hb)]
      rfl
  · obtain ⟨textByte, hb, rfl⟩ := List.mem_map.1 hchar
    exact (isAscii_ofNat (h textByte hb)).1

theorem isFirstByte_bitVec : ∀ byte : BitVec 8,
    byte &&& 0x80#8 = 0#8 ∨ byte &&& 0xe0#8 = 0xc0#8 ∨ byte &&& 0xf0#8 = 0xe0#8 ∨ byte &&& 0xf8#8 = 0xf0#8 →
      ¬ byte &&& 0xc0#8 = 0x80#8 := by decide

theorem not_continuation_of_isUTF8FirstByte (h : textByte.IsUTF8FirstByte) : ¬ textByte &&& 0xc0 = 0x80 := by
  intro hcontinuation
  have hbits : textByte.toBitVec &&& 0xc0#8 = 0x80#8 := congrArg UInt8.toBitVec hcontinuation
  refine isFirstByte_bitVec textByte.toBitVec ?_ hbits
  rcases h with h | h | h | h
  · exact .inl (congrArg UInt8.toBitVec h)
  · exact .inr (.inl (congrArg UInt8.toBitVec h))
  · exact .inr (.inr (.inl (congrArg UInt8.toBitVec h)))
  · exact .inr (.inr (.inr (congrArg UInt8.toBitVec h)))

theorem isCharacterBoundary_flatMap (chars : List Char) :
    isCharacterBoundary (chars.flatMap String.utf8EncodeChar) = true := by
  cases chars with
  | nil => rfl
  | cons character chars =>
    have hf : (String.utf8EncodeChar character).head (String.utf8EncodeChar_ne_nil) |>.IsUTF8FirstByte := by
      rw [head_eq_getElem]
      exact UInt8.isUTF8FirstByte_getElem_utf8EncodeChar.2 rfl
    rw [flatMap_cons, isCharacterBoundary, List.head?_append_of_ne_nil _ String.utf8EncodeChar_ne_nil,
      List.head?_eq_some_head String.utf8EncodeChar_ne_nil]
    simpa using not_continuation_of_isUTF8FirstByte hf

namespace RunText

variable {runTextKind : RunTextKind} {text : List UInt8} {character : Char} {chars : List Char}

theorem readCharacter_nil (h : RunText runTextKind text []) : readCharacter runTextKind text = none := by
  obtain rfl : text = [] := h.bytes_eq
  cases runTextKind <;> rfl

theorem readCharacter_cons (h : RunText runTextKind text (character :: chars)) :
    readCharacter runTextKind text = some character := by
  rw [h.bytes_eq, flatMap_cons]
  cases runTextKind with
  | ascii =>
    have hascii := h.ascii rfl character (mem_cons_self ..)
    rw [utf8EncodeChar_of_isAscii hascii]
    exact congrArg some (isAsciiByte_toUInt8 hascii).2
  | utf8 => exact decodeCharacter?_utf8EncodeChar_append ..

theorem readCharacterChecked_eq (h : RunText runTextKind text chars) :
    readCharacterChecked runTextKind text = .returns (.ok (readCharacter runTextKind text)) := by
  rw [readCharacterChecked, if_neg]
  rintro ⟨-, hboundary⟩
  rw [h.bytes_eq, isCharacterBoundary_flatMap] at hboundary
  exact Bool.noConfusion hboundary

theorem drop_character (h : RunText runTextKind text (character :: chars)) :
    character.utf8Size ≤ text.length ∧ RunText runTextKind (text.drop character.utf8Size) chars := by
  have hby := h.bytes_eq
  rw [flatMap_cons] at hby
  refine ⟨?_, ?_, fun hki other ho => h.ascii hki other (mem_cons_of_mem _ ho)⟩
  · rw [hby, length_append, String.length_utf8EncodeChar]
    omega
  · rw [hby, drop_utf8Size_utf8EncodeChar_append]

theorem drop_ascii (h : RunText runTextKind text chars) (ascii : Nat) (hc : ascii ≤ text.length)
    (hascii : ∀ textByte ∈ text.take ascii, isAsciiByte textByte = true) :
    RunText runTextKind (text.drop ascii) (chars.drop ascii) := by
  induction ascii generalizing text chars with
  | zero => exact h
  | succ ascii ih =>
    cases chars with
    | nil =>
      obtain rfl : text = [] := h.bytes_eq
      exact absurd hc (by simp)
    | cons character chars =>
      obtain ⟨-, hr⟩ := h.drop_character
      have hchar : isAscii character = true := by
        by_contra hnot
        obtain ⟨firstByte, otherBytes, henc, hb⟩ := utf8EncodeChar_of_not_isAscii hnot
        have hby := h.bytes_eq
        rw [flatMap_cons, henc] at hby
        exact hb (hascii firstByte (by rw [hby]; exact mem_cons_self ..))
      have hsize : character.utf8Size = 1 := by
        rw [← String.length_utf8EncodeChar, utf8EncodeChar_of_isAscii hchar, length_singleton]
      rw [hsize] at hr
      have hdrop := ih hr (by rw [length_drop]; omega) fun textByte hb => hascii textByte ?_
      · rwa [drop_drop, Nat.add_comm] at hdrop
      · rw [take_drop] at hb
        exact mem_of_mem_drop (by rwa [Nat.add_comm] at hb)

end RunText

/-! ### Cells -/

/-- What a decoded cell is like: it encodes, and it has no image data to lose. -/
structure Cell.IsDecoded (cell : Cell) : Prop where
  encodable : cell.Encodable
  dropImageData_eq : cell.dropImageData = cell

theorem Cell.isDecoded_fromCharacter (character : Char) {wd : Nat} (hwd : wd ≤ 2) (style : Style) :
    (Cell.fromCharacter character wd style).IsDecoded := ⟨⟨hwd, Nat.zero_le _⟩, rfl⟩

/-- What the exceptions of an item may have said. -/
structure ItemState.IsValid (itemState : ItemState) : Prop where
  width : ∀ displayWidth, itemState.itemShape = .single displayWidth → displayWidth ≤ 2
  combining : itemState.combiningCharacters.length ≤ maxGraphemeContinuationCount

theorem ItemState.isValid_initial : ItemState.initial.IsValid :=
  ⟨fun width h => by
    obtain rfl := ItemShape.single.inj h
    decide, Nat.zero_le _⟩

theorem isDecoded_of_mem_buildItemCells (h : itemState.IsValid) {baseChar : Char} {runStyle : Style} {c : Cell}
    (hce : c ∈ buildItemCells baseChar itemState runStyle) : c.IsDecoded := by
  have hbase : ∀ wd ≤ 2, (itemState.combiningCharacters.foldl Cell.pushCombining
      (.fromCharacter baseChar wd runStyle)).IsDecoded := by
    intro wd hwd
    rw [foldl_pushCombining]
    have hcomb := h.combining
    generalize itemState.combiningCharacters = combiningCharacters at hcomb ⊢
    by_cases hnil : combiningCharacters = []
    · rw [if_pos hnil]
      exact Cell.isDecoded_fromCharacter baseChar hwd runStyle
    · rw [if_neg hnil]
      refine ⟨⟨hwd, hcomb⟩, ?_⟩
      simp [Cell.dropImageData, Cell.hasImagePlaceholder, Cell.listCombiningCharacters, hnil]
  unfold buildItemCells at hce
  cases hshape : itemState.itemShape with
  | widePair =>
    simp only [hshape, if_true, mem_cons, not_mem_nil, or_false] at hce
    rcases hce with rfl | rfl
    · exact hbase 2 (le_refl 2)
    · exact Cell.isDecoded_fromCharacter ' ' (Nat.zero_le 2) runStyle
  | single wd =>
    simp only [hshape, reduceCtorEq, if_false, mem_singleton] at hce
    rw [hce]
    exact hbase wd (h.width wd hshape)

theorem length_buildItemCells (baseChar : Char) (itemState : ItemState) (runStyle : Style) :
    (buildItemCells baseChar itemState runStyle).length = itemState.itemShape.countItemCells := by
  unfold buildItemCells
  cases itemState.itemShape <;> rfl

/-! ### Exceptions -/

/-- The exception read ahead was checked. -/
def ExceptionReader.IsValid (reader : ExceptionReader) : Prop :=
  ∀ exception, reader.nextException = some exception →
    ∀ displayWidth, exception.payload = .width displayWidth → displayWidth ≤ 2

theorem readExceptionPayload_width {exceptionKind : Nat} {bs tail : List UInt8} {wd : Nat}
    (h : readExceptionPayload exceptionKind bs = .ok (.width wd, tail)) : wd ≤ 2 := by
  unfold readExceptionPayload at h
  split at h
  · simp at h
  · cases hrd : ByteReader.readVarint bs with
    | error error => simp [hrd, bind, Except.bind] at h
    | ok read =>
      simp only [hrd, bind, Except.bind] at h
      split_ifs at h with hwd
      simp only [Except.ok.injEq, Prod.mk.injEq, ExceptionPayload.width.injEq] at h
      omega
  · cases hrd : ByteReader.readVarint bs with
    | error error => simp [hrd, bind, Except.bind] at h
    | ok read =>
      cases hby : readBytes read.1 read.2 with
      | error error => simp [hrd, hby, bind, Except.bind] at h
      | ok text =>
        simp only [hrd, hby, bind, Except.bind] at h
        split at h <;> simp at h
  · cases hrd : ByteReader.readVarint bs with
    | error error => simp [hrd, bind, Except.bind] at h
    | ok read => simp [hrd, bind, Except.bind] at h
  · simp at h

variable {reader : ExceptionReader}

theorem readNextException_isValid {exceptionCount previous : Nat}
    (h : readNextException exceptionCount previous bs = .ok (reader, tail)) :
    reader.IsValid := by
  cases exceptionCount with
  | zero =>
    obtain ⟨rfl, -⟩ := Prod.mk.inj (Except.ok.inj h)
    exact fun _ hnone => absurd hnone (some_ne_none _).symm
  | succ exceptionCount =>
    rw [readNextException] at h
    cases hdelta : ByteReader.readVarint bs with
    | error error => simp [hdelta, bind, Except.bind] at h
    | ok delta =>
      simp only [hdelta, bind, Except.bind] at h
      split_ifs at h
      cases hki : ByteReader.readVarint delta.2 with
      | error error => simp [hki] at h
      | ok kind =>
        cases hpay : readExceptionPayload kind.1 kind.2 with
        | error error => simp [hki, hpay] at h
        | ok payload =>
          simp only [hki, hpay, Except.ok.injEq, Prod.mk.injEq] at h
          obtain ⟨rfl, -⟩ := h
          intro exception hn wd hwd
          obtain rfl := some_inj.1 hn
          exact @readExceptionPayload_width kind.1 kind.2 payload.2 wd (by rw [hpay, ← hwd])

theorem applyItemException_isValid {applied : ItemState} {exception : ItemException} (hst : itemState.IsValid)
    (hwd : ∀ displayWidth, exception.payload = .width displayWidth → displayWidth ≤ 2)
    (h : applyItemException itemState exception = .ok applied) : applied.IsValid := by
  unfold applyItemException at h
  split_ifs at h
  dsimp only at h
  cases hpay : exception.payload with
  | widePair =>
    simp only [hpay, Except.ok.injEq] at h
    subst h
    exact ⟨fun _ hshape => absurd hshape (by simp), hst.combining⟩
  | width displayWidth =>
    simp only [hpay, Except.ok.injEq] at h
    subst h
    refine ⟨fun other hshape => ?_, hst.combining⟩
    obtain rfl := ItemShape.single.inj hshape
    exact hwd _ hpay
  | combining combiningText =>
    simp only [hpay] at h
    split_ifs at h with hc
    simp only [Except.ok.injEq] at h
    subst h
    exact ⟨hst.width, Nat.not_lt.1 hc⟩
  | repeated extraItemCount =>
    simp only [hpay, Except.ok.injEq] at h
    subst h
    exact ⟨hst.width, hst.combining⟩

theorem readItemExceptions_isValid (item exceptionCount : Nat) {nextException : Option ItemException}
    {itemState : ItemState} {result : ItemState × ExceptionReader} (hst : itemState.IsValid)
    (hn : ExceptionReader.IsValid ⟨nextException, exceptionCount⟩)
    (h : readItemExceptions item exceptionCount nextException itemState bs = .ok (result, tail)) :
    result.1.IsValid ∧ result.2.IsValid := by
  induction exceptionCount generalizing nextException itemState bs with
  | zero =>
    cases nextException with
    | none =>
      obtain ⟨rfl, -⟩ := Prod.mk.inj (Except.ok.inj h)
      exact ⟨hst, hn⟩
    | some exception =>
      rw [readItemExceptions] at h
      split_ifs at h with hitem
      · obtain ⟨rfl, -⟩ := Prod.mk.inj (Except.ok.inj h)
        exact ⟨hst, hn⟩
      · cases happly : applyItemException itemState exception with
        | error error => simp [happly, bind, Except.bind] at h
        | ok applied =>
          simp only [happly, bind, Except.bind, Except.ok.injEq, Prod.mk.injEq] at h
          obtain ⟨rfl, -⟩ := h
          exact ⟨applyItemException_isValid hst (hn exception rfl) happly,
            fun _ hnone => absurd hnone (some_ne_none _).symm⟩
  | succ exceptionCount ih =>
    cases nextException with
    | none =>
      obtain ⟨rfl, -⟩ := Prod.mk.inj (Except.ok.inj h)
      exact ⟨hst, hn⟩
    | some exception =>
      rw [readItemExceptions] at h
      split_ifs at h with hitem
      · obtain ⟨rfl, -⟩ := Prod.mk.inj (Except.ok.inj h)
        exact ⟨hst, hn⟩
      · cases happly : applyItemException itemState exception with
        | error error => simp [happly, bind, Except.bind] at h
        | ok applied =>
          cases hrd : readNextException (exceptionCount + 1) exception.itemIndex bs with
          | error error => simp [happly, hrd, bind, Except.bind] at h
          | ok read =>
            simp only [happly, hrd, bind, Except.bind] at h
            exact ih (applyItemException_isValid hst (hn exception rfl) happly)
              (fun nextItem hnextItem => readNextException_isValid hrd nextItem hnextItem) h

/-! ### Runs -/

/-- The cells in front are kept, and the cells behind them are decoded ones. -/
def AppendsDecoded (rowCells decoded : List Cell) (appended : Nat) : Prop :=
  ∃ added, decoded = rowCells ++ added ∧ added.length = appended ∧ ∀ cell ∈ added, cell.IsDecoded

theorem AppendsDecoded.refl (cells : List Cell) : AppendsDecoded cells cells 0 :=
  ⟨[], (append_nil _).symm, rfl, by simp⟩

theorem AppendsDecoded.append {d decCells : List Cell} {added : Nat} (h : AppendsDecoded (cells ++ d) decCells added)
    (hadded : ∀ c ∈ d, c.IsDecoded) :
    AppendsDecoded cells decCells (d.length + added) := by
  obtain ⟨moreCells, rfl, rfl, hmore⟩ := h
  refine ⟨d ++ moreCells, append_assoc .., length_append, fun c hce => ?_⟩
  rcases mem_append.1 hce with hin | hin
  · exact hadded c hin
  · exact hmore c hin

/-- What the loop over a run's text may end with. -/
def LoopAppends (rowCells : List Cell) (decoded : Nat) :
    Except DecodeFailure (ExceptionReader × Nat × List UInt8 × List Cell) → Prop
  | .ok (_, endCellCount, _, decodedCells) =>
    ∃ added, endCellCount = decoded + added ∧ AppendsDecoded rowCells decodedCells added
  | .error (_, decodedCells) => ∃ added, AppendsDecoded rowCells decodedCells added

theorem LoopAppends.append {d : List Cell} {dec nextCellCount : Nat}
    {result : Except DecodeFailure (ExceptionReader × Nat × List UInt8 × List Cell)}
    (h : LoopAppends (cells ++ d) nextCellCount result) (hn : nextCellCount = dec + d.length)
    (hadded : ∀ c ∈ d, c.IsDecoded) : LoopAppends cells dec result := by
  subst hn
  cases result with
  | ok found =>
    obtain ⟨added, hc, hadds⟩ := h
    exact ⟨d.length + added, by rw [hc, Nat.add_assoc], hadds.append hadded⟩
  | error failure =>
    obtain ⟨added, hadds⟩ := h
    exact ⟨d.length + added, hadds.append hadded⟩

theorem loopAppends_here (cells : List Cell) (dec : Nat) (reader : ExceptionReader)
    (bs : List UInt8) : LoopAppends cells dec (.ok (reader, dec, bs, cells)) :=
  ⟨0, rfl, .refl cells⟩

theorem loopAppends_error (cells : List Cell) (dec : Nat) (err : RowDecodeError) :
    LoopAppends cells dec (.error (err, cells)) := ⟨0, .refl cells⟩

theorem decodeRunLoop_appends (context : RunContext) (ts : Nat) (text : List UInt8) (item dec : Nat)
    (hrdr : reader.IsValid) (bs : List UInt8) (cells : List Cell) :
    LoopAppends cells dec (decodeRunLoop context ts text item dec reader bs cells) := by
  induction ts generalizing text item dec reader bs cells with
  | zero => exact loopAppends_here ..
  | succ ts ih =>
    rw [decodeRunLoop]
    cases readCharacter context.runTextKind text with
    | none => exact loopAppends_here ..
    | some baseChar =>
      dsimp only
      split_ifs
      · exact loopAppends_error ..
      · -- a stretch of plain ASCII items
        refine (ih _ _ _ hrdr _ _).append (by rw [length_map]) fun c hce => ?_
        obtain ⟨textByte, -, rfl⟩ := List.mem_map.1 hce
        exact Cell.isDecoded_fromCharacter _ (by decide) _
      · exact loopAppends_error ..
      · -- one plain item
        refine (ih _ _ _ hrdr _ _).append rfl fun c hce => ?_
        rw [mem_singleton.1 hce]
        exact Cell.isDecoded_fromCharacter _ (by decide) _
      · -- an item with exceptions
        cases hrd : readItemExceptions item reader.remainingExceptionCount reader.nextException .initial bs with
        | error error => exact loopAppends_error ..
        | ok read =>
          obtain ⟨⟨itemState, nextReader⟩, tail⟩ := read
          obtain ⟨hst, hn⟩ := readItemExceptions_isValid item _ ItemState.isValid_initial hrdr hrd
          simp only [withCells, bind, Except.bind]
          split_ifs
          · exact loopAppends_error ..
          · refine (ih _ _ _ hn _ _).append ?_ fun c hce => ?_
            · rw [length_flatten, map_replicate, sum_replicate, length_buildItemCells, smul_eq_mul,
                Nat.mul_comm, Nat.add_comm]
            · obtain ⟨itemCells, hitem, hce⟩ := mem_flatten.1 hce
              rw [eq_of_mem_replicate hitem] at hce
              exact isDecoded_of_mem_buildItemCells hst hce

/-- What a decode of runs may end with: kept cells and decoded ones behind them. -/
def RunAppends {α : Type} (rowCells : List Cell) : Except DecodeFailure (α × List Cell) → Prop
  | .ok (_, decoded) => ∃ added, AppendsDecoded rowCells decoded added
  | .error (_, decoded) => ∃ added, AppendsDecoded rowCells decoded added

theorem runAppends_error {α : Type} (cells : List Cell) (err : RowDecodeError) :
    RunAppends (α := α) cells (.error (err, cells)) := ⟨0, .refl cells⟩

variable {α β : Type}

theorem RunAppends.withCells_bind (read : Except RowDecodeError α) {next : α → Except DecodeFailure (β × List Cell)}
    (h : ∀ value, read = .ok value → RunAppends cells (next value)) :
    RunAppends cells (withCells cells read >>= next) := by
  cases read with
  | error error => exact runAppends_error cells error
  | ok value => exact h value rfl

variable (styles : List Style)

theorem decodeRun_appends (columns content start : Nat) (bs : List UInt8) (cells : List Cell) :
    RunAppends cells (decodeRun styles columns content start bs cells) := by
  unfold decodeRun
  refine RunAppends.withCells_bind _ fun ⟨si, bs⟩ _ => ?_
  dsimp only
  cases styles[si]? with
  | none => exact runAppends_error ..
  | some runStyle =>
    refine RunAppends.withCells_bind _ fun ⟨runCellCount, bs⟩ _ => ?_
    dsimp only
    split_ifs
    · exact runAppends_error ..
    refine RunAppends.withCells_bind _ fun ⟨textByteCount, bs⟩ _ => ?_
    refine RunAppends.withCells_bind _ fun ⟨runText, bs⟩ _ => ?_
    dsimp only
    generalize (if runText.all isAsciiByte then RunTextKind.ascii else RunTextKind.utf8) = runTextKind
    split_ifs
    · exact runAppends_error ..
    refine RunAppends.withCells_bind _ fun ⟨exceptionCount, bs⟩ _ => ?_
    refine RunAppends.withCells_bind _ fun ⟨reader, bs⟩ hrd => ?_
    dsimp only
    have hloop := decodeRunLoop_appends ⟨columns, runStyle, runTextKind,
      cells.length - start + runCellCount, start⟩ runText.length runText 0
      (cells.length - start) (readNextException_isValid hrd) bs cells
    generalize decodeRunLoop _ _ _ _ _ _ _ _ = result at hloop ⊢
    cases result with
    | error failure => exact hloop
    | ok found =>
      obtain ⟨reader, endCellCount, bs, decCells⟩ := found
      obtain ⟨added, -, hadds⟩ := hloop
      simp only [bind, Except.bind]
      split_ifs
      · exact ⟨added, hadds⟩
      · exact ⟨added, hadds⟩
      · exact ⟨added, hadds⟩

theorem decodeRuns_appends (columns content start runCount : Nat) (bs : List UInt8) (cells : List Cell) :
    RunAppends cells (decodeRuns styles columns content start runCount bs cells) := by
  induction runCount generalizing bs cells with
  | zero => exact ⟨0, .refl cells⟩
  | succ runCount ih =>
    rw [decodeRuns]
    have hrun := decodeRun_appends styles columns content start bs cells
    generalize decodeRun _ _ _ _ _ _ = result at hrun ⊢
    cases result with
    | error failure => exact hrun
    | ok found =>
      obtain ⟨tail, decCells⟩ := found
      obtain ⟨added, d, rfl, rfl, hadded⟩ := hrun
      have hr := ih tail (cells ++ d)
      simp only [bind, Except.bind]
      generalize decodeRuns _ _ _ _ _ _ _ = result at hr ⊢
      cases result with
      | ok found =>
        obtain ⟨moreCount, hadds⟩ := hr
        exact ⟨_, hadds.append hadded⟩
      | error failure =>
        obtain ⟨moreCount, hadds⟩ := hr
        exact ⟨_, hadds.append hadded⟩

theorem readBoundedVarint_le {fieldName : String} {maximumValue decValue : Nat}
    (h : readBoundedVarint fieldName maximumValue bs = .ok (decValue, tail)) :
    decValue ≤ maximumValue := by
  unfold readBoundedVarint at h
  cases hrd : ByteReader.readVarint bs with
  | error error => simp [hrd, bind, Except.bind] at h
  | ok read =>
    simp only [hrd, bind, Except.bind] at h
    split_ifs at h with hle
    obtain ⟨rfl, -⟩ := Prod.mk.inj (Except.ok.inj h)
    exact Nat.not_lt.1 hle

theorem readRowHeader_bounds {shape : EncodedRowShape} (h : readRowHeader bs = .ok (shape, tail)) :
    shape.columnCount ≤ u16Max ∧ shape.trailingBlankCount ≤ shape.columnCount := by
  unfold readRowHeader at h
  cases hbody : ByteReader.readVarint bs with
  | error error => simp [hbody, bind, Except.bind] at h
  | ok body =>
    cases hco : readBoundedVarint "column_count" u16Max body.2 with
    | error error => simp [hbody, hco, bind, Except.bind] at h
    | ok columns =>
      cases hen : readRowEnd columns.2 with
      | error error => simp [hbody, hco, hen, bind, Except.bind] at h
      | ok rowEnd =>
        cases hblks : readBoundedVarint "trailing_blank_count" columns.1 rowEnd.2 with
        | error error => simp [hbody, hco, hen, hblks, bind, Except.bind] at h
        | ok blanks =>
          simp only [hbody, hco, hen, hblks, bind, Except.bind, Except.ok.injEq, Prod.mk.injEq] at h
          obtain ⟨rfl, -⟩ := h
          exact ⟨readBoundedVarint_le hco, readBoundedVarint_le hblks⟩

variable (encodedRowBytes : List UInt8)

def RowAppends (rowCells : List Cell) : Except DecodeFailure (EncodedRowShape × List Cell) → Prop
  | .ok (shape, decoded) => (∃ tail, readRowHeader encodedRowBytes = .ok (shape, tail)) ∧
      AppendsDecoded rowCells decoded (shape.columnCount - shape.trailingBlankCount)
  | .error (_, decoded) => ∃ added, AppendsDecoded rowCells decoded added

theorem splitEncodedRow_append {stream encoded trailingBytes : List UInt8}
    (h : splitEncodedRow stream = .ok (encoded, trailingBytes)) : stream = encoded ++ trailingBytes := by
  unfold splitEncodedRow at h
  cases hbody : ByteReader.readVarint stream with
  | error error => simp [hbody, bind, Except.bind] at h
  | ok body =>
    simp only [hbody, bind, Except.bind] at h
    split_ifs at h
    obtain ⟨rfl, rfl⟩ := Prod.mk.inj (Except.ok.inj h)
    exact (take_append_drop ..).symm

theorem RowAppends.withCells_bind {α : Type} {encodedRowBytes : List UInt8} (read : Except RowDecodeError α)
    {next : α → Except DecodeFailure (EncodedRowShape × List Cell)}
    (h : ∀ value, read = .ok value → RowAppends encodedRowBytes cells (next value)) :
    RowAppends encodedRowBytes cells (withCells cells read >>= next) := by
  cases read with
  | error error => exact ⟨0, .refl cells⟩
  | ok value => exact h value rfl

theorem decodeRowRuns_appends (cells : List Cell) :
    RowAppends encodedRowBytes cells (decodeRowRuns encodedRowBytes cells.length cells) := by
  unfold decodeRowRuns
  refine RowAppends.withCells_bind _ fun ⟨encodedRow, trailingBytes⟩ hsp => ?_
  dsimp only
  split_ifs with htrailing
  · exact ⟨0, .refl cells⟩
  have hro : encodedRowBytes = encodedRow := by
    rw [splitEncodedRow_append hsp, length_eq_zero_iff.1 (Nat.eq_zero_of_not_pos htrailing), append_nil]
  subst hro
  refine RowAppends.withCells_bind _ fun ⟨shape, bs⟩ hheader => ?_
  refine RowAppends.withCells_bind _ fun ⟨styleCount, bs⟩ _ => ?_
  refine RowAppends.withCells_bind _ fun ⟨styles, bs⟩ _ => ?_
  refine RowAppends.withCells_bind _ fun ⟨runCount, bs⟩ _ => ?_
  dsimp only
  have hruns := decodeRuns_appends styles shape.columnCount (shape.columnCount - shape.trailingBlankCount)
    cells.length runCount bs cells
  generalize decodeRuns _ _ _ _ _ _ _ = result at hruns ⊢
  cases result with
  | error failure => exact hruns
  | ok found =>
    obtain ⟨tail, decCells⟩ := found
    obtain ⟨added, hadds⟩ := hruns
    simp only [bind, Except.bind]
    split_ifs with hc hr
    · exact ⟨added, hadds⟩
    · exact ⟨added, hadds⟩
    · refine ⟨⟨_, hheader⟩, ?_⟩
      obtain ⟨d, rfl, rfl, hadded⟩ := hadds
      rw [length_append, Nat.add_sub_cancel_left] at hc
      exact ⟨d, rfl, not_not.1 hc, hadded⟩

/-! ### No panic -/

namespace CheckedDecode

theorem returns_bind (read : Except DecodeFailure α) {nextChecked : α → CheckedDecode β}
    {next : α → Except DecodeFailure β} (h : ∀ value, read = .ok value → nextChecked value = .returns (next value)) :
    (returns read >>= nextChecked) = .returns (read >>= next) := by
  cases read with
  | error failure => rfl
  | ok value => exact h value rfl

theorem returns_ok_bind (value : α) (next : α → CheckedDecode β) : (returns (.ok value) >>= next) = next value := rfl

end CheckedDecode

theorem checkedSub_of_le {minuend subtrahend : Nat} (h : subtrahend ≤ minuend) :
    checkedSub minuend subtrahend = .returns (.ok (minuend - subtrahend)) := if_pos h

theorem checkedDrop_of_le {start : Nat} (h : start ≤ bs.length) :
    checkedDrop start bs = .returns (.ok (bs.drop start)) := if_pos h

theorem takePlainAsciiBytes_prefix (item nextExceptionItemIndex : Nat) (text : List UInt8) :
    takePlainAsciiBytes item nextExceptionItemIndex text <+: text := by
  unfold takePlainAsciiBytes
  split_ifs
  · exact ( takeWhile_prefix _).trans ( take_prefix ..)
  · exact nil_prefix

theorem isAsciiByte_of_mem_takePlainAsciiBytes {item nextExceptionItemIndex : Nat}
    (h : textByte ∈ takePlainAsciiBytes item nextExceptionItemIndex text) :
    isAsciiByte textByte = true := by
  unfold takePlainAsciiBytes at h
  split_ifs at h
  · exact List.all_eq_true.1 all_takeWhile textByte h
  · exact absurd h not_mem_nil

theorem decodeRunLoopChecked_eq (context : RunContext) (ts : Nat) (htext : RunText context.runTextKind text chars)
    (hturns : text.length ≤ ts) (item dec : Nat) (reader : ExceptionReader) (bs : List UInt8) (cells : List Cell) :
    decodeRunLoopChecked context ts text item dec reader bs cells =
      .returns (decodeRunLoop context ts text item dec reader bs cells) := by
  induction ts generalizing text chars item dec reader bs cells with
  | zero => exact if_pos (length_eq_zero_iff.1 (Nat.le_zero.1 hturns))
  | succ ts ih =>
    rw [decodeRunLoopChecked, decodeRunLoop, htext.readCharacterChecked_eq, returns_ok_bind]
    cases chars with
    | nil =>
      rw [htext.readCharacter_nil]
    | cons baseChar chars =>
      rw [htext.readCharacter_cons]
      obtain ⟨hsize, hr⟩ := htext.drop_character
      have hsizePosition := baseChar.utf8Size_pos
      have hrestTurns : (text.drop baseChar.utf8Size).length ≤ ts := by
        rw [length_drop]
        omega
      have hst := takePlainAsciiBytes_prefix item reader.nextExceptionItemIndex text
      have hascii := htext.drop_ascii _ hst.length_le fun textByte hb =>
        isAsciiByte_of_mem_takePlainAsciiBytes (by rwa [← prefix_iff_eq_take.1 hst] at hb)
      dsimp only
      split_ifs with hstretch hc
      · rfl
      · rw [checkedDrop_of_le hst.length_le, returns_ok_bind]
        exact ih hascii (by rw [length_drop]; omega) ..
      · rfl
      · rw [checkedDrop_of_le hsize, returns_ok_bind]
        exact ih hr hrestTurns ..
      · refine returns_bind _ ?_
        rintro ⟨⟨itemState, nextReader⟩, tail⟩ -
        dsimp only
        split_ifs
        · rfl
        · rw [checkedDrop_of_le hsize, returns_ok_bind]
          exact ih hr hrestTurns ..

theorem decodeRunChecked_eq (columns content : Nat) {start : Nat} (bs : List UInt8) (hst : start ≤ cells.length) :
    decodeRunChecked styles columns content start bs cells =
      .returns (decodeRun styles columns content start bs cells) := by
  unfold decodeRunChecked decodeRun
  refine returns_bind _ fun ⟨si, bs⟩ _ => ?_
  dsimp only
  cases styles[si]? with
  | none => rfl
  | some runStyle =>
    refine returns_bind _ fun ⟨runCellCount, bs⟩ _ => ?_
    rw [checkedSub_of_le hst, returns_ok_bind]
    dsimp only
    split_ifs
    · rfl
    refine returns_bind _ fun ⟨textByteCount, bs⟩ _ => ?_
    refine returns_bind _ fun ⟨runText, bs⟩ _ => ?_
    dsimp only
    have htext : ∀ runTextKind, runTextKind = (if runText.all isAsciiByte then RunTextKind.ascii else .utf8) →
        ¬ (runTextKind = .utf8 ∧ (fromUtf8? runText).isNone = true) →
        ∃ chars, RunText runTextKind runText chars := by
      rintro runTextKind rfl hv
      split_ifs at hv ⊢ with hall
      · exact ⟨_, runText_of_all hall⟩
      · cases hchars : fromUtf8? runText with
        | none => exact absurd ⟨rfl, by rw [hchars]; rfl⟩ hv
        | some chars => exact ⟨chars, fromUtf8?_eq_some hchars, fun hki => RunTextKind.noConfusion hki⟩
    generalize hki : (if runText.all isAsciiByte then RunTextKind.ascii else RunTextKind.utf8) = runTextKind
    split_ifs with hinvalid
    · rfl
    obtain ⟨chars, htext⟩ := htext runTextKind hki.symm hinvalid
    refine returns_bind _ fun ⟨exceptionCount, bs⟩ _ => ?_
    refine returns_bind _ fun ⟨reader, bs⟩ hrd => ?_
    dsimp only
    rw [decodeRunLoopChecked_eq _ _ htext (le_refl _)]
    refine returns_bind _ fun ⟨nextReader, endCellCount, bs, decCells⟩ _ => ?_
    dsimp only
    split_ifs
    · rfl
    · rfl
    · rfl

theorem decodeRunsChecked_eq (columns content : Nat) {start : Nat} (runCount : Nat) (bs : List UInt8)
    (hst : start ≤ cells.length) :
    decodeRunsChecked styles columns content start runCount bs cells =
      .returns (decodeRuns styles columns content start runCount bs cells) := by
  induction runCount generalizing bs cells with
  | zero => rfl
  | succ runCount ih =>
    rw [decodeRunsChecked, decodeRuns, decodeRunChecked_eq _ _ _ _ hst]
    refine returns_bind _ ?_
    rintro ⟨tail, decCells⟩ hrun
    have hadds := decodeRun_appends styles columns content start bs cells
    rw [hrun] at hadds
    obtain ⟨added, d, rfl, -, -⟩ := hadds
    exact ih tail (by rw [length_append]; omega)

theorem readLongVarintLoop_length {bs tail : List UInt8} {byteIndex varintValue decValue : Nat}
    (h : readLongVarintLoop byteIndex varintValue bs = .ok (decValue, tail)) :
    tail.length ≤ bs.length := by
  induction bs generalizing byteIndex varintValue with
  | nil => simp [readLongVarintLoop] at h
  | cons varintByte bs ih =>
    simp only [readLongVarintLoop] at h
    split_ifs at h with _ _ hl
    · obtain ⟨-, rfl⟩ := Prod.mk.inj (Except.ok.inj h)
      exact Nat.le_succ _
    · exact (ih h).trans (Nat.le_succ _)

theorem readVarint_length {decValue : Nat}
    (h : ByteReader.readVarint bs = .ok (decValue, tail)) : tail.length ≤ bs.length := by
  unfold ByteReader.readVarint at h
  cases hrd : Core.readVarint bs with
  | error error => cases error <;> simp [hrd] at h
  | ok read =>
    simp only [hrd, Except.ok.injEq] at h
    subst h
    cases bs with
    | nil => exact @readLongVarintLoop_length [] _ 0 0 _ hrd
    | cons varintByte bs =>
      rw [Core.readVarint] at hrd
      split_ifs at hrd
      · obtain ⟨-, rfl⟩ := Prod.mk.inj (Except.ok.inj hrd)
        exact Nat.le_succ _
      · exact readLongVarintLoop_length hrd

theorem splitEncodedRowChecked_eq (stream : List UInt8) (cells : List Cell) :
    splitEncodedRowChecked stream cells = .returns (withCells cells (splitEncodedRow stream)) := by
  unfold splitEncodedRowChecked splitEncodedRow
  cases hrd : ByteReader.readVarint stream with
  | error error => rfl
  | ok read =>
    obtain ⟨bodyByteCount, rest⟩ := read
    have hlen := readVarint_length hrd
    rw [show withCells cells (.ok (bodyByteCount, rest)) = .ok (bodyByteCount, rest) from rfl, returns_ok_bind]
    dsimp only
    rw [checkedSub_of_le hlen, returns_ok_bind]
    simp only [bind, Except.bind]
    split_ifs with hbody
    · rw [checkedDrop_of_le (by omega)]
      rfl
    · rfl

theorem decodeRowRunsChecked_eq (cells : List Cell) :
    decodeRowRunsChecked encodedRowBytes cells.length cells =
      .returns (decodeRowRuns encodedRowBytes cells.length cells) := by
  unfold decodeRowRunsChecked decodeRowRuns
  rw [splitEncodedRowChecked_eq]
  refine returns_bind _ ?_
  rintro ⟨encoded, trailingBytes⟩ -
  dsimp only
  split_ifs
  · rfl
  refine returns_bind _ ?_
  rintro ⟨shape, bs⟩ hheader
  refine returns_bind _ ?_
  rintro ⟨styleCount, bs⟩ -
  refine returns_bind _ ?_
  rintro ⟨styles, bs⟩ -
  dsimp only
  have hblks : shape.trailingBlankCount ≤ shape.columnCount := by
    cases hrd : readRowHeader encoded with
    | error error => simp [hrd, withCells] at hheader
    | ok read =>
      rw [hrd] at hheader
      obtain rfl := Except.ok.inj hheader
      exact (readRowHeader_bounds hrd).2
  rw [checkedSub_of_le hblks, returns_ok_bind]
  refine returns_bind _ ?_
  rintro ⟨runCount, bs⟩ -
  dsimp only
  rw [decodeRunsChecked_eq _ _ _ _ _ (le_refl _)]
  refine returns_bind _ ?_
  rintro ⟨tail, decCells⟩ hruns
  have hadds := decodeRuns_appends styles shape.columnCount (shape.columnCount - shape.trailingBlankCount)
    cells.length runCount bs cells
  rw [hruns] at hadds
  obtain ⟨added, d, rfl, -, -⟩ := hadds
  dsimp only
  rw [checkedSub_of_le (by rw [length_append]; omega), returns_ok_bind]
  split_ifs <;> rfl

theorem decodeRowRunCellsIntoChecked_eq (cells : List Cell) :
    decodeRowRunCellsIntoChecked encodedRowBytes cells = some (decodeRowRunCellsInto encodedRowBytes cells) := by
  unfold decodeRowRunCellsIntoChecked decodeRowRunCellsInto
  rw [decodeRowRunsChecked_eq]
  cases decodeRowRuns encodedRowBytes cells.length cells with
  | ok found => rfl
  | error failure => rfl

theorem decodeRowCellsChecked_eq : decodeRowCellsChecked encodedRowBytes = some (decodeRowCells encodedRowBytes) := by
  unfold decodeRowCellsChecked decodeRowCells
  rw [decodeRowRunCellsIntoChecked_eq]
  rcases decodeRowRunCellsInto encodedRowBytes [] with ⟨_ | shape, cells⟩ <;> rfl

/-! ### Accepted and refused rows -/

theorem decodeRowCells_isDecoded {encodedRowBytes : List UInt8} {decRow : DecodedRow}
    (h : decodeRowCells encodedRowBytes = .ok decRow) :
    ∃ shape tail, readRowHeader encodedRowBytes = .ok (shape, tail) ∧
      decRow.rowCells.length = shape.columnCount ∧ decRow.rowEnd = shape.rowEnd ∧
      ∀ c ∈ decRow.rowCells, c.IsDecoded := by
  unfold decodeRowCells decodeRowRunCellsInto at h
  have hadds := decodeRowRuns_appends encodedRowBytes []
  cases hruns : decodeRowRuns encodedRowBytes ([] : List Cell).length [] with
  | error failure => simp only [hruns, reduceCtorEq] at h
  | ok found =>
    obtain ⟨shape, cells⟩ := found
    rw [hruns] at hadds
    obtain ⟨⟨tail, hheader⟩, d, rfl, hlen, hdec⟩ := hadds
    simp only [hruns, Except.ok.injEq] at h
    subst h
    refine ⟨shape, tail, hheader, ?_, rfl, ?_⟩
    · simp only [length_append, length_take, length_replicate]
      omega
    · intro c hce
      rcases mem_append.1 hce with hce | hce
      · exact hdec c (mem_of_mem_take hce)
      · rw [eq_of_mem_replicate hce]
        exact Cell.isDecoded_fromCharacter ' ' (by decide) .default

theorem decodeRowCells_encode_isDecoded (hlen : cells.length ≤ u16Max) (hdec : ∀ c ∈ cells, c.IsDecoded)
    (rowEnd : RowEnd) :
    ∃ encodedRowBytes textByteCount, encodeRowCells cells rowEnd = some (encodedRowBytes, textByteCount) ∧
      decodeRowCells encodedRowBytes = .ok ⟨cells, rowEnd⟩ := by
  have hdecode := decodeRowCells_encodeRowCellsWith (fun c hce => (hdec c hce).encodable) false
    (by simp) (Nat.le_refl cells.length) hlen rowEnd
  rw [Nat.sub_self, replicate_zero, append_nil,
    map_congr_left fun c hce => (hdec c hce).dropImageData_eq, List.map_id'] at hdecode
  exact ⟨_, _, if_pos hlen, hdecode⟩

/-- **A decoder takes any bytes.** Neither decoder panics. The row one accepts has as many cells as its header
declares, or as many as its runs hold, with widths and continuation code points in bounds; it encodes again, and the
bytes decode to the same row. Where one refuses, the caller's cells are as they were. -/
theorem decodeRow_safe (encodedRowBytes : List UInt8) (rowCells : List Cell) :
    decodeRowCellsChecked encodedRowBytes = some (decodeRowCells encodedRowBytes) ∧
    decodeRowRunCellsIntoChecked encodedRowBytes rowCells = some (decodeRowRunCellsInto encodedRowBytes rowCells) ∧
    (∀ decodedRow, decodeRowCells encodedRowBytes = .ok decodedRow →
      (∃ shape tail, readRowHeader encodedRowBytes = .ok (shape, tail) ∧
        decodedRow.rowCells.length = shape.columnCount ∧ decodedRow.rowEnd = shape.rowEnd) ∧
      (∀ cell ∈ decodedRow.rowCells, cell.displayWidth ≤ 2 ∧
        cell.listCombiningCharacters.length ≤ maxGraphemeContinuationCount) ∧
      ∃ again textByteCount,
        encodeRowCells decodedRow.rowCells decodedRow.rowEnd = some (again, textByteCount) ∧
        decodeRowCells again = .ok decodedRow) ∧
    (∀ shape decoded, decodeRowRunCellsInto encodedRowBytes rowCells = (.ok shape, decoded) →
      (∃ tail, readRowHeader encodedRowBytes = .ok (shape, tail)) ∧
      ∃ added, decoded = rowCells ++ added ∧
        added.length + shape.trailingBlankCount = shape.columnCount ∧
        (∀ cell ∈ added, cell.displayWidth ≤ 2 ∧ cell.listCombiningCharacters.length ≤ maxGraphemeContinuationCount) ∧
        ∃ again textByteCount, encodeRowCells added shape.rowEnd = some (again, textByteCount) ∧
          decodeRowCells again = .ok ⟨added, shape.rowEnd⟩) ∧
    (∀ error decoded, decodeRowRunCellsInto encodedRowBytes rowCells = (.error error, decoded) →
      decoded = rowCells) := by
  have hbounds : ∀ cell : Cell, cell.IsDecoded → cell.displayWidth ≤ 2 ∧
      cell.listCombiningCharacters.length ≤ maxGraphemeContinuationCount :=
    fun cell h => ⟨h.encodable.1, h.encodable.2⟩
  refine ⟨decodeRowCellsChecked_eq _, decodeRowRunCellsIntoChecked_eq _ _, ?_, ?_, ?_⟩
  · intro decodedRow h
    obtain ⟨shape, tail, hheader, hlen, hend, hdecoded⟩ := decodeRowCells_isDecoded h
    refine ⟨⟨shape, tail, hheader, hlen, hend⟩, fun cell hcell => hbounds cell (hdecoded cell hcell), ?_⟩
    exact decodeRowCells_encode_isDecoded (hlen ▸ (readRowHeader_bounds hheader).1) hdecoded _
  · intro shape decoded h
    have hadds := decodeRowRuns_appends encodedRowBytes rowCells
    unfold decodeRowRunCellsInto at h
    cases hruns : decodeRowRuns encodedRowBytes rowCells.length rowCells with
    | error failure => simp [hruns] at h
    | ok found =>
      rw [hruns] at h hadds
      obtain ⟨hshape, rfl⟩ := Prod.mk.inj h
      obtain rfl := Except.ok.inj hshape
      obtain ⟨⟨tail, hheader⟩, added, hadded, hlen, hdecoded⟩ := hadds
      obtain ⟨hcols, hblanks⟩ := readRowHeader_bounds hheader
      refine ⟨⟨tail, hheader⟩, added, hadded, by omega,
        fun cell hcell => hbounds cell (hdecoded cell hcell), decodeRowCells_encode_isDecoded (by omega) hdecoded _⟩
  · intro error decoded h
    have hadds := decodeRowRuns_appends encodedRowBytes rowCells
    unfold decodeRowRunCellsInto at h
    cases hruns : decodeRowRuns encodedRowBytes rowCells.length rowCells with
    | ok found => simp [hruns] at h
    | error failure =>
      rw [hruns] at h hadds
      obtain ⟨appendedCount, added, hadded, -, -⟩ := hadds
      obtain ⟨-, rfl⟩ := Prod.mk.inj h
      rw [hadded, take_left]

end Koshi.Terminal
