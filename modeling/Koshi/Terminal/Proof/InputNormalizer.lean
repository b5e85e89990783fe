import Koshi.Base.Loop
import Koshi.Terminal.InputNormalizer

/-!
# The fast scans of the normalizer are exact

`normalizeTerminalInputBytes` copies plain runs, string bodies and whole control sequences without the byte step.
However a stream is cut into chunks, the bytes, the controls and the state it ends with are those of the byte step
applied to each byte in turn. The ring of trailing bytes is compared by its contents: a run of eight bytes or more
restarts the ring, so its start index depends on the chunks.
-/

namespace Koshi.Terminal

open Base List Option Function C1InputNormalizer NormalizedTerminalInput

variable {byte : UInt8} {text : List UInt8}

/-! ### Bytes -/

theorem isContinuationByte_bitVec : ∀ byte : BitVec 8,
    (byte &&& 0xc0#8 = 0x80#8) ↔ (0x80#8 ≤ byte ∧ byte ≤ 0xbf#8) := by decide

theorem isContinuationByte_iff (byte : UInt8) : isContinuationByte byte = true ↔ 0x80 ≤ byte ∧ byte ≤ 0xbf := by
  rw [isContinuationByte, decide_eq_true_iff, UInt8.le_iff_toBitVec_le, UInt8.le_iff_toBitVec_le, ← UInt8.toBitVec_inj,
    UInt8.toBitVec_and]
  exact isContinuationByte_bitVec byte.toBitVec

/-! ### The last eight bytes -/

def lastEight (bytes : List UInt8) : List UInt8 := bytes.drop (bytes.length - 8)

theorem length_lastEight (bs : List UInt8) : (lastEight bs).length = min bs.length 8 := by
  rw [lastEight, length_drop]
  omega

theorem lastEight_of_length_le {bytes : List UInt8} (h : bytes.length ≤ 8) : lastEight bytes = bytes := by
  rw [lastEight, Nat.sub_eq_zero_of_le h, drop_zero]

theorem lastEight_lastEight_append (front bs : List UInt8) :
    lastEight (lastEight front ++ bs) = lastEight (front ++ bs) := by
  have hdrop : lastEight front ++ bs = (front ++ bs).drop (front.length - 8) :=
    (drop_append_of_le_length (Nat.sub_le ..)).symm
  rw [hdrop, lastEight, lastEight, drop_drop, length_drop, length_append]
  congr 1
  omega

namespace C1InputNormalizer

variable (normalizer : C1InputNormalizer)

@[simp] theorem length_listTrailingBytes : normalizer.listTrailingBytes.length = normalizer.trailingByteCount := by
  rw [listTrailingBytes, length_map, length_range]

/-- The ring holds at most eight bytes. -/
def IsBounded : Prop := normalizer.trailingByteCount ≤ 8

variable {normalizer}

variable {first second : C1InputNormalizer} {byte : UInt8}

theorem getElem_listTrailingBytes {index : Nat} (hidx : index < normalizer.listTrailingBytes.length) :
    normalizer.listTrailingBytes[index] = normalizer.trailingBytes
      (normalizer.trailingStartIndex + Fin.ofNat 8 (8 - normalizer.trailingByteCount + index)) := by
  simp [listTrailingBytes]

theorem listTrailingBytes_pushTrailingByte (hbo : normalizer.IsBounded) (tailByte : UInt8) :
    (normalizer.pushTrailingByte tailByte).listTrailingBytes =
      lastEight (normalizer.listTrailingBytes ++ [tailByte]) := by
  have hc : normalizer.trailingByteCount ≤ 8 := hbo
  have hst := normalizer.trailingStartIndex.isLt
  refine ext_getElem ?_ fun index hleft hright => ?_
  · rw [length_listTrailingBytes, length_lastEight, length_append, length_listTrailingBytes, length_singleton]
    rfl
  · rw [getElem_listTrailingBytes]
    rw [length_listTrailingBytes] at hleft
    simp only [lastEight, getElem_drop, length_append, length_listTrailingBytes, length_singleton]
    simp only [pushTrailingByte] at hleft ⊢
    -- the new byte sits right before the next start; every older byte keeps its cell
    by_cases hl : index + 1 = min (normalizer.trailingByteCount + 1) 8
    · have hce : normalizer.trailingStartIndex + 1 +
          Fin.ofNat 8 (8 - min (normalizer.trailingByteCount + 1) 8 + index) = normalizer.trailingStartIndex := by
        ext
        simp only [Fin.val_add, Fin.val_ofNat, Fin.val_one]
        omega
      rw [hce, update_self, getElem_append_right (by rw [length_listTrailingBytes]; omega)]
      simp
    · have hce : normalizer.trailingStartIndex + 1 +
          Fin.ofNat 8 (8 - min (normalizer.trailingByteCount + 1) 8 + index) ≠ normalizer.trailingStartIndex := by
        intro heq
        have hval := congrArg Fin.val heq
        simp only [Fin.val_add, Fin.val_ofNat, Fin.val_one] at hval
        omega
      rw [update_of_ne hce, getElem_append_left (by rw [length_listTrailingBytes]; omega), getElem_listTrailingBytes]
      congr 1
      ext
      simp only [Fin.val_add, Fin.val_ofNat, Fin.val_one]
      omega

theorem isBounded_pushTrailingByte (tailByte : UInt8) : (normalizer.pushTrailingByte tailByte).IsBounded :=
  Nat.min_le_right ..

@[simp] theorem inputState_pushTrailingBytes (normalizer : C1InputNormalizer) (trailing : List UInt8) :
    (normalizer.pushTrailingBytes trailing).inputState = normalizer.inputState := by
  unfold pushTrailingBytes
  split_ifs
  · rfl
  · exact foldl_keeps (fun after : C1InputNormalizer => after.inputState = normalizer.inputState) rfl
      fun _ haf _ _ => haf

@[simp] theorem remainingUtf8ContinuationCount_pushTrailingBytes (normalizer : C1InputNormalizer)
    (trailing : List UInt8) :
    (normalizer.pushTrailingBytes trailing).remainingUtf8ContinuationCount =
      normalizer.remainingUtf8ContinuationCount := by
  unfold pushTrailingBytes
  split_ifs
  · rfl
  · exact foldl_keeps (fun after : C1InputNormalizer => after.remainingUtf8ContinuationCount =
      normalizer.remainingUtf8ContinuationCount) rfl fun _ haf _ _ => haf

theorem foldl_pushTrailingByte (hbo : normalizer.IsBounded) (trailing : List UInt8) :
    (trailing.foldl pushTrailingByte normalizer).IsBounded ∧
      (trailing.foldl pushTrailingByte normalizer).listTrailingBytes =
        lastEight (normalizer.listTrailingBytes ++ trailing) := by
  induction trailing generalizing normalizer with
  | nil =>
    rw [append_nil, lastEight_of_length_le (by rw [length_listTrailingBytes]; exact hbo)]
    exact ⟨hbo, rfl⟩
  | cons tailByte trailing ih =>
    obtain ⟨haf, hlist⟩ := ih (@isBounded_pushTrailingByte normalizer tailByte)
    refine ⟨haf, hlist.trans ?_⟩
    rw [listTrailingBytes_pushTrailingByte hbo, lastEight_lastEight_append, append_assoc, singleton_append]

theorem pushTrailingBytes_spec (hbo : normalizer.IsBounded) (trailingBytes : List UInt8) :
    (normalizer.pushTrailingBytes trailingBytes).IsBounded ∧
      (normalizer.pushTrailingBytes trailingBytes).listTrailingBytes =
        lastEight (normalizer.listTrailingBytes ++ trailingBytes) := by
  unfold pushTrailingBytes
  split_ifs with hlen
  · refine ⟨le_refl 8, ?_⟩
    have hdrop : lastEight (normalizer.listTrailingBytes ++ trailingBytes) = lastEight trailingBytes := by
      rw [lastEight, lastEight, length_append, drop_append, drop_of_length_le (by omega), nil_append]
      congr 1
      omega
    rw [hdrop]
    refine ext_getElem ?_ fun index hleft hright => ?_
    · rw [length_listTrailingBytes, length_lastEight, Nat.min_eq_right hlen]
    · rw [length_listTrailingBytes] at hleft
      rw [getElem_listTrailingBytes]
      have hce : ((0 : Fin 8) + Fin.ofNat 8 (8 - 8 + index) : Fin 8).val = index := by
        simp only [Fin.val_add, Fin.val_ofNat, Fin.val_zero]
        simp only at hleft
        omega
      simp only [hce]
      show (lastEight trailingBytes).getD index 0 = _
      rw [getD_eq_getElem?_getD, List.getElem?_eq_getElem hright, getD_some]
  · exact foldl_pushTrailingByte hbo trailingBytes

theorem isBounded_pushTrailingBytes (hbo : normalizer.IsBounded) (trailing : List UInt8) :
    (normalizer.pushTrailingBytes trailing).IsBounded := (pushTrailingBytes_spec hbo trailing).1

theorem isControlInTrailing_iff (sync : SynchronizedControl) :
    normalizer.isSynchronizedControlInTrailingBytes sync = true ↔ normalizer.listTrailingBytes = sync.markerBytes := by
  have hmk : sync.markerBytes.length = 8 := by cases sync <;> rfl
  unfold isSynchronizedControlInTrailingBytes
  by_cases hc : normalizer.trailingByteCount = 8
  · rw [if_neg (not_not.2 hc), List.all_eq_true]
    constructor
    · intro h
      refine ext_getElem (by rw [length_listTrailingBytes, hc, hmk]) fun index hleft hright => ?_
      have he := h (sync.markerBytes[index], index) (mk_mem_zipIdx_iff_getElem?.2 (List.getElem?_eq_getElem hright))
      rw [getElem_listTrailingBytes, hc, Nat.sub_self, Nat.zero_add]
      simpa using he
    · rintro h ⟨expectedByte, index⟩ hm
      have hexp := mk_mem_zipIdx_iff_getElem?.1 hm
      rw [← h] at hexp
      obtain ⟨hidx, hb⟩ := List.getElem?_eq_some_iff.1 hexp
      rw [getElem_listTrailingBytes, hc, Nat.sub_self, Nat.zero_add] at hb
      simpa using hb
  · rw [if_pos hc]
    refine ⟨fun h => absurd h Bool.false_ne_true, fun h => absurd ?_ hc⟩
    rw [← length_listTrailingBytes, h, hmk]

/-! ### The state -/

/-- The normalizer with another state over the same trailing bytes. -/
def withState (normalizer : C1InputNormalizer) (inputState : C1InputState) (rest : Nat) : C1InputNormalizer :=
  { normalizer with inputState, remainingUtf8ContinuationCount := rest }

@[simp] theorem inputState_withState (inputState : C1InputState) (rest : Nat) :
    (normalizer.withState inputState rest).inputState = inputState := rfl

@[simp] theorem remainingUtf8ContinuationCount_withState (inputState : C1InputState) (rest : Nat) :
    (normalizer.withState inputState rest).remainingUtf8ContinuationCount = rest := rfl

@[simp] theorem listTrailingBytes_withState (inputState : C1InputState) (rest : Nat) :
    (normalizer.withState inputState rest).listTrailingBytes = normalizer.listTrailingBytes := rfl

/-! ### Normalizers with the same future -/

/-- Same state and same recorded bytes; the ring may be rotated. -/
structure Agrees (first second : C1InputNormalizer) : Prop where
  inputState_eq : first.inputState = second.inputState
  remaining_eq : first.remainingUtf8ContinuationCount = second.remainingUtf8ContinuationCount
  trailing_eq : first.listTrailingBytes = second.listTrailingBytes
  isBounded : first.IsBounded

theorem Agrees.isBounded_right (h : first.Agrees second) : second.IsBounded := by
  have hlen := congrArg List.length h.trailing_eq
  rw [length_listTrailingBytes, length_listTrailingBytes] at hlen
  show second.trailingByteCount ≤ 8
  rw [← hlen]
  exact h.isBounded

theorem Agrees.refl (hbo : normalizer.IsBounded) : normalizer.Agrees normalizer := ⟨rfl, rfl, rfl, hbo⟩

section

variable (h : first.Agrees second)

include h

theorem Agrees.symm : second.Agrees first :=
  ⟨h.inputState_eq.symm, h.remaining_eq.symm, h.trailing_eq.symm, h.isBounded_right⟩

theorem Agrees.trans {third : C1InputNormalizer} (h' : second.Agrees third) : first.Agrees third :=
  ⟨h.inputState_eq.trans h'.inputState_eq, h.remaining_eq.trans h'.remaining_eq, h.trailing_eq.trans h'.trailing_eq,
    h.isBounded⟩

theorem Agrees.pushTrailingBytes (trailing : List UInt8) :
    (first.pushTrailingBytes trailing).Agrees (second.pushTrailingBytes trailing) := by
  obtain ⟨hbo, hlist⟩ := pushTrailingBytes_spec h.isBounded trailing
  obtain ⟨-, hlist'⟩ := pushTrailingBytes_spec h.isBounded_right trailing
  refine ⟨by simpa using h.inputState_eq, by simpa using h.remaining_eq, ?_, hbo⟩
  rw [hlist, hlist', h.trailing_eq]

theorem Agrees.isControlInTrailing_eq (sync : SynchronizedControl) :
    first.isSynchronizedControlInTrailingBytes sync = second.isSynchronizedControlInTrailingBytes sync := by
  rw [Bool.eq_iff_iff, isControlInTrailing_iff, isControlInTrailing_iff, h.trailing_eq]

theorem Agrees.normalizeControlByte (byte : UInt8) :
    (first.normalizeControlByte byte).1.Agrees (second.normalizeControlByte byte).1 ∧
      (first.normalizeControlByte byte).2 = (second.normalizeControlByte byte).2 := by
  unfold C1InputNormalizer.normalizeControlByte
  rw [h.inputState_eq]
  cases findReplacement second.inputState byte with
  | none => exact ⟨⟨rfl, h.remaining_eq, h.trailing_eq, h.isBounded⟩, rfl⟩
  | some replacement => exact ⟨⟨rfl, h.remaining_eq, h.trailing_eq, h.isBounded⟩, rfl⟩

end

/-! A byte of the byte step continues a code point, opens one, or is judged by the escape-sequence state. -/

theorem normalizeByte_of_continuation (hfw : followsUtf8 normalizer.inputState = true)
    (hrem : normalizer.remainingUtf8ContinuationCount ≠ 0) (hb : isContinuationByte byte = true) :
    normalizer.normalizeTerminalInputByte byte = ({ normalizer with
      remainingUtf8ContinuationCount := normalizer.remainingUtf8ContinuationCount - 1 }, none, none) := by
  rw [normalizeTerminalInputByte, if_pos hfw, if_pos ⟨hrem, hb⟩]

/-- The byte is taken as the next byte of an open code point. -/
def IsContinued (normalizer : C1InputNormalizer) (inputByte : UInt8) : Prop :=
  normalizer.remainingUtf8ContinuationCount ≠ 0 ∧ isContinuationByte inputByte = true

theorem normalizeByte_of_lead (hfw : followsUtf8 normalizer.inputState = true) (hop : ¬ normalizer.IsContinued byte)
    (hlead : countAnnouncedContinuations byte ≠ 0) :
    normalizer.normalizeTerminalInputByte byte = ({ normalizer with
      remainingUtf8ContinuationCount := countAnnouncedContinuations byte }, none, none) := by
  rw [normalizeTerminalInputByte, if_pos hfw]
  exact (if_neg hop).trans (if_pos hlead)

theorem normalizeByte_of_control (hfw : followsUtf8 normalizer.inputState = true) (hop : ¬ normalizer.IsContinued byte)
    (hlead : countAnnouncedContinuations byte = 0) :
    normalizer.normalizeTerminalInputByte byte =
      normalizeControlByte { normalizer with remainingUtf8ContinuationCount := 0 } byte := by
  rw [normalizeTerminalInputByte, if_pos hfw]
  exact (if_neg hop).trans (if_neg (not_not.2 hlead))

theorem normalizeByte_of_not_followsUtf8 (hfw : ¬ followsUtf8 normalizer.inputState = true) :
    normalizer.normalizeTerminalInputByte byte =
      normalizeControlByte { normalizer with remainingUtf8ContinuationCount := 0 } byte := by
  rw [normalizeTerminalInputByte, if_neg hfw]

theorem Agrees.normalizeTerminalInputByte (h : first.Agrees second) (byte : UInt8) :
    (first.normalizeTerminalInputByte byte).1.Agrees (second.normalizeTerminalInputByte byte).1 ∧
      (first.normalizeTerminalInputByte byte).2 = (second.normalizeTerminalInputByte byte).2 := by
  have hset : ∀ count count' : Nat, count = count' →
      ({ first with remainingUtf8ContinuationCount := count } : C1InputNormalizer).Agrees
        { second with remainingUtf8ContinuationCount := count' } :=
    fun _ _ hc => ⟨h.inputState_eq, hc, h.trailing_eq, h.isBounded⟩
  by_cases hfw : followsUtf8 first.inputState = true
  · have hfollows' : followsUtf8 second.inputState = true := h.inputState_eq ▸ hfw
    by_cases hop : first.IsContinued byte
    · have hopen' : second.remainingUtf8ContinuationCount ≠ 0 := h.remaining_eq ▸ hop.1
      rw [normalizeByte_of_continuation hfw hop.1 hop.2, normalizeByte_of_continuation hfollows' hopen' hop.2]
      exact ⟨hset _ _ (by rw [h.remaining_eq]), rfl⟩
    · have hopen' : ¬ second.IsContinued byte := by
        rw [IsContinued, ← h.remaining_eq]
        exact hop
      by_cases hlead : countAnnouncedContinuations byte = 0
      · rw [normalizeByte_of_control hfw hop hlead, normalizeByte_of_control hfollows' hopen' hlead]
        exact (hset 0 0 rfl).normalizeControlByte byte
      · rw [normalizeByte_of_lead hfw hop hlead, normalizeByte_of_lead hfollows' hopen' hlead]
        exact ⟨hset _ _ rfl, rfl⟩
  · have hfollows' : ¬ followsUtf8 second.inputState = true := h.inputState_eq ▸ hfw
    rw [normalizeByte_of_not_followsUtf8 hfw, normalizeByte_of_not_followsUtf8 hfollows']
    exact (hset 0 0 rfl).normalizeControlByte byte

end C1InputNormalizer

/-! ### The slow path -/

/-- Appends bytes that go out, and the control they complete if the trailing bytes confirm it. -/
def NormalizedTerminalInput.emit (fed : NormalizedTerminalInput) (normalizer : C1InputNormalizer) (output : List UInt8)
    (sync : Option SynchronizedControl) : NormalizedTerminalInput :=
  { normalizer := normalizer.pushTrailingBytes output
    normalizedBytes := fed.normalizedBytes ++ output
    synchronizedControls := fed.synchronizedControls ++
      ((sync.filter ((normalizer.pushTrailingBytes output).isSynchronizedControlInTrailingBytes ·)).map
        fun sync => (fed.normalizedBytes.length + output.length, sync)).toList }

/-- One byte through the slow path, appended to what went out before. -/
def feedByte (fed : NormalizedTerminalInput) (inputByte : UInt8) : NormalizedTerminalInput :=
  let normalized := fed.normalizer.normalizeTerminalInputByte inputByte
  fed.emit normalized.1 (normalized.2.1.getD [inputByte]) normalized.2.2

variable (later earlier : NormalizedTerminalInput)

/-- What went out earlier, followed by this; the control indexes count from the start of the stream. -/
def NormalizedTerminalInput.after : NormalizedTerminalInput :=
  { normalizer := later.normalizer
    normalizedBytes := earlier.normalizedBytes ++ later.normalizedBytes
    synchronizedControls := earlier.synchronizedControls ++
      later.synchronizedControls.map fun control => (earlier.normalizedBytes.length + control.1, control.2) }

/-- One chunk, appended to what went out before. -/
def feedChunk (fed : NormalizedTerminalInput) (bytes : List UInt8) : NormalizedTerminalInput :=
  (fed.normalizer.normalizeTerminalInputBytes bytes).after fed

structure NormalizedTerminalInput.Agrees (first second : NormalizedTerminalInput) : Prop where
  normalizer : first.normalizer.Agrees second.normalizer
  bytes_eq : first.normalizedBytes = second.normalizedBytes
  controls_eq : first.synchronizedControls = second.synchronizedControls

namespace NormalizedTerminalInput

variable {fed first second third : NormalizedTerminalInput}

theorem Agrees.refl (hbo : fed.normalizer.IsBounded) : fed.Agrees fed :=
  ⟨C1InputNormalizer.Agrees.refl hbo, rfl, rfl⟩

section

variable (h : first.Agrees second)

include h

theorem Agrees.trans (h' : second.Agrees third) : first.Agrees third :=
  ⟨h.normalizer.trans h'.normalizer, h.bytes_eq.trans h'.bytes_eq, h.controls_eq.trans h'.controls_eq⟩

theorem Agrees.symm : second.Agrees first :=
  ⟨h.normalizer.symm, h.bytes_eq.symm, h.controls_eq.symm⟩

theorem Agrees.emit {normalizer normalizer' : C1InputNormalizer} (hnormalizer : normalizer.Agrees normalizer')
    (output : List UInt8) (sync : Option SynchronizedControl) :
    (first.emit normalizer output sync).Agrees (second.emit normalizer' output sync) := by
  have hpu := hnormalizer.pushTrailingBytes output
  unfold NormalizedTerminalInput.emit
  rw [h.bytes_eq, h.controls_eq]
  refine ⟨hpu, rfl, ?_⟩
  simp only [hpu.isControlInTrailing_eq]

theorem Agrees.feedByte (byte : UInt8) : (feedByte first byte).Agrees (feedByte second byte) := by
  obtain ⟨hnormalizer, hans⟩ := h.normalizer.normalizeTerminalInputByte byte
  unfold Koshi.Terminal.feedByte
  simp only [hans]
  exact h.emit hnormalizer _ _

theorem Agrees.foldlFeedByte (bytes : List UInt8) :
    (bytes.foldl Terminal.feedByte first).Agrees (bytes.foldl Terminal.feedByte second) := by
  induction bytes generalizing first second with
  | nil => exact h
  | cons byte bytes ih => exact ih (h.feedByte byte)

end

/-- Bytes emitted in two parts, with no control at the cut, are the bytes emitted at once. -/
theorem emit_emit {normalizer : C1InputNormalizer} (hbo : normalizer.IsBounded) (front output : List UInt8)
    (inputState : C1InputState) (rest : Nat) (sync : Option SynchronizedControl) :
    ((fed.emit normalizer front none).emit ((normalizer.pushTrailingBytes front).withState inputState rest)
        output sync).Agrees
      (fed.emit (normalizer.withState inputState rest) (front ++ output) sync) := by
  obtain ⟨hfront, hfrontList⟩ := pushTrailingBytes_spec hbo front
  obtain ⟨hparts, hpartsList⟩ := pushTrailingBytes_spec
    (show ((normalizer.pushTrailingBytes front).withState inputState rest).IsBounded from hfront) output
  obtain ⟨-, hwholeList⟩ := pushTrailingBytes_spec
    (show (normalizer.withState inputState rest).IsBounded from hbo) (front ++ output)
  have hnormalizer : (((normalizer.pushTrailingBytes front).withState inputState rest).pushTrailingBytes
      output).Agrees ((normalizer.withState inputState rest).pushTrailingBytes (front ++ output)) := by
    refine ⟨by simp, by simp, ?_, hparts⟩
    rw [hpartsList, hwholeList]
    simp only [listTrailingBytes_withState]
    rw [hfrontList, lastEight_lastEight_append, append_assoc]
  refine ⟨hnormalizer, append_assoc .., ?_⟩
  unfold emit
  simp only [hnormalizer.isControlInTrailing_eq, length_append, filter_none,
    map_none, toList_none, append_nil, Nat.add_assoc]

theorem emit_nil (hbo : fed.normalizer.IsBounded) : (fed.emit fed.normalizer [] none).Agrees fed := by
  refine ⟨C1InputNormalizer.Agrees.refl hbo, append_nil _, ?_⟩
  simp [emit]

end NormalizedTerminalInput

/-! ### Bytes that pass -/

/-- From one state to another, the byte step lets these bytes through and finds no control. -/
def Passes (inputState : C1InputState) (rest : Nat) (passed : List UInt8) (afterState : C1InputState)
    (afterCount : Nat) : Prop :=
  ∀ fed : NormalizedTerminalInput, fed.normalizer.IsBounded → fed.normalizer.inputState = inputState →
    fed.normalizer.remainingUtf8ContinuationCount = rest →
    (passed.foldl feedByte fed).Agrees (fed.emit (fed.normalizer.withState afterState afterCount) passed none)

namespace Passes

variable {inputState midState afterState : C1InputState} {rest midCount afterCount : Nat}

variable {passed : List UInt8}

theorem nil : Passes inputState rest [] inputState rest := by
  rintro fed hbo rfl rfl
  exact (emit_nil hbo).symm

theorem singleton {byte : UInt8}
    (hb : ∀ normalizer : C1InputNormalizer, normalizer.inputState = inputState →
      normalizer.remainingUtf8ContinuationCount = rest →
      normalizer.normalizeTerminalInputByte byte = (normalizer.withState afterState afterCount, none, none)) :
    Passes inputState rest [byte] afterState afterCount := by
  intro fed hbo hst hrem
  rw [foldl_cons, foldl_nil, feedByte, hb _ hst hrem]
  exact (NormalizedTerminalInput.Agrees.refl hbo).emit
    (C1InputNormalizer.Agrees.refl (show (fed.normalizer.withState afterState afterCount).IsBounded from hbo)) _ _

theorem foldl_append (h : Passes inputState rest passed midState midCount) {fed : NormalizedTerminalInput}
    (hbo : fed.normalizer.IsBounded) (hst : fed.normalizer.inputState = inputState)
    (hrem : fed.normalizer.remainingUtf8ContinuationCount = rest) (nextBytes : List UInt8) :
    ((passed ++ nextBytes).foldl feedByte fed).Agrees (nextBytes.foldl feedByte
      (fed.emit (fed.normalizer.withState midState midCount) passed none)) := by
  rw [List.foldl_append]
  exact (h fed hbo hst hrem).foldlFeedByte nextBytes

theorem append {nextBytes : List UInt8} (h : Passes inputState rest passed midState midCount)
    (hn : Passes midState midCount nextBytes afterState afterCount) :
    Passes inputState rest (passed ++ nextBytes) afterState afterCount := by
  intro fed hbo hst hrem
  have hmid : (fed.normalizer.withState midState midCount).IsBounded := hbo
  refine (h.foldl_append hbo hst hrem nextBytes).trans ((hn _ (isBounded_pushTrailingBytes hmid passed) ?_ ?_).trans ?_)
  · simp [emit]
  · simp [emit]
  · exact emit_emit hmid passed nextBytes afterState afterCount none

theorem of_forall (hby : ∀ passedByte ∈ passed, Passes inputState rest [passedByte] inputState rest) :
    Passes inputState rest passed inputState rest := by
  induction passed with
  | nil => exact nil
  | cons passedByte passed ih =>
    exact (hby _ (mem_cons_self ..)).append (ih fun byte hb => hby byte (mem_cons_of_mem _ hb))

end Passes

/-! ### The fast scans -/

namespace C1InputNormalizer

variable {normalizer : C1InputNormalizer} {byte : UInt8}

theorem normalizeControlByte_of_not_replaced (hreplaced : findReplacement normalizer.inputState byte = none) :
    normalizer.normalizeControlByte byte =
      (normalizer.withState (advanceTerminalInputState normalizer.inputState byte).1
          normalizer.remainingUtf8ContinuationCount, none,
        (advanceTerminalInputState normalizer.inputState byte).2) := by
  rw [normalizeControlByte, hreplaced]
  rfl

theorem countAnnouncedContinuations_of_lt (hbyte : byte < 0x80) : countAnnouncedContinuations byte = 0 := by
  unfold countAnnouncedContinuations
  rw [if_neg (by grind), if_neg (by grind), if_neg (by grind)]

theorem findReplacement_of_lt (inputState : C1InputState) (hbyte : byte < 0x80) :
    findReplacement inputState byte = none := by
  unfold findReplacement findGroundReplacement
  grind

/-- Without an open code point, an ASCII byte is judged by the escape-sequence state alone. -/
theorem normalizeByte_of_lt (hrem : normalizer.remainingUtf8ContinuationCount = 0) (hb : byte < 0x80) :
    normalizer.normalizeTerminalInputByte byte =
      (normalizer.withState (advanceTerminalInputState normalizer.inputState byte).1 0, none,
        (advanceTerminalInputState normalizer.inputState byte).2) := by
  have hctrl : normalizer.normalizeTerminalInputByte byte =
      normalizeControlByte (normalizer.withState normalizer.inputState 0) byte := by
    by_cases hfw : followsUtf8 normalizer.inputState = true
    · exact normalizeByte_of_control hfw (fun hop => hop.1 hrem) (countAnnouncedContinuations_of_lt hb)
    · exact normalizeByte_of_not_followsUtf8 hfw
  rw [hctrl, normalizeControlByte_of_not_replaced (findReplacement_of_lt _ hb)]
  rfl

end C1InputNormalizer

open C1InputNormalizer

theorem passes_of_lt {inputState afterState : C1InputState} (hb : byte < 0x80)
    (hadvance : advanceTerminalInputState inputState byte = (afterState, none)) :
    Passes inputState 0 [byte] afterState 0 := by
  refine Passes.singleton fun normalizer hst hrem => ?_
  rw [normalizeByte_of_lt hrem hb, hst, hadvance]

theorem passes_parameter (hb : isControlSequenceStop byte = false) : Passes .csi 0 [byte] .csi 0 := by
  refine Passes.singleton fun normalizer hst hrem => ?_
  have hadvance : advanceTerminalInputState .csi byte = (.csi, none) := by
    simp only [isControlSequenceStop, Bool.or_eq_false_iff, decide_eq_false_iff_not] at hb
    obtain ⟨⟨⟨hcancel, hsubstitute⟩, hescape⟩, hfinal⟩ := hb
    rw [advanceTerminalInputState, if_neg (not_or.2 ⟨hcancel, hsubstitute⟩), if_neg hescape, hfinal,
      if_neg Bool.false_ne_true]
  rw [normalizeByte_of_not_followsUtf8 (by rw [hst]; exact Bool.false_ne_true),
    normalizeControlByte_of_not_replaced (by simp only [hst]; rfl)]
  simp only [hst, hadvance]
  rfl

theorem passes_stringBody {strKind : C1StringKind} (hb : isStringBodyStop strKind byte = false) :
    Passes (.string strKind) 0 [byte] (.string strKind) 0 := by
  simp only [isStringBodyStop, Bool.or_eq_false_iff, decide_eq_false_iff_not, Bool.and_eq_false_iff] at hb
  obtain ⟨⟨⟨⟨hcancel, hsubstitute⟩, hescape⟩, hascii⟩, hbell⟩ := hb
  refine passes_of_lt (by grind) ?_
  rw [advanceTerminalInputState, if_neg (not_or.2 ⟨hcancel, hsubstitute⟩), if_neg hescape, if_neg]
  grind

/-! #### Text -/

theorem passes_ascii (hb : byte < 0x80) (hescape : byte ≠ escapeByte) : Passes .ground 0 [byte] .ground 0 :=
  passes_of_lt hb (by rw [advanceTerminalInputState, if_neg hescape])

theorem passes_lead {byte : UInt8} (hlead : countAnnouncedContinuations byte ≠ 0) :
    Passes .ground 0 [byte] .ground (countAnnouncedContinuations byte) := by
  refine Passes.singleton fun normalizer hst hrem => ?_
  rw [normalizeByte_of_lead (by rw [hst]; rfl) (fun hop => hop.1 hrem) hlead, ← hst]
  rfl

theorem passes_continuations {follower : List UInt8} (hby : ∀ byte ∈ follower, isContinuationByte byte = true) :
    Passes .ground follower.length follower .ground 0 := by
  induction follower with
  | nil => exact Passes.nil
  | cons byte follower ih =>
    have hf : Passes .ground (follower.length + 1) [byte] .ground follower.length := by
      refine Passes.singleton fun normalizer hst hrem => ?_
      rw [normalizeByte_of_continuation (by rw [hst]; rfl) (by omega) (hby _ (mem_cons_self ..)),
        ← hst, hrem, Nat.add_sub_cancel]
      rfl
    exact hf.append (ih fun byte hb => hby byte (mem_cons_of_mem _ hb))

theorem countCodePointBytes_spec (hc : countCodePointBytes text ≠ 0) :
    ∃ first follower restBytes, text = first :: (follower ++ restBytes) ∧
      countCodePointBytes text = follower.length + 1 ∧
      (first < 0x80 ∧ follower = [] ∨
        countAnnouncedContinuations first = follower.length ∧ follower ≠ [] ∧
          ∀ byte ∈ follower, isContinuationByte byte = true) := by
  rcases text with _ | ⟨first, rest⟩
  · exact absurd rfl hc
  by_cases hascii : first < 0x80
  · refine ⟨first, [], rest, rfl, ?_, .inl ⟨hascii, rfl⟩⟩
    rw [countCodePointBytes.eq_def]
    exact if_pos hascii
  rcases rest with _ | ⟨second, rest⟩
  · simp [countCodePointBytes, hascii] at hc
  by_cases htwo : 0xc2 ≤ first ∧ first ≤ 0xdf
  · have hse : isContinuationByte second = true := by
      by_contra hse
      simp [countCodePointBytes, hascii, htwo, hse] at hc
    refine ⟨first, [second], rest, rfl, by simp [countCodePointBytes, hascii, htwo, hse], .inr ⟨?_, by simp, by simpa⟩⟩
    exact if_pos htwo
  rcases rest with _ | ⟨third, rest⟩
  · simp [countCodePointBytes, hascii, htwo] at hc
  by_cases hthree : (first = 0xe0 ∧ 0xa0 ≤ second ∧ second ≤ 0xbf) ∨
      (((0xe1 ≤ first ∧ first ≤ 0xec) ∨ (0xee ≤ first ∧ first ≤ 0xef)) ∧ isContinuationByte second) ∨
      (first = 0xed ∧ 0x80 ≤ second ∧ second ≤ 0x9f)
  · have hthd : isContinuationByte third = true := by
      by_contra hthd
      simp only [countCodePointBytes, if_neg hascii, if_neg htwo, if_pos hthree, if_neg hthd] at hc
      exact hc rfl
    have hse : isContinuationByte second = true := by
      rw [isContinuationByte_iff] at hthree ⊢
      grind
    have hlead : countAnnouncedContinuations first = 2 := by
      rw [countAnnouncedContinuations, if_neg htwo, if_pos (by grind)]
    refine ⟨first, [second, third], rest, rfl, ?_, .inr ⟨hlead, cons_ne_nil _ _, by simp [hse, hthd]⟩⟩
    simp only [countCodePointBytes, if_neg hascii, if_neg htwo, if_pos hthree, if_pos hthd]
    rfl
  rcases rest with _ | ⟨fourth, rest⟩
  · simp only [countCodePointBytes, if_neg hascii, if_neg htwo, if_neg hthree] at hc
    exact absurd rfl hc
  by_cases hfour : ((first = 0xf0 ∧ 0x90 ≤ second ∧ second ≤ 0xbf) ∨
      ((0xf1 ≤ first ∧ first ≤ 0xf3) ∧ isContinuationByte second) ∨ (first = 0xf4 ∧ 0x80 ≤ second ∧ second ≤ 0x8f)) ∧
      isContinuationByte third ∧ isContinuationByte fourth
  · have hse : isContinuationByte second = true := by
      obtain ⟨hst, -⟩ := hfour
      rw [isContinuationByte_iff] at hst ⊢
      grind
    have hlead : countAnnouncedContinuations first = 3 := by
      rw [countAnnouncedContinuations, if_neg htwo, if_neg (by grind), if_pos (by grind)]
    refine ⟨first, [second, third, fourth], rest, rfl, ?_,
      .inr ⟨hlead, cons_ne_nil _ _, by simp [hse, hfour.2.1, hfour.2.2]⟩⟩
    simp only [countCodePointBytes, if_neg hascii, if_neg htwo, if_neg hthree, if_pos hfour]
    rfl
  · simp only [countCodePointBytes, if_neg hascii, if_neg htwo, if_neg hthree, if_neg hfour] at hc
    exact absurd rfl hc

theorem passes_codePoint (hc : countCodePointBytes text ≠ 0) (hescape : escapeByte ∉ text) :
    Passes .ground 0 (text.take (countCodePointBytes text)) .ground 0 := by
  obtain ⟨first, follower, restBytes, rfl, hlen, hki⟩ := countCodePointBytes_spec hc
  have htake : (first :: (follower ++ restBytes)).take (follower.length + 1) = first :: follower := by simp
  rw [hlen, htake]
  rcases hki with ⟨hascii, rfl⟩ | ⟨hlead, hne, hcontinuations⟩
  · exact passes_ascii hascii fun heq => hescape (heq ▸ mem_cons_self ..)
  · have hf := @passes_lead first (by
      rw [hlead]
      exact fun hz => hne (length_eq_zero_iff.1 hz))
    rw [hlead] at hf
    exact hf.append (passes_continuations hcontinuations)

theorem passes_validUtf8 (ts : Nat) (hescape : escapeByte ∉ text) :
    Passes .ground 0 (text.take (countValidUtf8Loop ts text)) .ground 0 := by
  induction ts generalizing text with
  | zero => exact Passes.nil
  | succ ts ih =>
    rw [countValidUtf8Loop]
    by_cases hc : countCodePointBytes text = 0
    · rw [if_pos hc]
      exact Passes.nil
    · rw [if_neg hc, take_add]
      exact (passes_codePoint hc hescape).append (ih fun hm => hescape (mem_of_mem_drop hm))

theorem countValidUtf8Loop_le (ts : Nat) (text : List UInt8) : countValidUtf8Loop ts text ≤ text.length := by
  induction ts generalizing text with
  | zero => exact Nat.zero_le _
  | succ ts ih =>
    rw [countValidUtf8Loop]
    by_cases hc : countCodePointBytes text = 0
    · rw [if_pos hc]
      exact Nat.zero_le _
    · rw [if_neg hc]
      have hr := ih (text.drop (countCodePointBytes text))
      obtain ⟨first, follower, restBytes, htext, hlen, -⟩ := countCodePointBytes_spec hc
      have htot : text.length = follower.length + restBytes.length + 1 := by
        rw [htext, length_cons, length_append]
      rw [length_drop] at hr
      omega

/-! #### The two scans of a turn -/

theorem take_length_takeWhile (keeps : UInt8 → Bool) (bs : List UInt8) :
    bs.take (bs.takeWhile keeps).length = bs.takeWhile keeps :=
  (prefix_iff_eq_take.1 ( takeWhile_prefix keeps)).symm

theorem of_mem_takeWhile {keeps : UInt8 → Bool} {bs : List UInt8} {byte : UInt8} (hb : byte ∈ bs.takeWhile keeps) :
    keeps byte = true := List.all_eq_true.1 all_takeWhile byte hb

theorem getPlainByteCount_spec (normalizer : C1InputNormalizer) {bytes : List UInt8}
    (hc : normalizer.getPlainTerminalInputByteCount bytes ≠ 0) :
    normalizer.getPlainTerminalInputByteCount bytes ≤ bytes.length ∧
      Passes normalizer.inputState normalizer.remainingUtf8ContinuationCount
        (bytes.take (normalizer.getPlainTerminalInputByteCount bytes)) normalizer.inputState
        normalizer.remainingUtf8ContinuationCount := by
  revert hc
  unfold getPlainTerminalInputByteCount
  by_cases hrem : normalizer.remainingUtf8ContinuationCount = 0
  swap
  · rw [if_pos hrem]
    exact fun hc => absurd rfl hc
  rw [if_neg (not_not.2 hrem), hrem]
  cases hstate : normalizer.inputState with
  | ground =>
    intro hc
    have hescape : escapeByte ∉ bytes.takeWhile (· ≠ escapeByte) := fun hm => by
      simpa using of_mem_takeWhile hm
    have hle : countValidUtf8PrefixBytes (bytes.takeWhile (· ≠ escapeByte)) ≤
        (bytes.takeWhile (· ≠ escapeByte)).length := countValidUtf8Loop_le ..
    refine ⟨hle.trans ( takeWhile_prefix _).length_le, ?_⟩
    have hpasses := passes_validUtf8 (bytes.takeWhile (· ≠ escapeByte)).length hescape
    have htake : (bytes.takeWhile (· ≠ escapeByte)).take (countValidUtf8PrefixBytes
        (bytes.takeWhile (· ≠ escapeByte))) =
          bytes.take (countValidUtf8PrefixBytes (bytes.takeWhile (· ≠ escapeByte))) := by
      rw [prefix_iff_eq_take.1 (( take_prefix ..).trans ( takeWhile_prefix _)), length_take, Nat.min_eq_left hle]
    exact htake ▸ hpasses
  | csi =>
    intro hc
    refine ⟨( takeWhile_prefix _).length_le, ?_⟩
    simp only [take_length_takeWhile]
    exact Passes.of_forall fun byte hb => passes_parameter (by simpa using of_mem_takeWhile hb)
  | string strKind =>
    intro hc
    refine ⟨( takeWhile_prefix _).length_le, ?_⟩
    simp only [take_length_takeWhile]
    exact Passes.of_forall fun byte hb => passes_stringBody (by simpa using of_mem_takeWhile hb)
  | escape => exact fun hc => absurd rfl hc
  | escapeIntermediate => exact fun hc => absurd rfl hc
  | stringEscape strKind => exact fun hc => absurd rfl hc

theorem passes_escape (rest : Nat) : Passes .ground rest [escapeByte] .escape 0 := by
  refine Passes.singleton fun normalizer hst _ => ?_
  rw [normalizeByte_of_control (by rw [hst]; rfl) (fun hop => absurd hop.2 (by decide)) (by decide),
    normalizeControlByte_of_not_replaced (by simp only [hst]; decide)]
  simp only [hst]
  rfl

theorem eq_some_findControlByteCount {normalizer : C1InputNormalizer} {bytes : List UInt8} {byteCount : Nat}
    (hc : normalizer.findCompleteControlSequenceByteCount bytes = some byteCount) :
    normalizer.inputState = .ground ∧ ∃ parameterBytes final, byteCount = parameterBytes.length + 3 ∧
      byteCount ≤ bytes.length ∧
      bytes.take byteCount = [escapeByte] ++ [0x5b] ++ parameterBytes ++ [final] ∧
      isFinalByte final = true ∧ ∀ parameterByte ∈ parameterBytes, isControlSequenceStop parameterByte = false := by
  unfold findCompleteControlSequenceByteCount at hc
  split_ifs at hc with hground
  rw [not_not] at hground
  refine ⟨hground, ?_⟩
  split at hc
  · rename_i first second tailBytes
    split_ifs at hc with hop
    obtain ⟨rfl, rfl⟩ := hop
    split at hc
    · exact absurd hc (some_ne_none _).symm
    · rename_i finalIndex hstop
      obtain ⟨hidx, -, hb⟩ := List.findIdx?_eq_some_iff_getElem.1 hstop
      rw [getD_eq_getElem?_getD, List.getElem?_eq_getElem hidx, getD_some] at hc
      split_ifs at hc with hfinal
      obtain rfl := some_inj.1 hc
      refine ⟨tailBytes.take finalIndex, tailBytes[finalIndex], ?_, ?_, ?_, hfinal, fun byte hbyte => ?_⟩
      · rw [length_take, Nat.min_eq_left hidx.le]
      · simp only [length_cons]
        omega
      · rw [take_succ_cons, take_succ_cons, take_succ_eq_append_getElem hidx]
        rfl
      · obtain ⟨index, hlt, rfl⟩ := getElem_of_mem hbyte
        rw [length_take] at hlt
        rw [getElem_take]
        simpa using hb index (by omega)
  · exact absurd hc (some_ne_none _).symm

theorem foldl_feedByte_completeControlSequence {fed : NormalizedTerminalInput} (hbo : fed.normalizer.IsBounded)
    (hground : fed.normalizer.inputState = .ground) {parameterBytes : List UInt8} {final : UInt8}
    (hfinal : isFinalByte final = true)
    (hparams : ∀ parameterByte ∈ parameterBytes, isControlSequenceStop parameterByte = false) :
    (([escapeByte] ++ [0x5b] ++ parameterBytes ++ [final]).foldl feedByte fed).Agrees
      (fed.emit (fed.normalizer.withState .ground 0) ([escapeByte] ++ [0x5b] ++ parameterBytes ++ [final])
        (findFinalByteControl final)) := by
  have hfront : Passes .ground fed.normalizer.remainingUtf8ContinuationCount ([escapeByte] ++ [0x5b] ++ parameterBytes)
      .csi 0 :=
    ((passes_escape _).append (passes_of_lt (by decide) (by decide))).append
      (Passes.of_forall fun byte hb => passes_parameter (hparams byte hb))
  have hmid : (fed.normalizer.withState .csi 0).IsBounded := hbo
  have hadvance : advanceTerminalInputState .csi final = (.ground, findFinalByteControl final) := by
    rw [isFinalByte, Bool.and_eq_true, decide_eq_true_iff, decide_eq_true_iff] at hfinal
    rw [advanceTerminalInputState, if_neg (by simp only [cancelByte, substituteByte]; grind),
      if_neg (by simp only [escapeByte]; grind), if_pos (by simp [isFinalByte, hfinal])]
  refine (hfront.foldl_append hbo hground rfl _).trans ?_
  rw [foldl_cons, foldl_nil, feedByte, normalizeByte_of_lt (by simp [emit])
    (by simp only [isFinalByte, Bool.and_eq_true, decide_eq_true_iff] at hfinal; grind)]
  simp only [emit, inputState_pushTrailingBytes, inputState_withState]
  rw [hadvance]
  exact emit_emit hmid _ [final] .ground 0 (findFinalByteControl final)

/-! ### The loop -/

namespace NormalizeLoop

/-- What went out up to the byte index. -/
def fed (bytes : List UInt8) (loop : NormalizeLoop) : NormalizedTerminalInput :=
  ⟨loop.normalizer, loop.normalizedBytes.getD (bytes.take loop.byteIndex), loop.synchronizedControls⟩

variable {bytes : List UInt8} {loop : NormalizeLoop}

theorem fed_recordControl (hidx : loop.byteIndex ≤ bytes.length) (sync : Option SynchronizedControl) :
    (loop.recordControl sync).fed bytes =
      { loop.fed bytes with
        synchronizedControls := loop.synchronizedControls ++
          ((sync.filter (loop.normalizer.isSynchronizedControlInTrailingBytes ·)).map
            fun sync =>
              ((loop.fed bytes).normalizedBytes.length, sync)).toList } := by
  have hlen : (loop.normalizedBytes.map List.length).getD loop.byteIndex =
      (loop.normalizedBytes.getD (bytes.take loop.byteIndex)).length := by
    cases loop.normalizedBytes with
    | none => simp [hidx]
    | some normalizedBytes => rfl
  unfold recordControl
  cases sync.filter (loop.normalizer.isSynchronizedControlInTrailingBytes ·) with
  | none => simp [fed]
  | some control => simp [fed, hlen]

@[simp] theorem byteIndex_recordControl (sync : Option SynchronizedControl) :
    (loop.recordControl sync).byteIndex = loop.byteIndex := by
  unfold recordControl
  split <;> rfl

theorem fed_copyBytes {normalizer : C1InputNormalizer} {byteCount : Nat}
    (hc : loop.byteIndex + byteCount ≤ bytes.length) (sync : Option SynchronizedControl) :
    ((loop.copyBytes normalizer ((bytes.drop loop.byteIndex).take byteCount)).recordControl sync).fed bytes =
      (loop.fed bytes).emit normalizer ((bytes.drop loop.byteIndex).take byteCount)
        sync := by
  have hlen : ((bytes.drop loop.byteIndex).take byteCount).length = byteCount := by
    rw [length_take, length_drop]
    omega
  have hby : ((loop.copyBytes normalizer ((bytes.drop loop.byteIndex).take byteCount)).fed
      bytes).normalizedBytes = (loop.fed bytes).normalizedBytes ++ (bytes.drop loop.byteIndex).take byteCount := by
    simp only [fed, copyBytes, hlen]
    cases loop.normalizedBytes with
    | none => exact take_add ..
    | some normalizedBytes => rfl
  rw [fed_recordControl (by simp only [copyBytes, hlen]; exact hc), hby, length_append]
  simp only [NormalizedTerminalInput.emit, NormalizedTerminalInput.mk.injEq]
  exact ⟨rfl, hby, rfl⟩

theorem fed_replaceByte {normalizer : C1InputNormalizer} {replaced : List UInt8} (hidx : loop.byteIndex < bytes.length)
    (sync : Option SynchronizedControl) :
    ((loop.replaceByte normalizer bytes replaced).recordControl sync).fed bytes =
      (loop.fed bytes).emit normalizer replaced sync := by
  rw [fed_recordControl (by exact hidx)]
  simp only [emit, fed, replaceByte, getD_some, length_append]

/-- **A turn of the loop is the byte step over the bytes it reads**, and it reads at least one. -/
theorem step_spec (hbo : loop.normalizer.IsBounded) (hidx : loop.byteIndex < bytes.length) :
    ∃ byteCount, 0 < byteCount ∧ loop.byteIndex + byteCount ≤ bytes.length ∧
      (loop.step bytes).byteIndex = loop.byteIndex + byteCount ∧
      ((loop.step bytes).fed bytes).Agrees
        (((bytes.drop loop.byteIndex).take byteCount).foldl feedByte (loop.fed bytes)) := by
  have hr : (bytes.drop loop.byteIndex).length = bytes.length - loop.byteIndex :=
    length_drop
  have hlen : ∀ {byteCount : Nat}, loop.byteIndex + byteCount ≤ bytes.length →
      ((bytes.drop loop.byteIndex).take byteCount).length = byteCount := by
    intro byteCount hc
    rw [length_take, hr]
    omega
  have hfed : (loop.fed bytes).normalizer.IsBounded := hbo
  unfold step
  dsimp only
  by_cases hpl : loop.normalizer.getPlainTerminalInputByteCount (bytes.drop loop.byteIndex) = 0
  swap
  · rw [if_pos hpl]
    obtain ⟨hle, hpasses⟩ := getPlainByteCount_spec loop.normalizer hpl
    rw [hr] at hle
    have hen : loop.byteIndex + loop.normalizer.getPlainTerminalInputByteCount
        (bytes.drop loop.byteIndex) ≤ bytes.length := by omega
    refine ⟨_, Nat.pos_of_ne_zero hpl, hen, congrArg (loop.byteIndex + ·) (hlen hen), ?_⟩
    have hcopied := @fed_copyBytes _ _ loop.normalizer _ hen none
    exact hcopied ▸ (hpasses _ hfed rfl rfl).symm
  rw [if_neg (not_not.2 hpl)]
  cases hseq : loop.normalizer.findCompleteControlSequenceByteCount (bytes.drop loop.byteIndex) with
  | some byteCount =>
    obtain ⟨hground, parameterBytes, final, hc, hle, htake, hfinal, hparams⟩ :=
      eq_some_findControlByteCount hseq
    rw [hr] at hle
    refine ⟨byteCount, by omega, by omega, ?_, ?_⟩
    · simp only [byteIndex_recordControl, copyBytes, hlen (show loop.byteIndex + byteCount ≤ _ by omega)]
    · dsimp only
      have hreset : ({ loop.normalizer with remainingUtf8ContinuationCount := 0 } : C1InputNormalizer) =
          loop.normalizer.withState .ground 0 := by
        rw [← hground]
        rfl
      rw [fed_copyBytes (by omega), htake, getLastD_concat, hreset]
      exact (foldl_feedByte_completeControlSequence hfed hground hfinal hparams).symm
  | none =>
    have hcons := drop_eq_getElem_cons hidx
    have htake : (bytes.drop loop.byteIndex).take 1 = [bytes[loop.byteIndex]] := by
      rw [hcons, take_succ_cons, take_zero]
    refine ⟨1, Nat.one_pos, hidx, ?_⟩
    rw [hcons]
    dsimp only
    rw [← hcons, htake, foldl_cons, foldl_nil]
    -- both sides feed the same byte, so only the shape of the buffer differs
    have hfeed := (NormalizedTerminalInput.Agrees.refl hfed).feedByte bytes[loop.byteIndex]
    have hunfold : feedByte (loop.fed bytes) bytes[loop.byteIndex] =
        (loop.fed bytes).emit (loop.normalizer.normalizeTerminalInputByte bytes[loop.byteIndex]).1
          ((loop.normalizer.normalizeTerminalInputByte bytes[loop.byteIndex]).2.1.getD [bytes[loop.byteIndex]])
          (loop.normalizer.normalizeTerminalInputByte bytes[loop.byteIndex]).2.2 := rfl
    cases hreplaced : (loop.normalizer.normalizeTerminalInputByte bytes[loop.byteIndex]).2.1 with
    | some replaced =>
      refine ⟨byteIndex_recordControl _, ?_⟩
      dsimp only
      rw [fed_replaceByte hidx]
      rw [hreplaced, getD_some] at hunfold
      exact hunfold ▸ hfeed
    | none =>
      refine ⟨byteIndex_recordControl _, ?_⟩
      dsimp only
      rw [hreplaced, getD_none, ← htake] at hunfold
      rw [← htake, fed_copyBytes hidx, ← hunfold]
      exact hfeed

theorem run_spec (ts : Nat) (hbo : loop.normalizer.IsBounded) (hidx : loop.byteIndex ≤ bytes.length)
    (hturns : bytes.length - loop.byteIndex ≤ ts) :
    (run bytes ts loop).byteIndex = bytes.length ∧
      ((run bytes ts loop).fed bytes).Agrees ((bytes.drop loop.byteIndex).foldl feedByte (loop.fed bytes)) := by
  induction ts generalizing loop with
  | zero =>
    have hen : loop.byteIndex = bytes.length := by omega
    rw [run, hen, drop_length]
    exact ⟨rfl, NormalizedTerminalInput.Agrees.refl hbo⟩
  | succ ts ih =>
    rw [run]
    split_ifs with hlt
    · obtain ⟨byteCount, hpos, hc, hstep, hagrees⟩ := step_spec hbo hlt
      obtain ⟨hen, hrun⟩ := @ih (loop.step bytes) hagrees.normalizer.isBounded (by omega) (by omega)
      refine ⟨hen, hrun.trans ?_⟩
      rw [hstep, ← take_append_drop byteCount (bytes.drop loop.byteIndex), List.foldl_append, drop_drop]
      exact hagrees.foldlFeedByte _
    · have hen : loop.byteIndex = bytes.length := by omega
      rw [hen, drop_length]
      exact ⟨rfl, NormalizedTerminalInput.Agrees.refl hbo⟩

end NormalizeLoop

theorem normalizeBytes_agrees {normalizer : C1InputNormalizer} (hbo : normalizer.IsBounded) (bytes : List UInt8) :
    (normalizer.normalizeTerminalInputBytes bytes).Agrees (bytes.foldl feedByte ⟨normalizer, [], []⟩) := by
  obtain ⟨hen, hrun⟩ := @NormalizeLoop.run_spec bytes ⟨normalizer, none, [], 0⟩ bytes.length
    hbo (Nat.zero_le _) (Nat.sub_le ..)
  rw [NormalizeLoop.fed, hen, take_length] at hrun
  exact hrun

/-! ### Streams -/

theorem feedByte_after (byte : UInt8) : feedByte (later.after earlier) byte = (feedByte later byte).after earlier := by
  simp [feedByte, NormalizedTerminalInput.after, NormalizedTerminalInput.emit, append_assoc, Nat.add_assoc,
    toList_map, comp_def]

theorem foldl_feedByte_after (bytes : List UInt8) :
    bytes.foldl feedByte (later.after earlier) = (bytes.foldl feedByte later).after earlier := by
  induction bytes generalizing later with
  | nil => rfl
  | cons byte bytes ih => rw [foldl_cons, feedByte_after, ih, foldl_cons]

theorem feedChunk_agrees {fed : NormalizedTerminalInput} (hbo : fed.normalizer.IsBounded) (bytes : List UInt8) :
    (feedChunk fed bytes).Agrees (bytes.foldl feedByte fed) := by
  have hst : (⟨fed.normalizer, [], []⟩ : NormalizedTerminalInput).after fed = fed := by
    simp [NormalizedTerminalInput.after]
  have hchunk := normalizeBytes_agrees hbo bytes
  have hshift := foldl_feedByte_after ⟨fed.normalizer, [], []⟩ fed bytes
  rw [hst] at hshift
  rw [hshift]
  refine ⟨hchunk.normalizer, congrArg (fed.normalizedBytes ++ ·) hchunk.bytes_eq, ?_⟩
  simp only [feedChunk, NormalizedTerminalInput.after, hchunk.controls_eq]

theorem foldl_feedChunk_agrees {fed : NormalizedTerminalInput} (hbo : fed.normalizer.IsBounded)
    (chunks : List (List UInt8)) : (chunks.foldl feedChunk fed).Agrees (chunks.flatten.foldl feedByte fed) := by
  induction chunks generalizing fed with
  | nil => exact NormalizedTerminalInput.Agrees.refl hbo
  | cons chunk chunks ih =>
    have hchunk := feedChunk_agrees hbo chunk
    rw [foldl_cons, flatten_cons, List.foldl_append]
    exact (ih hchunk.normalizer.isBounded).trans (hchunk.foldlFeedByte _)

/-- Nothing went out yet. -/
def NormalizedTerminalInput.start : NormalizedTerminalInput := ⟨default, [], []⟩

/-- **However the stream is cut, the normalizer gives what the byte step gives**: the same bytes, the same controls at
the same places, and the same state over the same trailing bytes. -/
theorem normalizer_chunks_agree (chunks : List (List UInt8)) :
    (chunks.foldl feedChunk .start).normalizedBytes = (chunks.flatten.foldl feedByte .start).normalizedBytes ∧
      (chunks.foldl feedChunk .start).synchronizedControls =
        (chunks.flatten.foldl feedByte .start).synchronizedControls ∧
      (chunks.foldl feedChunk .start).normalizer.inputState =
        (chunks.flatten.foldl feedByte .start).normalizer.inputState ∧
      (chunks.foldl feedChunk .start).normalizer.remainingUtf8ContinuationCount =
        (chunks.flatten.foldl feedByte .start).normalizer.remainingUtf8ContinuationCount ∧
      (chunks.foldl feedChunk .start).normalizer.listTrailingBytes =
        (chunks.flatten.foldl feedByte .start).normalizer.listTrailingBytes := by
  have hagrees := @foldl_feedChunk_agrees start (Nat.zero_le 8) chunks
  exact ⟨hagrees.bytes_eq, hagrees.controls_eq, hagrees.normalizer.inputState_eq, hagrees.normalizer.remaining_eq,
    hagrees.normalizer.trailing_eq⟩

/-- Nine letters in one chunk restart the ring, nine single bytes go round it: the index where it starts differs. -/
theorem normalizer_chunks_ring_restarts :
    ¬ ∀ chunks : List (List UInt8), (chunks.foldl feedChunk start).normalizer =
      (chunks.flatten.foldl feedByte start).normalizer := by
  intro hsame
  have hidx := congrArg trailingStartIndex (hsame [List.replicate 9 0x61])
  revert hidx
  decide

end Koshi.Terminal
