import Koshi.Terminal.Proof.InputNormalizer
import Koshi.Terminal.SynchronizedOutput

/-!
# The markers of a stream

Every control the normalizer reports stands behind the eight bytes of its marker. Only the first byte of a marker is
an `ESC`, so two markers of a stream never overlap.
-/

namespace Koshi.Terminal

open C1InputNormalizer List Option NormalizedTerminalInput

variable {bytes : List UInt8} {control : SynchronizedControl} {normalizer : C1InputNormalizer}
  {fed : NormalizedTerminalInput}

def IsMarkedAt (bytes : List UInt8) (endIndex : Nat) (control : SynchronizedControl) : Prop :=
  8 ≤ endIndex ∧ ∀ index < 8, bytes[endIndex - 8 + index]? = control.markerBytes[index]?

theorem length_markerBytes (control : SynchronizedControl) : control.markerBytes.length = 8 := by
  cases control <;> rfl

theorem IsMarkedAt.append {endIndex : Nat} (h : IsMarkedAt bytes endIndex control)
    (moreBytes : List UInt8) : IsMarkedAt (bytes ++ moreBytes) endIndex control := by
  refine ⟨h.1, fun index hidx => ?_⟩
  have hmk : index < control.markerBytes.length := by rw [length_markerBytes]; exact hidx
  obtain ⟨hlt, -⟩ := List.getElem?_eq_some_iff.1 ((h.2 index hidx).trans (List.getElem?_eq_getElem hmk))
  rw [List.getElem?_append_left hlt, h.2 index hidx]

theorem isMarkedAt_of_lastEight
    (h : lastEight bytes = control.markerBytes) : IsMarkedAt bytes bytes.length control := by
  have hlen := congrArg List.length h
  rw [length_lastEight, length_markerBytes] at hlen
  refine ⟨by omega, fun index _ => ?_⟩
  rw [← h, lastEight, List.getElem?_drop]

theorem getElem?_markerBytes_eq_escape {index : Nat} (h : control.markerBytes[index]? = some escapeByte) :
    index = 0 := by
  have hlt : index < 8 := length_markerBytes control ▸ (List.getElem?_eq_some_iff.1 h).1
  revert h
  cases control <;> interval_cases index <;> decide

theorem IsMarkedAt.add_le {firstEnd secondEnd : Nat} {first snd : SynchronizedControl}
    (hf : IsMarkedAt bytes firstEnd first) (hse : IsMarkedAt bytes secondEnd snd)
    (hlt : firstEnd < secondEnd) : firstEnd + 8 ≤ secondEnd := by
  by_contra hoverlap
  have hescape : bytes[secondEnd - 8]? = some escapeByte := by
    rw [← Nat.add_zero (secondEnd - 8), hse.2 0 (by omega)]
    cases snd <;> rfl
  have hins := hf.2 (secondEnd - firstEnd) (by omega)
  have hidx : firstEnd - 8 + (secondEnd - firstEnd) = secondEnd - 8 := by
    have := hf.1
    omega
  rw [hidx, hescape] at hins
  have := getElem?_markerBytes_eq_escape hins.symm
  omega

/-! ### The byte step -/

variable {byte : UInt8}

theorem findReplacement_ne_nil {inputState : C1InputState} {replaced : List UInt8 × C1InputState}
    (h : findReplacement inputState byte = some replaced) : replaced.1 ≠ [] := by
  unfold findReplacement findGroundReplacement at h
  split_ifs at h <;> simp only [some_inj] at h <;> subst h <;> exact cons_ne_nil _ _

theorem normalizeControlByte_ne_nil {replacedBytes : List UInt8}
    (h : (normalizer.normalizeControlByte byte).2.1 = some replacedBytes) : replacedBytes ≠ [] := by
  unfold normalizeControlByte at h
  split at h
  · rename_i bytes inputState hreplaced
    obtain rfl := some_inj.1 h
    exact findReplacement_ne_nil hreplaced
  · exact absurd h (some_ne_none _).symm

theorem outputBytes_ne_nil (normalizer : C1InputNormalizer) (byte : UInt8) :
    (normalizer.normalizeTerminalInputByte byte).2.1.getD [byte] ≠ [] := by
  cases hout : (normalizer.normalizeTerminalInputByte byte).2.1 with
  | none => exact cons_ne_nil _ _
  | some replacedBytes =>
    unfold normalizeTerminalInputByte at hout
    dsimp only at hout
    split_ifs at hout
    · exact normalizeControlByte_ne_nil hout
    · exact normalizeControlByte_ne_nil hout

structure ControlsOrdered (fed : NormalizedTerminalInput) : Prop where
  sorted : fed.synchronizedControls.Pairwise (fun control control' => control.1 < control'.1)
  within : ∀ control ∈ fed.synchronizedControls, 0 < control.1 ∧ control.1 ≤ fed.normalizedBytes.length

theorem mem_controls_feedByte {control : Nat × SynchronizedControl}
    (h : control ∈ (feedByte fed byte).synchronizedControls) :
    control ∈ fed.synchronizedControls ∨ (control.1 = (feedByte fed byte).normalizedBytes.length ∧
      (feedByte fed byte).normalizer.isSynchronizedControlInTrailingBytes control.2 = true) := by
  rcases mem_append.1 h with hold | hnew
  · exact .inl hold
  · obtain ⟨sync, hfilter, rfl⟩ := map_eq_some_iff.1 (mem_toList.1 hnew)
    exact .inr ⟨(length_append ..).symm, (filter_eq_some_iff.1 hfilter).2⟩

theorem length_feedByte (fed : NormalizedTerminalInput) (byte : UInt8) :
    fed.normalizedBytes.length < (feedByte fed byte).normalizedBytes.length := by
  have hout := length_pos_iff.2 (outputBytes_ne_nil fed.normalizer byte)
  simp only [feedByte, emit, length_append]
  omega

theorem ControlsOrdered.feedByte (h : ControlsOrdered fed) (byte : UInt8) : ControlsOrdered (feedByte fed byte) := by
  have hlen := length_feedByte fed byte
  refine ⟨pairwise_append.2 ⟨h.sorted, ?_, fun control hctrl control' hctrl' => ?_⟩, fun control hctrl => ?_⟩
  · generalize Option.map _ (Option.filter _ _) = answer
    cases answer <;> simp
  · obtain ⟨sync, -, rfl⟩ := map_eq_some_iff.1 (mem_toList.1 hctrl')
    have hw := (h.within control hctrl).2
    have hout := length_pos_iff.2 (outputBytes_ne_nil fed.normalizer byte)
    dsimp only
    omega
  · rcases mem_controls_feedByte hctrl with hold | ⟨hen, -⟩
    · exact ⟨(h.within control hold).1, (h.within control hold).2.trans hlen.le⟩
    · omega

theorem ControlsOrdered.foldlFeedByte (h : ControlsOrdered fed)
    (bs : List UInt8) : ControlsOrdered (bs.foldl Terminal.feedByte fed) := by
  induction bs generalizing fed with
  | nil => exact h
  | cons inputByte bs ih => exact ih (h.feedByte inputByte)

/-- The trailing bytes are the last eight of the stream, and every control stands behind its marker. -/
structure ControlsMarked (fed : NormalizedTerminalInput) : Prop where
  isBounded : fed.normalizer.IsBounded
  trailing_eq : fed.normalizer.listTrailingBytes = lastEight fed.normalizedBytes
  marked : ∀ control ∈ fed.synchronizedControls, IsMarkedAt fed.normalizedBytes control.1 control.2

theorem isBounded_feedByte (h : fed.normalizer.IsBounded) (byte : UInt8) : (feedByte fed byte).normalizer.IsBounded :=
  ((NormalizedTerminalInput.Agrees.refl h).feedByte byte).normalizer.isBounded

theorem listTrailingBytes_normalizeByte (normalizer : C1InputNormalizer) (byte : UInt8) :
    (normalizer.normalizeTerminalInputByte byte).1.listTrailingBytes = normalizer.listTrailingBytes := by
  have hctrl : ∀ count : Nat, (({ normalizer with remainingUtf8ContinuationCount := count } :
      C1InputNormalizer).normalizeControlByte byte).1.listTrailingBytes = normalizer.listTrailingBytes := by
    intro count
    unfold normalizeControlByte
    split <;> rfl
  unfold normalizeTerminalInputByte
  dsimp only
  split_ifs
  · rfl
  · rfl
  · exact hctrl 0
  · exact hctrl 0

theorem isBounded_normalizeByte (h : normalizer.IsBounded)
    (byte : UInt8) : (normalizer.normalizeTerminalInputByte byte).1.IsBounded :=
  ((C1InputNormalizer.Agrees.refl h).normalizeTerminalInputByte byte).1.isBounded

theorem ControlsMarked.feedByte (h : ControlsMarked fed) (byte : UInt8) : ControlsMarked (feedByte fed byte) := by
  have htrailing : (Terminal.feedByte fed byte).normalizer.listTrailingBytes =
      lastEight (Terminal.feedByte fed byte).normalizedBytes := by
    simp only [Terminal.feedByte, emit]
    rw [(pushTrailingBytes_spec (isBounded_normalizeByte h.isBounded byte) _).2,
      listTrailingBytes_normalizeByte, h.trailing_eq, lastEight_lastEight_append]
  refine ⟨isBounded_feedByte h.isBounded byte, htrailing, fun control hctrl => ?_⟩
  rcases mem_controls_feedByte hctrl with hold | ⟨hen, hmk⟩
  · exact (h.marked control hold).append _
  · rw [isControlInTrailing_iff, htrailing] at hmk
    rw [hen]
    exact isMarkedAt_of_lastEight hmk

theorem ControlsMarked.foldlFeedByte (h : ControlsMarked fed)
    (bs : List UInt8) : ControlsMarked (bs.foldl Terminal.feedByte fed) := by
  induction bs generalizing fed with
  | nil => exact h
  | cons inputByte bs ih => exact ih (h.feedByte inputByte)

variable {first snd : NormalizedTerminalInput}

theorem ControlsMarked.of_agrees (h : ControlsMarked snd) (hagrees : first.Agrees snd) : ControlsMarked first := by
  refine ⟨hagrees.normalizer.isBounded, ?_, ?_⟩
  · rw [hagrees.normalizer.trailing_eq, hagrees.bytes_eq, h.trailing_eq]
  · rw [hagrees.controls_eq, hagrees.bytes_eq]
    exact h.marked

theorem ControlsOrdered.of_agrees (h : ControlsOrdered snd) (hagrees : first.Agrees snd) : ControlsOrdered first := by
  refine ⟨hagrees.controls_eq ▸ h.sorted, ?_⟩
  rw [hagrees.controls_eq, hagrees.bytes_eq]
  exact h.within

/-! ### Chunks -/

theorem controlsOrdered_normalizeBytes (hbo : normalizer.IsBounded) (bs : List UInt8) :
    ControlsOrdered (normalizer.normalizeTerminalInputBytes bs) :=
  (ControlsOrdered.foldlFeedByte ⟨List.Pairwise.nil, by simp⟩ bs).of_agrees (normalizeBytes_agrees hbo bs)

theorem ControlsMarked.feedChunk (h : ControlsMarked fed) (bs : List UInt8) : ControlsMarked (feedChunk fed bs) :=
  (h.foldlFeedByte bs).of_agrees (feedChunk_agrees h.isBounded bs)

theorem controlsMarked_start : ControlsMarked start :=
  ⟨Nat.zero_le 8, rfl, by simp [start]⟩

end Koshi.Terminal
