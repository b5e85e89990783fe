import Koshi.Terminal.Proof.Markers
import Koshi.Terminal.Proof.Release

/-!
# Synchronized output holds an update together

Over any chunks at any times, with any deadlines looked at between them: no byte is lost, doubled or moved, at most
the maximum is held, a deadline runs exactly while bytes are held, and the bytes of an update go out in one call unless
a call was forced among them.
-/

namespace Koshi.Terminal

open SynchronizedLoop List Option SynchronizedStream SynchronizedOutput

variable {controls : List (Nat × SynchronizedControl)} {inputByteIndex nextControlIndex : Nat}
  {control : Nat × SynchronizedControl} {stream : SynchronizedStream}

/-! ### The controls of a chunk -/

structure FollowsStream (before : List UInt8) (oldMarkers : List SynchronizedMarker) (chunkBytes : List UInt8)
    (controls : List (Nat × SynchronizedControl)) : Prop where
  apart : MarkersApart (oldMarkers ++ listMarkers before.length controls)
  preceding : ∀ marker ∈ oldMarkers, marker.endIndex ≤ before.length
  sorted : controls.Pairwise fun control control' => control.1 < control'.1
  within : ∀ control ∈ controls, 0 < control.1 ∧ control.1 ≤ chunkBytes.length

variable {marker : SynchronizedMarker}

namespace FollowsStream

variable {preceding chunk : List UInt8} {markers : List SynchronizedMarker}
  {controls : List (Nat × SynchronizedControl)}

def markerOf (byteCount : Nat) (control : Nat × SynchronizedControl) : SynchronizedMarker :=
  ⟨byteCount + (control.1 - synchronizedMarkerByteCount), byteCount + control.1, control.2⟩

theorem markerOf_mem {control : Nat × SynchronizedControl} (hctrl : control ∈ controls) :
    markerOf preceding.length control ∈ markers ++ listMarkers preceding.length controls :=
  mem_append_right _ (List.mem_map_of_mem hctrl)

theorem exists_control (h : FollowsStream preceding markers chunk controls) {index : Nat}
    (hmk : marker ∈ markers ++ listMarkers preceding.length controls)
    (hidx : preceding.length + index < marker.endIndex) :
    ∃ control ∈ controls, index < control.1 ∧ marker = markerOf preceding.length control := by
  rcases mem_append.1 hmk with hold | hnew
  · have := h.preceding marker hold
    omega
  · obtain ⟨control, hctrl, rfl⟩ := List.mem_map.1 hnew
    exact ⟨control, hctrl, by simpa using hidx, rfl⟩

theorem slice_append (start endIndex : Nat) :
    Held.slice (preceding ++ chunk) (preceding.length + start) (preceding.length + endIndex) =
      (chunk.drop start).take (endIndex - start) := by
  rw [Held.slice, drop_append, drop_of_length_le (by omega), nil_append, Nat.add_sub_cancel_left, Nat.add_sub_add_left]

end FollowsStream

/-! ### The scans -/

theorem findBeginControl_eq_some {loop : SynchronizedLoop} {controlIndex stop : Nat}
    (h : loop.findBeginControl controls = some (controlIndex, stop)) :
    ∃ before after, controls.drop loop.nextControlIndex = before ++ (stop, .beginControl) :: after ∧
      controlIndex = loop.nextControlIndex + before.length ∧ loop.inputByteIndex < stop ∧
      ∀ control ∈ before, ¬ (control.2 = .beginControl ∧ loop.inputByteIndex < control.1) := by
  obtain ⟨⟨⟨endIndex, control⟩, index⟩, hfi, heq⟩ := map_eq_some_iff.1 h
  obtain ⟨rfl, rfl⟩ := Prod.mk.inj heq
  obtain ⟨hft, before, after, hsp, hb⟩ := List.find?_eq_some_iff_append.1 hfi
  simp only [gt_iff_lt, decide_eq_true_iff] at hft
  obtain ⟨rfl, hlt⟩ := hft
  have hmap := congrArg (List.map Prod.fst) hsp
  rw [map_append, map_cons, zipIdx_map_fst] at hmap
  have hidx : index = before.length := by
    have he := congrArg (·[before.length]?) hsp
    simp only [List.getElem?_append_right (le_refl _), Nat.sub_self, List.getElem?_cons_zero,
      List.getElem?_zipIdx] at he
    obtain ⟨entry, -, he⟩ := map_eq_some_iff.1 he
    simpa using (congrArg Prod.snd he).symm
  refine ⟨before.map Prod.fst, after.map Prod.fst, hmap, by simp [hidx], hlt, fun control hctrl => ?_⟩
  obtain ⟨entry, he, rfl⟩ := List.mem_map.1 hctrl
  simpa [or_iff_not_imp_left] using hb entry he

theorem findBeginControl_eq_none {loop : SynchronizedLoop} (h : loop.findBeginControl controls = none) :
    ∀ control ∈ controls.drop loop.nextControlIndex,
      ¬ (control.2 = .beginControl ∧ loop.inputByteIndex < control.1) := by
  intro control hctrl
  have hnone := List.find?_eq_none.1 (map_eq_none_iff.1 h)
  obtain ⟨index, hidx, rfl⟩ := getElem_of_mem hctrl
  simpa using hnone (_, index) (mk_mem_zipIdx_iff_getElem?.2 (List.getElem?_eq_getElem hidx))

/-- Where the last control of a kind starts among the held bytes. -/
def lastStart (kind : SynchronizedControl) (bufferedByteCount inputByteIndex : Nat)
    (controls : List (Nat × SynchronizedControl)) : Option Nat :=
  ((controls.filter fun control => control.2 = kind).getLast?).map fun control =>
    bufferedByteCount + control.1 - inputByteIndex - synchronizedMarkerByteCount

theorem lastStart_cons (kind : SynchronizedControl) (buffered inputByteIndex : Nat)
    (control : Nat × SynchronizedControl) (controls : List (Nat × SynchronizedControl)) (earlier : Option Nat) :
    (lastStart kind buffered inputByteIndex (control :: controls)).or earlier =
      (lastStart kind buffered inputByteIndex controls).or
        (if control.2 = kind then
          some (buffered + control.1 - inputByteIndex - synchronizedMarkerByteCount) else earlier) := by
  unfold lastStart
  by_cases hki : control.2 = kind
  · rw [filter_cons_of_pos (by simpa using hki), List.getLast?_cons, if_pos hki]
    cases (controls.filter fun control => control.2 = kind).getLast? <;> rfl
  · rw [filter_cons_of_neg (by simpa using hki), if_neg hki]

/-- The inner loop reads the controls up to the read end and keeps the last of each kind. -/
theorem scanControls_eq {buffered inputByteIndex stop : Nat} {controls : List (Nat × SynchronizedControl)}
    (hcontrols : ∀ control ∈ controls, inputByteIndex < control.1 ∧
      synchronizedMarkerByteCount ≤ buffered + control.1 - inputByteIndex) (scanned : ScannedControls) :
    scanControls buffered inputByteIndex stop controls scanned = some
      ⟨(lastStart .beginControl buffered inputByteIndex (controls.takeWhile (·.1 ≤ stop))).or scanned.lastBeginIndex,
        (lastStart .endControl buffered inputByteIndex (controls.takeWhile (·.1 ≤ stop))).or scanned.lastEndIndex,
        scanned.nextControlIndex + (controls.takeWhile (·.1 ≤ stop)).length⟩ := by
  induction controls generalizing scanned with
  | nil => rfl
  | cons control controls ih =>
    obtain ⟨controlStop, kind⟩ := control
    obtain ⟨hlt, hst⟩ := hcontrols _ (mem_cons_self ..)
    have hr := fun other ho => hcontrols other (mem_cons_of_mem _ ho)
    rw [scanControls]
    by_cases hen : controlStop > stop
    · rw [if_pos hen, takeWhile_cons_of_neg (by simpa using hen)]
      rfl
    · rw [if_neg hen, if_pos hlt, if_neg (Nat.not_lt.2 hst), takeWhile_cons_of_pos (by simpa using hen),
        ih hr, lastStart_cons, lastStart_cons, length_cons]
      cases kind
      · simp [Nat.add_assoc, Nat.add_comm]
      · simp [Nat.add_assoc, Nat.add_comm]

theorem lastStart_eq_none {kind : SynchronizedControl} {buffered : Nat}
    (h : lastStart kind buffered inputByteIndex controls = none) : ∀ control ∈ controls, control.2 ≠ kind := by
  rw [lastStart, map_eq_none_iff, List.getLast?_eq_none_iff, filter_eq_nil_iff] at h
  exact fun control hctrl hki => h control hctrl (by simpa using hki)

theorem lastStart_eq_some {kind : SynchronizedControl} {buffered start : Nat}
    (hsrt : controls.Pairwise fun control control' => control.1 < control'.1)
    (h : lastStart kind buffered inputByteIndex controls = some start) :
    ∃ control ∈ controls, control.2 = kind ∧
      start = buffered + control.1 - inputByteIndex - synchronizedMarkerByteCount ∧
      ∀ control' ∈ controls, control'.2 = kind → control'.1 ≤ control.1 := by
  obtain ⟨control, hl, rfl⟩ := map_eq_some_iff.1 h
  obtain ⟨front, hfront⟩ := List.getLast?_eq_some_iff.1 hl
  have hm : control ∈ controls.filter fun control => control.2 = kind := hfront ▸ mem_append_right _ (mem_cons_self ..)
  obtain ⟨hctrl, hki⟩ := mem_filter.1 hm
  refine ⟨control, hctrl, by simpa using hki, rfl, fun control' hctrl' hkind' => ?_⟩
  have hmem' : control' ∈ controls.filter fun control => control.2 = kind :=
    mem_filter.2 ⟨hctrl', by simpa using hkind'⟩
  have hpairwise := hsrt.filter fun control => control.2 = kind
  rw [hfront] at hmem' hpairwise
  rcases mem_append.1 hmem' with hb | hself
  · exact ((pairwise_append.1 hpairwise).2.2 _ hb _ (mem_cons_self ..)).le
  · rw [mem_singleton.1 hself]

theorem lt_of_mem_dropWhile {stop : Nat} (hsrt : controls.Pairwise fun control control' => control.1 < control'.1)
    (hctrl : control ∈ controls.dropWhile (·.1 ≤ stop)) : stop < control.1 := by
  induction controls with
  | nil => exact absurd hctrl not_mem_nil
  | cons fst controls ih =>
    obtain ⟨hf, hr⟩ := pairwise_cons.1 hsrt
    by_cases hle : fst.1 ≤ stop
    · rw [dropWhile_cons_of_pos (by simpa using hle)] at hctrl
      exact ih hr hctrl
    · rw [dropWhile_cons_of_neg (by simpa using hle)] at hctrl
      rcases mem_cons.1 hctrl with rfl | hm
      · omega
      · have := hf control hm
        omega

/-! ### The loop -/

structure AtControl (controls : List (Nat × SynchronizedControl)) (nextControlIndex inputByteIndex : Nat) : Prop where
  seen : ∀ control ∈ controls.take nextControlIndex, control.1 ≤ inputByteIndex
  unseen : ∀ control ∈ controls.drop nextControlIndex, inputByteIndex < control.1

section

variable (h : AtControl controls nextControlIndex inputByteIndex)

include h

theorem AtControl.mem_drop (hctrl : control ∈ controls)
    (hlt : inputByteIndex < control.1) : control ∈ controls.drop nextControlIndex := by
  rw [← take_append_drop nextControlIndex controls] at hctrl
  rcases mem_append.1 hctrl with hseen | hunseen
  · exact absurd (h.seen control hseen) (by omega)
  · exact hunseen

theorem AtControl.advance {ni : Nat} (hle : inputByteIndex ≤ ni) {passed rest : List (Nat × SynchronizedControl)}
    (hsp : controls.drop nextControlIndex = passed ++ rest) (hpassed : ∀ control ∈ passed, control.1 ≤ ni)
    (hr : ∀ control ∈ rest, ni < control.1) :
    AtControl controls (nextControlIndex + passed.length) ni := by
  constructor
  · rw [take_add, hsp, take_left]
    intro control hctrl
    rcases mem_append.1 hctrl with hseen | hm
    · exact (h.seen control hseen).trans hle
    · exact hpassed control hm
  · rw [← drop_drop, hsp, drop_left]
    exact hr

theorem AtControl.mem_takeWhile (hsrt : controls.Pairwise fun control control' => control.1 < control'.1) {stop : Nat} :
    control ∈ (controls.drop nextControlIndex).takeWhile (·.1 ≤ stop) ↔
      control ∈ controls ∧ inputByteIndex < control.1 ∧ control.1 ≤ stop := by
  constructor
  · intro hctrl
    have hdrop := takeWhile_subset _ hctrl
    exact ⟨mem_of_mem_drop hdrop, h.unseen control hdrop, by
      simpa using List.all_eq_true.1 all_takeWhile control hctrl⟩
  · rintro ⟨hctrl, hlt, hle⟩
    have hdrop := h.mem_drop hctrl hlt
    rw [← takeWhile_append_dropWhile (p := fun control : Nat × SynchronizedControl =>
      decide (control.1 ≤ stop)) (l := controls.drop nextControlIndex)] at hdrop
    rcases mem_append.1 hdrop with hin | hin
    · exact hin
    · exact absurd (lt_of_mem_dropWhile (hsrt.sublist (drop_sublist ..)) hin) (by omega)

end

theorem length_nil_lt : ([] : List UInt8).length < maxSynchronizedOutputByteCount := by decide

theorem releaseBufferedBytes_fields (loop : SynchronizedLoop) (cause : ReleaseCause) :
    (loop.releaseBufferedBytes cause).output = ⟨[], none⟩ ∧
      (loop.releaseBufferedBytes cause).inputByteIndex = loop.inputByteIndex ∧
      (loop.releaseBufferedBytes cause).nextControlIndex = loop.nextControlIndex := by
  unfold SynchronizedLoop.releaseBufferedBytes
  split_ifs
  · exact ⟨rfl, rfl, rfl⟩
  · exact ⟨rfl, rfl, rfl⟩

theorem Held.releaseBufferedBytes {streamBytes : List UInt8} {markers : List SynchronizedMarker} {readIndex : Nat}
    {loop : SynchronizedLoop} {earlier : List Release}
    (h : Held streamBytes markers readIndex loop.output (earlier ++ loop.releases)) {cause : ReleaseCause}
    (hforced : Release.IsForced ⟨loop.output.bufferedBytes, cause⟩) :
    Held streamBytes markers readIndex (loop.releaseBufferedBytes cause).output
      (earlier ++ (loop.releaseBufferedBytes cause).releases) := by
  unfold SynchronizedLoop.releaseBufferedBytes
  split_ifs with hbuf
  · have hdue : loop.output.deadline = none := by
      rw [← not_isSome_iff_eq_none, h.deadline_iff, not_not]
      exact hbuf
    have hout : loop.output = ⟨[], none⟩ := by
      rw [← hbuf, ← hdue]
    rw [hout] at h
    exact h
  · have hrel := h.releaseForced hforced hbuf
    rw [append_assoc] at hrel
    exact hrel

/-- A turn of the loop over a chunk, behind the releases of the stream so far. -/
structure LoopHeld (before : List UInt8) (oldMarkers : List SynchronizedMarker) (chunkBytes : List UInt8)
    (controls : List (Nat × SynchronizedControl)) (earlier : List Release) (loop : SynchronizedLoop) : Prop where
  held : Held (before ++ chunkBytes) (oldMarkers ++ listMarkers before.length controls)
    (before.length + loop.inputByteIndex) loop.output (earlier ++ loop.releases)
  bounded : loop.output.bufferedBytes.length < maxSynchronizedOutputByteCount
  index_le : loop.inputByteIndex ≤ chunkBytes.length
  atControl : loop.inputByteIndex < chunkBytes.length → AtControl controls loop.nextControlIndex loop.inputByteIndex

namespace LoopHeld

variable {preceding chunk : List UInt8} {markers : List SynchronizedMarker}
  {controls : List (Nat × SynchronizedControl)} {earlier : List Release} {loop : SynchronizedLoop} {time : Nat}
  {canReserve : Nat → Bool}

theorem releaseBufferedBytes (h : LoopHeld preceding markers chunk controls earlier loop) {cause : ReleaseCause}
    (hforced : Release.IsForced ⟨loop.output.bufferedBytes, cause⟩) :
    LoopHeld preceding markers chunk controls earlier (loop.releaseBufferedBytes cause) := by
  obtain ⟨hout, hidx, hn⟩ := releaseBufferedBytes_fields loop cause
  refine ⟨?_, ?_, ?_, ?_⟩
  · rw [hidx]
    exact h.held.releaseBufferedBytes hforced
  · rw [hout]
    exact length_nil_lt
  · rw [hidx]
    exact h.index_le
  · rw [hidx, hn]
    exact h.atControl

theorem stepDirect (hfw : FollowsStream preceding markers chunk controls)
    (h : LoopHeld preceding markers chunk controls earlier loop) (hdue : loop.output.deadline = none)
    (hidx : loop.inputByteIndex < chunk.length) :
    LoopHeld preceding markers chunk controls earlier (loop.stepDirect chunk controls time canReserve) ∧
      loop.inputByteIndex < (loop.stepDirect chunk controls time canReserve).inputByteIndex := by
  have hbuf : loop.output.bufferedBytes = [] := by
    by_contra hne
    exact absurd (h.held.deadline_iff.2 hne) (by simp [hdue])
  have hout : loop.output = ⟨[], none⟩ := by
    rw [← hbuf, ← hdue]
  have hh := h.held
  rw [hout] at hh
  have hat := h.atControl hidx
  unfold SynchronizedLoop.stepDirect
  cases hfi : loop.findBeginControl controls with
  | none =>
    have hnone := findBeginControl_eq_none hfi
    have hr := hh.releaseRest hfw.apart fun marker hmk hbeg => by
      by_contra hlt
      obtain ⟨control, hctrl, hcontrolLt, rfl⟩ := hfw.exists_control hmk (Nat.not_le.1 hlt)
      exact hnone control (hat.mem_drop hctrl hcontrolLt) ⟨hbeg, hcontrolLt⟩
    rw [length_append, FollowsStream.slice_append, append_assoc] at hr
    have htake : (chunk.drop loop.inputByteIndex).take (chunk.length - loop.inputByteIndex) =
        chunk.drop loop.inputByteIndex := take_of_length_le (by rw [length_drop])
    rw [htake] at hr
    dsimp only [SynchronizedLoop.release]
    rw [hout]
    exact ⟨⟨hr, length_nil_lt, le_refl _, fun hlt => absurd hlt (lt_irrefl _)⟩, hidx⟩
  | some found =>
    obtain ⟨controlIndex, stop⟩ := found
    obtain ⟨before, after, hsp, rfl, hlt, hb⟩ := findBeginControl_eq_some hfi
    have hm : (stop, SynchronizedControl.beginControl) ∈ controls :=
      mem_of_mem_drop (hsp ▸ mem_append_right _ (mem_cons_self ..))
    have hen := (hfw.within _ hm).2
    have hsrt := hfw.sorted.sublist (drop_sublist loop.nextControlIndex controls)
    rw [hsp] at hsrt
    obtain ⟨-, haf, hcross⟩ := pairwise_append.1 hsrt
    -- the controls before the marker are `End` markers, and they are passed over
    have hn : AtControl controls (loop.nextControlIndex + (before.length + 1)) stop := by
      have hsplit' : controls.drop loop.nextControlIndex = (before ++ [(stop, .beginControl)]) ++ after := by
        rw [hsp, append_assoc, singleton_append]
      have hpassed := hat.advance hlt.le hsplit' (fun control hctrl => ?_) (pairwise_cons.1 haf).1
      · rwa [length_append] at hpassed
      · rcases mem_append.1 hctrl with hin | hin
        · exact (hcross control hin _ (mem_cons_self ..)).le
        · rw [mem_singleton.1 hin]
    have hheldIndex : preceding.length + (stop - min synchronizedMarkerByteCount
        (stop - loop.inputByteIndex)) = max (preceding.length + loop.inputByteIndex) (preceding.length + stop - 8) := by
      simp only [synchronizedMarkerByteCount, beginSynchronizedOutputBytes, length_cons, length_nil]
      omega
    have hhold := hh.holdMarker hfw.apart (FollowsStream.markerOf_mem hm) rfl
      (Nat.add_lt_add_left hlt _) (by rw [length_append]; exact Nat.add_le_add_left hen _)
      (fun marker hmk hbeg hrd => ?_) hheldIndex (time + synchronizedOutputTimeoutDuration)
    · simp only [FollowsStream.markerOf, FollowsStream.slice_append] at hhold
      have hheldCount : ((chunk.drop (stop - min synchronizedMarkerByteCount
          (stop - loop.inputByteIndex))).take (stop - (stop -
            min synchronizedMarkerByteCount (stop - loop.inputByteIndex)))).length ≤ 8 := by
        rw [length_take]
        simp only [synchronizedMarkerByteCount, beginSynchronizedOutputBytes, length_cons, length_nil]
        omega
      dsimp only
      split_ifs
      · refine ⟨⟨?_, ?_, hen, fun _ => hn⟩, hlt⟩
        · rw [append_assoc] at hhold
          rw [hout]
          exact hhold
        · rw [hout]
          exact hheldCount.trans_lt (by decide)
      · have hforced := hhold.releaseForced (show Release.IsForced ⟨_, .unreserved⟩ from .inr (.inl rfl)) ?_
        · rw [append_assoc, append_assoc] at hforced
          refine ⟨⟨?_, ?_, hen, fun _ => hn⟩, hlt⟩
          · dsimp only [SynchronizedLoop.release]
            rw [hout, append_assoc]
            exact hforced
          · dsimp only [SynchronizedLoop.release]
            rw [hout]
            exact length_nil_lt
        · exact hhold.deadline_iff.1 rfl
    · obtain ⟨control, hctrl, hcontrolLt, rfl⟩ := hfw.exists_control hmk hrd
      refine Nat.add_le_add_left ?_ _
      have hctrl' := hat.mem_drop hctrl hcontrolLt
      rw [hsp] at hctrl'
      rcases mem_append.1 hctrl' with hin | hin
      · exact absurd ⟨hbeg, hcontrolLt⟩ (hb control hin)
      · rcases mem_cons.1 hin with rfl | hin
        · exact le_refl _
        · exact ((pairwise_cons.1 haf).1 control hin).le

/-- While bytes are held, a marker of the chunk that is still to come starts behind the first of them. -/
theorem start_in_buffer (hfw : FollowsStream preceding markers chunk controls)
    (h : LoopHeld preceding markers chunk controls earlier loop) (hdue : loop.output.deadline.isSome = true)
    {control : Nat × SynchronizedControl} (hctrl : control ∈ controls) (hlt : loop.inputByteIndex < control.1) :
    loop.inputByteIndex + synchronizedMarkerByteCount < loop.output.bufferedBytes.length + control.1 := by
  have hlen := h.held.add_length
  have hst := (h.held.lt_start hfw.apart hdue (FollowsStream.markerOf_mem hctrl)
    (Nat.add_lt_add_left hlt preceding.length)).2
  simp only [FollowsStream.markerOf, synchronizedMarkerByteCount, beginSynchronizedOutputBytes, length_cons,
    length_nil] at hst ⊢
  omega

end LoopHeld

/-- The next bytes join the held ones; `passed` are the controls that end among them. -/
structure ReadsAhead (before : List UInt8) (oldMarkers : List SynchronizedMarker) (chunkBytes : List UInt8)
    (controls : List (Nat × SynchronizedControl)) (earlier : List Release) (loop : SynchronizedLoop) (count : Nat)
    (passed : List (Nat × SynchronizedControl)) : Prop where
  follows : FollowsStream before oldMarkers chunkBytes controls
  loopHeld : LoopHeld before oldMarkers chunkBytes controls earlier loop
  isHeld : loop.output.deadline.isSome = true
  index_lt : loop.inputByteIndex < chunkBytes.length
  count_eq : count = min (maxSynchronizedOutputByteCount - loop.output.bufferedBytes.length)
    (chunkBytes.length - loop.inputByteIndex)
  sorted : passed.Pairwise fun control control' => control.1 < control'.1
  mem_iff : ∀ control, control ∈ passed ↔ control ∈ controls ∧ loop.inputByteIndex < control.1 ∧
    control.1 ≤ loop.inputByteIndex + count

namespace ReadsAhead

variable {preceding chunk : List UInt8} {markers : List SynchronizedMarker}
  {controls passed : List (Nat × SynchronizedControl)} {earlier : List Release} {loop read : SynchronizedLoop}
  {count time : Nat}

variable {control : Nat × SynchronizedControl}

theorem index_le_next (_ : ReadsAhead preceding markers chunk controls earlier loop
    count passed) : preceding.length + loop.inputByteIndex ≤ preceding.length + (loop.inputByteIndex + count) := by
  omega

theorem next_le (h : ReadsAhead preceding markers chunk controls earlier loop
    count passed) : preceding.length + (loop.inputByteIndex + count) ≤ (preceding ++ chunk).length := by
  have hc := h.count_eq
  have hidx := h.index_lt
  rw [length_append]
  omega

theorem slice_eq (_ : ReadsAhead preceding markers chunk controls earlier loop
    count passed) : Held.slice (preceding ++ chunk) (preceding.length + loop.inputByteIndex)
      (preceding.length + (loop.inputByteIndex + count)) = (chunk.drop loop.inputByteIndex).take count := by
  rw [FollowsStream.slice_append, Nat.add_sub_cancel_left]

section

variable (h : ReadsAhead preceding markers chunk controls earlier loop count passed)

include h

theorem exists_passed (hmk : marker ∈ markers ++ listMarkers preceding.length controls)
    (hrd : preceding.length + loop.inputByteIndex < marker.endIndex)
    (hen : marker.endIndex ≤ preceding.length + (loop.inputByteIndex + count)) :
    ∃ control ∈ passed, marker = FollowsStream.markerOf preceding.length control := by
  obtain ⟨control, hctrl, hlt, rfl⟩ := h.follows.exists_control hmk hrd
  exact ⟨control, (h.mem_iff control).2 ⟨hctrl, hlt, Nat.le_of_add_le_add_left hen⟩, rfl⟩

theorem held_readOn (hnone : ∀ control ∈ passed, control.2 ≠ .endControl) {dl : Option Nat} (hdue : dl.isSome = true) :
    Held (preceding ++ chunk) (markers ++ listMarkers preceding.length controls)
      (preceding.length + (loop.inputByteIndex + count))
      ⟨loop.output.bufferedBytes ++ (chunk.drop loop.inputByteIndex).take count, dl⟩
      (earlier ++ loop.releases) := by
  rw [← h.slice_eq]
  refine h.loopHeld.held.readOn h.isHeld h.index_le_next h.next_le (fun marker hmk hisEnd hrd => ?_) hdue
  by_contra hen
  obtain ⟨control, hctrl, rfl⟩ := h.exists_passed hmk hrd (Nat.not_lt.1 hen)
  exact hnone control hctrl hisEnd

theorem held_releaseAll (hctrl : control ∈ passed) (hisEnd : control.2 = .endControl)
    (hl : ∀ control' ∈ passed, control'.1 ≤ control.1) :
    Held (preceding ++ chunk) (markers ++ listMarkers preceding.length controls)
      (preceding.length + (loop.inputByteIndex + count)) ⟨[], none⟩
      ((earlier ++ loop.releases) ++
        [⟨loop.output.bufferedBytes ++ (chunk.drop loop.inputByteIndex).take count, .buffered⟩]) := by
  obtain ⟨hm, hlt, hle⟩ := (h.mem_iff control).1 hctrl
  rw [← h.slice_eq]
  refine h.loopHeld.held.releaseAll h.follows.apart h.index_le_next h.next_le (FollowsStream.markerOf_mem hm) hisEnd
    (Nat.add_le_add_left hle _) (fun marker hmk hbehind => ?_) (fun marker hmk hbehind => ?_)
  · by_contra hen
    have hrd : preceding.length + loop.inputByteIndex < marker.endIndex :=
      (Nat.add_lt_add_left hlt _).trans hbehind
    obtain ⟨other, ho, rfl⟩ := h.exists_passed hmk hrd (Nat.not_lt.1 hen)
    exact absurd (hl other ho) (Nat.not_le.2 (Nat.lt_of_add_lt_add_left hbehind))
  · -- a marker is still to come in this chunk, so the read stopped at the full buffer
    obtain ⟨other, ho, hotherLt, rfl⟩ := h.follows.exists_control hmk hbehind
    have hw := (h.follows.within other ho).2
    have hbo := h.loopHeld.bounded
    have hc := h.count_eq
    refine .inr (.inr ⟨rfl, ?_⟩)
    rw [h.slice_eq, length_append, length_take, length_drop]
    omega

theorem held_releaseUpTo (hctrl : control ∈ passed) (hbeg : control.2 = .beginControl)
    (hl : ∀ control' ∈ passed, control'.1 ≤ control.1) (dl : Nat) :
    Held (preceding ++ chunk) (markers ++ listMarkers preceding.length controls)
      (preceding.length + (loop.inputByteIndex + count))
      ⟨(loop.output.bufferedBytes ++ (chunk.drop loop.inputByteIndex).take count).drop
        (loop.output.bufferedBytes.length + control.1 - loop.inputByteIndex - synchronizedMarkerByteCount), some dl⟩
      ((earlier ++ loop.releases) ++
        [⟨(loop.output.bufferedBytes ++ (chunk.drop loop.inputByteIndex).take count).take
          (loop.output.bufferedBytes.length + control.1 - loop.inputByteIndex - synchronizedMarkerByteCount),
            .buffered⟩]) := by
  obtain ⟨hm, hlt, hle⟩ := (h.mem_iff control).1 hctrl
  have hlen := h.loopHeld.held.add_length
  have hrd := Nat.add_lt_add_left hlt preceding.length
  have hst := h.loopHeld.start_in_buffer h.follows h.isHeld hm hlt
  rw [← h.slice_eq]
  refine h.loopHeld.held.releaseUpTo h.follows.apart h.index_le_next h.next_le (FollowsStream.markerOf_mem hm) hbeg
    hrd (Nat.add_le_add_left hle _) (fun marker hmk hbehind => ?_) ?_ dl
  · by_contra hen
    obtain ⟨other, ho, rfl⟩ := h.exists_passed hmk (hrd.trans hbehind) (Nat.not_lt.1 hen)
    exact absurd (hl other ho) (Nat.not_le.2 (Nat.lt_of_add_lt_add_left hbehind))
  · simp only [FollowsStream.markerOf, synchronizedMarkerByteCount, beginSynchronizedOutputBytes, length_cons,
      length_nil] at hst ⊢
    omega

theorem start_in_buffer (hctrl : control ∈ passed) :
    loop.inputByteIndex + synchronizedMarkerByteCount < loop.output.bufferedBytes.length + control.1 := by
  obtain ⟨hm, hlt, -⟩ := (h.mem_iff control).1 hctrl
  exact h.loopHeld.start_in_buffer h.follows h.isHeld hm hlt

theorem held_applyBufferedControls (hout : read.output =
      ⟨loop.output.bufferedBytes ++ (chunk.drop loop.inputByteIndex).take count, loop.output.deadline⟩)
    (hreleases : read.releases = loop.releases) {applied : SynchronizedLoop}
    (happlied : applied = read.applyBufferedControls time
      (lastStart .beginControl loop.output.bufferedBytes.length loop.inputByteIndex passed)
      (lastStart .endControl loop.output.bufferedBytes.length loop.inputByteIndex passed)) :
    Held (preceding ++ chunk) (markers ++ listMarkers preceding.length controls)
      (preceding.length + (loop.inputByteIndex + count)) applied.output
      (earlier ++ applied.releases) ∧ applied.nextControlIndex = read.nextControlIndex := by
  have hbuf : read.output.bufferedBytes ≠ [] := by
    rw [hout]
    exact append_ne_nil_of_left_ne_nil (h.loopHeld.held.deadline_iff.1 h.isHeld) _
  subst happlied
  unfold SynchronizedLoop.applyBufferedControls
  cases hlastEnd : lastStart .endControl loop.output.bufferedBytes.length loop.inputByteIndex passed with
  | none =>
    have hnone := lastStart_eq_none hlastEnd
    dsimp only
    split_ifs
    · rw [hout, hreleases]
      exact ⟨h.held_readOn hnone rfl, rfl⟩
    · rw [hout, hreleases]
      exact ⟨h.held_readOn hnone h.isHeld, rfl⟩
  | some endIndex =>
    obtain ⟨endControl, hendControl, hisEnd, rfl, hlastOfEnd⟩ := lastStart_eq_some h.sorted hlastEnd
    dsimp only
    cases hfilter : (lastStart .beginControl loop.output.bufferedBytes.length loop.inputByteIndex passed).filter
      (fun beginIndex => beginIndex > loop.output.bufferedBytes.length + endControl.1 - loop.inputByteIndex -
        synchronizedMarkerByteCount) with
    | some beginIndex =>
      obtain ⟨hlastBegin, hbehind⟩ := filter_eq_some_iff.1 hfilter
      obtain ⟨beginControl, hbeginControl, hisBegin, rfl, hlastOfBegin⟩ := lastStart_eq_some h.sorted hlastBegin
      refine ⟨?_, rfl⟩
      have hrel := h.held_releaseUpTo hbeginControl hisBegin (fun control hctrl => ?_)
        (time + synchronizedOutputTimeoutDuration)
      · dsimp only [SynchronizedLoop.release]
        rw [hout, hreleases, ← append_assoc]
        exact hrel
      · cases hki : control.2 with
        | beginControl => exact hlastOfBegin control hctrl hki
        | endControl =>
          have hen := hlastOfEnd control hctrl hki
          simp only [gt_iff_lt, decide_eq_true_iff] at hbehind
          omega
    | none =>
      have hrel := h.held_releaseAll hendControl hisEnd fun control hctrl => ?_
      · dsimp only
        rw [SynchronizedLoop.releaseBufferedBytes, if_neg hbuf]
        refine ⟨?_, rfl⟩
        dsimp only [SynchronizedLoop.release]
        rw [hout, hreleases, ← append_assoc]
        exact hrel
      · cases hki : control.2 with
        | endControl => exact hlastOfEnd control hctrl hki
        | beginControl =>
          cases hlastBegin : lastStart .beginControl loop.output.bufferedBytes.length loop.inputByteIndex passed with
          | none => exact absurd hki (lastStart_eq_none hlastBegin control hctrl)
          | some beginIndex =>
            obtain ⟨beginControl, hbeginControl, -, rfl, hlastOfBegin⟩ := lastStart_eq_some h.sorted hlastBegin
            have hbeg := hlastOfBegin control hctrl hki
            have hst := h.start_in_buffer hbeginControl
            rw [hlastBegin, filter_eq_none_iff] at hfilter
            have hb := hfilter _ rfl
            simp only [gt_iff_lt, decide_eq_true_iff] at hb
            omega

end

end ReadsAhead

namespace LoopHeld

variable {preceding chunk : List UInt8} {markers : List SynchronizedMarker}
  {controls : List (Nat × SynchronizedControl)} {earlier : List Release} {loop : SynchronizedLoop} {time : Nat}
  {canReserve : Nat → Bool}

/-- The turns left: a turn reads bytes, or it lets the buffer go. -/
def turnsLeft (chunkBytes : List UInt8) (loop : SynchronizedLoop) : Nat :=
  2 * (chunkBytes.length - loop.inputByteIndex) + (if loop.output.deadline.isSome then 1 else 0)

theorem length_applyBufferedControls_le (read : SynchronizedLoop) (lastBeginIndex lastEndIndex : Option Nat) :
    (read.applyBufferedControls time lastBeginIndex lastEndIndex).output.bufferedBytes.length ≤
      read.output.bufferedBytes.length := by
  unfold SynchronizedLoop.applyBufferedControls
  cases lastEndIndex with
  | none =>
    dsimp only
    split_ifs
    · exact le_refl _
    · exact le_refl _
  | some endIndex =>
    dsimp only
    split
    · exact (drop_sublist ..).length_le
    · unfold SynchronizedLoop.releaseBufferedBytes
      split_ifs
      · exact Nat.zero_le _
      · exact Nat.zero_le _

theorem releaseFullBuffer
    (hh : Held (preceding ++ chunk) (markers ++ listMarkers preceding.length controls)
      (preceding.length + loop.inputByteIndex) loop.output (earlier ++ loop.releases))
    (hlen : loop.output.bufferedBytes.length ≤ maxSynchronizedOutputByteCount)
    (hidx : loop.inputByteIndex ≤ chunk.length)
    (hat : loop.inputByteIndex < chunk.length → AtControl controls loop.nextControlIndex loop.inputByteIndex) :
    LoopHeld preceding markers chunk controls earlier loop.releaseFullBuffer ∧
      loop.releaseFullBuffer.inputByteIndex = loop.inputByteIndex := by
  unfold SynchronizedLoop.releaseFullBuffer
  split_ifs with hfull
  · obtain ⟨hout, hs, hn⟩ := releaseBufferedBytes_fields loop .buffered
    refine ⟨⟨?_, ?_, by rw [hs]; exact hidx, by rw [hs, hn]; exact hat⟩, hs⟩
    · rw [hs]
      exact hh.releaseBufferedBytes (.inr (.inr ⟨rfl, hfull.2⟩))
    · rw [hout]
      exact length_nil_lt
  · refine ⟨⟨hh, ?_, hidx, hat⟩, rfl⟩
    by_cases hbuf : loop.output.bufferedBytes = []
    · rw [hbuf]
      exact length_nil_lt
    · exact lt_of_le_of_ne hlen fun heq => hfull ⟨hh.deadline_iff.2 hbuf, heq⟩

theorem stepHeld (hfw : FollowsStream preceding markers chunk controls)
    (h : LoopHeld preceding markers chunk controls earlier loop) (hdue : loop.output.deadline.isSome = true)
    (hidx : loop.inputByteIndex < chunk.length) :
    ∃ next, loop.stepHeld chunk controls time canReserve = some next ∧
      LoopHeld preceding markers chunk controls earlier next ∧
      turnsLeft chunk next < turnsLeft chunk loop := by
  unfold SynchronizedLoop.stepHeld
  dsimp only
  by_cases hreserve : canReserve loop.reservationCount = true
  swap
  · rw [if_neg hreserve]
    have hrel := h.releaseBufferedBytes (show Release.IsForced ⟨_, .unreserved⟩ from .inr (.inl rfl))
    obtain ⟨hout, hs, -⟩ := releaseBufferedBytes_fields loop .unreserved
    refine ⟨_, rfl, ⟨hrel.held, hrel.bounded, hrel.index_le, hrel.atControl⟩, ?_⟩
    simp [turnsLeft, hout, hs, hdue]
  rw [if_pos hreserve]
  have hat := h.atControl hidx
  have hbo := h.bounded
  have hscan := @scanControls_eq loop.output.bufferedBytes.length loop.inputByteIndex
    (loop.inputByteIndex + min (maxSynchronizedOutputByteCount - loop.output.bufferedBytes.length)
      (chunk.length - loop.inputByteIndex)) (controls.drop loop.nextControlIndex) (fun control hctrl => by
        have hlt := hat.unseen control hctrl
        have hst := h.start_in_buffer hfw hdue (mem_of_mem_drop hctrl) hlt
        omega) ⟨none, none, loop.nextControlIndex⟩
  simp only [or_none] at hscan
  rw [hscan, map_some]
  refine ⟨_, rfl, ?_⟩
  generalize hc : min (maxSynchronizedOutputByteCount - loop.output.bufferedBytes.length)
    (chunk.length - loop.inputByteIndex) = count
  have hahead : ReadsAhead preceding markers chunk controls earlier loop count
      ((controls.drop loop.nextControlIndex).takeWhile (·.1 ≤ loop.inputByteIndex + count)) :=
    ⟨hfw, h, hdue, hidx, hc.symm,
      (hfw.sorted.sublist (drop_sublist ..)).sublist (takeWhile_sublist _),
      fun _ => hat.mem_takeWhile hfw.sorted⟩
  generalize hrd : ({ loop with
    output := { loop.output with
      bufferedBytes := loop.output.bufferedBytes ++ (chunk.drop loop.inputByteIndex).take count }
    reservationCount := loop.reservationCount + 1
    nextControlIndex := loop.nextControlIndex + ((controls.drop loop.nextControlIndex).takeWhile
      (·.1 ≤ loop.inputByteIndex + count)).length } : SynchronizedLoop) = read
  have hout : read.output = ⟨loop.output.bufferedBytes ++ (chunk.drop loop.inputByteIndex).take count,
    loop.output.deadline⟩ := hrd ▸ rfl
  have hreadNext : read.nextControlIndex = loop.nextControlIndex + ((controls.drop loop.nextControlIndex).takeWhile
    (·.1 ≤ loop.inputByteIndex + count)).length := hrd ▸ rfl
  obtain ⟨hh, hn⟩ := @ReadsAhead.held_applyBufferedControls _ _ _ _ _ _ loop read count time
    hahead hout (hrd ▸ rfl) _ rfl
  have hlen := @length_applyBufferedControls_le time read
    (lastStart .beginControl loop.output.bufferedBytes.length loop.inputByteIndex
      ((controls.drop loop.nextControlIndex).takeWhile (·.1 ≤ loop.inputByteIndex + count)))
    (lastStart .endControl loop.output.bufferedBytes.length loop.inputByteIndex
      ((controls.drop loop.nextControlIndex).takeWhile (·.1 ≤ loop.inputByteIndex + count)))
  rw [hout, length_append, length_take, length_drop] at hlen
  generalize read.applyBufferedControls time _ _ = applied at hh hn hlen ⊢
  have hat' : AtControl controls applied.nextControlIndex (loop.inputByteIndex + count) := by
    rw [hn, hreadNext]
    refine hat.advance (Nat.le_add_right ..) (takeWhile_append_dropWhile).symm (fun control hctrl => ?_)
      (fun control hctrl => ?_)
    · exact ((hat.mem_takeWhile hfw.sorted).1 hctrl).2.2
    · exact lt_of_mem_dropWhile (hfw.sorted.sublist (drop_sublist ..)) hctrl
  obtain ⟨hloop, hs⟩ := @releaseFullBuffer preceding chunk markers controls earlier
    { applied with inputByteIndex := loop.inputByteIndex + count } hh
    (show applied.output.bufferedBytes.length ≤ _ by omega)
    (show loop.inputByteIndex + count ≤ chunk.length by omega) fun _ => hat'
  refine ⟨hloop, ?_⟩
  simp only [turnsLeft, hs, hdue, if_true]
  split_ifs <;> omega

theorem run (hfw : FollowsStream preceding markers chunk controls) (ts : Nat)
    (h : LoopHeld preceding markers chunk controls earlier loop) (hturns : turnsLeft chunk loop ≤ ts) :
    ∃ final, loop.run chunk controls time canReserve ts = some final ∧
      LoopHeld preceding markers chunk controls earlier final ∧
      final.inputByteIndex = chunk.length := by
  have hidx := h.index_le
  induction ts generalizing loop with
  | zero =>
    have hen : loop.inputByteIndex = chunk.length := by
      simp only [turnsLeft] at hturns
      omega
    exact ⟨loop, if_neg (by omega), h, hen⟩
  | succ ts ih =>
    rw [SynchronizedLoop.run]
    split_ifs with hlt
    swap
    · exact ⟨loop, rfl, h, by omega⟩
    unfold SynchronizedLoop.step
    split_ifs with hdue
    · obtain ⟨hn, hrd⟩ := @stepDirect _ _ _ _ _ loop time canReserve hfw h hdue hlt
      refine ih hn ?_ hn.index_le
      have hnextIndex := hn.index_le
      simp only [turnsLeft] at hturns ⊢
      split_ifs <;> omega
    · obtain ⟨next, hstep, hn, hless⟩ := @stepHeld _ _ _ _ _ loop time canReserve hfw h (isSome_iff_ne_none.2 hdue) hlt
      rw [hstep, bind_some]
      exact ih hn (by omega) hn.index_le

end LoopHeld

/-! ### The stream -/

/-- What the normalizer gave for the stream so far. -/
def SynchronizedStream.fed (stream : SynchronizedStream) : NormalizedTerminalInput :=
  ⟨stream.normalizer, stream.inputBytes, stream.markers.map fun marker => (marker.endIndex, marker.control)⟩

/-- The stream between two events. -/
structure StreamHeld (stream : SynchronizedStream) : Prop where
  ordered : ControlsOrdered stream.fed
  marked : ControlsMarked stream.fed
  start_lt : ∀ marker ∈ stream.markers, marker.startIndex < marker.endIndex
  le_start : ∀ marker ∈ stream.markers, marker.endIndex ≤ marker.startIndex + 8
  held : Held stream.inputBytes stream.markers stream.inputBytes.length stream.output stream.releases
  bounded : stream.output.bufferedBytes.length < maxSynchronizedOutputByteCount

theorem markersApart_of_controls {markers : List SynchronizedMarker} {normalizer : C1InputNormalizer} {bs : List UInt8}
    (hord : ControlsOrdered ⟨normalizer, bs, markers.map fun marker => (marker.endIndex, marker.control)⟩)
    (hmd : ControlsMarked ⟨normalizer, bs, markers.map fun marker => (marker.endIndex, marker.control)⟩)
    (hst : ∀ marker ∈ markers, marker.startIndex < marker.endIndex)
    (hle : ∀ marker ∈ markers, marker.endIndex ≤ marker.startIndex + 8) : MarkersApart markers := by
  refine ⟨hst, hle, ?_, fun marker hmk marker' hmarker' hlt => ?_⟩
  · have hnd : (markers.map SynchronizedMarker.endIndex).Nodup :=
      pairwise_map.2 ((pairwise_map.1 hord.sorted).imp ne_of_lt)
    exact fun marker hmk marker' hmarker' => inj_on_of_nodup_map hnd hmk hmarker'
  · exact (hmd.marked _ (List.mem_map_of_mem hmk)).add_le (hmd.marked _ (List.mem_map_of_mem hmarker')) hlt

theorem streamHeld_start : StreamHeld start := by
  refine ⟨⟨List.Pairwise.nil, by simp [fed, start]⟩, controlsMarked_start,
    by simp [start], by simp [start], ?_, length_nil_lt⟩
  exact ⟨le_refl _, rfl, by simp [SynchronizedStream.start, SynchronizedOutput.default],
    by simp [SynchronizedStream.start, SynchronizedOutput.default], by simp [SynchronizedStream.start],
    by simp [start], fun _ _ hpr => absurd hpr.begin_mem (by simp [start])⟩

def markersAfterChunk (stream : SynchronizedStream) (newBytes : List UInt8) : List SynchronizedMarker :=
  stream.markers ++ listMarkers stream.inputBytes.length
    (stream.normalizer.normalizeTerminalInputBytes newBytes).synchronizedControls

theorem feedChunk_fed (stream : SynchronizedStream) (bs : List UInt8) :
    feedChunk stream.fed bs =
      ⟨(stream.normalizer.normalizeTerminalInputBytes bs).normalizer,
        stream.inputBytes ++ (stream.normalizer.normalizeTerminalInputBytes bs).normalizedBytes,
        (markersAfterChunk stream bs).map fun marker => (marker.endIndex, marker.control)⟩ := by
  simp [feedChunk, NormalizedTerminalInput.after, fed, markersAfterChunk, listMarkers, Function.comp_def]

theorem ControlsOrdered.feedChunk {fed : NormalizedTerminalInput} (h : ControlsOrdered fed)
    (hbo : fed.normalizer.IsBounded) (bs : List UInt8) :
    ControlsOrdered (Terminal.feedChunk fed bs) :=
  (h.foldlFeedByte bs).of_agrees (feedChunk_agrees hbo bs)

theorem StreamHeld.start_of_chunk (h : StreamHeld stream) (bs : List UInt8)
    (hmk : marker ∈ markersAfterChunk stream bs) :
    marker.startIndex < marker.endIndex ∧ marker.endIndex ≤ marker.startIndex + 8 := by
  rcases mem_append.1 hmk with hold | hnew
  · exact ⟨h.start_lt marker hold, h.le_start marker hold⟩
  · obtain ⟨control, hctrl, rfl⟩ := List.mem_map.1 hnew
    have hpos := ((controlsOrdered_normalizeBytes h.marked.isBounded bs).within control hctrl).1
    simp only [synchronizedMarkerByteCount, beginSynchronizedOutputBytes, length_cons, length_nil]
    omega

theorem StreamHeld.follows (h : StreamHeld stream) (bs : List UInt8) :
    FollowsStream stream.inputBytes stream.markers (stream.normalizer.normalizeTerminalInputBytes bs).normalizedBytes
      (stream.normalizer.normalizeTerminalInputBytes bs).synchronizedControls := by
  have hchunk := controlsOrdered_normalizeBytes h.marked.isBounded bs
  have hord := h.ordered.feedChunk h.marked.isBounded bs
  have hmd := h.marked.feedChunk bs
  rw [feedChunk_fed] at hord hmd
  refine ⟨markersApart_of_controls hord hmd (fun marker hmk => (h.start_of_chunk _ hmk).1)
    (fun marker hmk => (h.start_of_chunk _ hmk).2), fun marker hmk => ?_, hchunk.sorted, hchunk.within⟩
  exact (h.ordered.within _ (List.mem_map_of_mem hmk)).2

theorem StreamHeld.loopHeld (h : StreamHeld stream) (bs : List UInt8) :
    LoopHeld stream.inputBytes stream.markers (stream.normalizer.normalizeTerminalInputBytes bs).normalizedBytes
      (stream.normalizer.normalizeTerminalInputBytes bs).synchronizedControls stream.releases
      ⟨stream.output, 0, 0, 0, [], false⟩ := by
  have hfw := h.follows bs
  refine ⟨?_, h.bounded, Nat.zero_le _, fun _ => ⟨by simp, fun control hctrl => ?_⟩⟩
  · rw [append_nil]
    refine h.held.extend _ fun marker hmk => ?_
    obtain ⟨control, hctrl, rfl⟩ := List.mem_map.1 hmk
    have hpos := (hfw.within control hctrl).1
    exact ⟨Nat.le_add_right .., by dsimp only; omega⟩
  · exact (hfw.within control (mem_of_mem_drop hctrl)).1

theorem StreamHeld.step {stream : SynchronizedStream} (h : StreamHeld stream) (ev : SynchronizedEvent) :
    ∃ next, stream.step ev = some next ∧ StreamHeld next := by
  cases ev with
  | chunk bs time canReserve =>
    have hfw := h.follows bs
    have hst := h.loopHeld bs
    generalize hstart : (if stream.output.isExpired time then
      SynchronizedLoop.releaseBufferedBytes ⟨stream.output, 0, 0, 0, [], false⟩ .expired
      else ⟨stream.output, 0, 0, 0, [], false⟩) = started
    have hloop : LoopHeld stream.inputBytes stream.markers
        (stream.normalizer.normalizeTerminalInputBytes bs).normalizedBytes
        (stream.normalizer.normalizeTerminalInputBytes bs).synchronizedControls stream.releases started ∧
        started.inputByteIndex = 0 := by
      rw [← hstart]
      split_ifs
      · exact ⟨hst.releaseBufferedBytes (.inl rfl), (releaseBufferedBytes_fields _ _).2.1⟩
      · exact ⟨hst, rfl⟩
    obtain ⟨hh, hz⟩ := hloop
    obtain ⟨final, hrun, hfinal, hen⟩ := @LoopHeld.run _ _ _ _ _ started time canReserve hfw
      (2 * (stream.normalizer.normalizeTerminalInputBytes bs).normalizedBytes.length + 1) hh (by
        simp only [LoopHeld.turnsLeft, hz]
        split_ifs <;> omega)
    have hproc : stream.output.processNormalizedBytes (stream.normalizer.normalizeTerminalInputBytes bs).normalizedBytes
        (stream.normalizer.normalizeTerminalInputBytes bs).synchronizedControls time
        canReserve = some final := by
      unfold processNormalizedBytes
      dsimp only
      rw [hstart]
      exact hrun
    have hord := h.ordered.feedChunk h.marked.isBounded bs
    have hmd := h.marked.feedChunk bs
    rw [feedChunk_fed] at hord hmd
    have hheldEnd := hfinal.held
    rw [hen, ← length_append] at hheldEnd
    have hstep : stream.step (.chunk bs time canReserve) = some
        ⟨(stream.normalizer.normalizeTerminalInputBytes bs).normalizer,
          stream.inputBytes ++ (stream.normalizer.normalizeTerminalInputBytes bs).normalizedBytes,
          markersAfterChunk stream bs, final.output, stream.releases ++ final.releases⟩ := by
      simp only [SynchronizedStream.step, hproc]
      rfl
    exact ⟨_, hstep, hord, hmd, fun marker hmk => (h.start_of_chunk _ hmk).1,
      fun marker hmk => (h.start_of_chunk _ hmk).2, hheldEnd, hfinal.bounded⟩
  | expire time =>
    have hst : Held stream.inputBytes stream.markers stream.inputBytes.length stream.output
        (stream.releases ++ []) := by
      rw [append_nil]
      exact h.held
    refine ⟨_, rfl, h.ordered, h.marked, h.start_lt, h.le_start, ?_, ?_⟩
    · unfold releaseExpiredBytes
      dsimp only
      split_ifs
      · exact @Held.releaseBufferedBytes _ _ _ ⟨stream.output, 0, 0, 0, [], false⟩ _ hst _ (.inl rfl)
      · exact hst
    · unfold releaseExpiredBytes
      dsimp only
      split_ifs
      · rw [(releaseBufferedBytes_fields _ _).1]
        exact length_nil_lt
      · exact h.bounded

theorem streamHeld_foldlM (h : StreamHeld stream) (events : List SynchronizedEvent) :
    ∃ final, events.foldlM step stream = some final ∧ StreamHeld final := by
  induction events generalizing stream with
  | nil => exact ⟨stream, rfl, h⟩
  | cons ev events ih =>
    obtain ⟨next, hstep, hn⟩ := h.step ev
    obtain ⟨final, hrun, hfinal⟩ := ih hn
    refine ⟨final, ?_, hfinal⟩
    rw [foldlM_cons, hstep]
    exact hrun

def SynchronizedEvent.terminalInputBytes : SynchronizedEvent → List UInt8
  | .chunk newBytes _ _ => newBytes
  | .expire _ => []

theorem fed_step {next : SynchronizedStream} (hbo : stream.fed.normalizer.IsBounded) {ev : SynchronizedEvent}
    (hstep : stream.step ev = some next) :
    next.fed.Agrees (ev.terminalInputBytes.foldl feedByte stream.fed) := by
  cases ev with
  | chunk bs time canReserve =>
    obtain ⟨loop, -, rfl⟩ := map_eq_some_iff.1 hstep
    have hagrees := feedChunk_agrees hbo bs
    rw [feedChunk_fed] at hagrees
    exact hagrees
  | expire time =>
    obtain rfl := some_inj.1 hstep
    exact NormalizedTerminalInput.Agrees.refl hbo

theorem fed_foldlM {final : SynchronizedStream} (h : StreamHeld stream) {events : List SynchronizedEvent}
    (hrun : events.foldlM step stream = some final) :
    final.fed.Agrees ((events.flatMap SynchronizedEvent.terminalInputBytes).foldl feedByte stream.fed) := by
  induction events generalizing stream with
  | nil =>
    obtain rfl := some_inj.1 hrun
    exact NormalizedTerminalInput.Agrees.refl h.marked.isBounded
  | cons ev events ih =>
    obtain ⟨next, hstep, hn⟩ := h.step ev
    rw [foldlM_cons, hstep] at hrun
    rw [flatMap_cons, List.foldl_append]
    exact (ih hn hrun).trans ((fed_step h.marked.isBounded hstep).foldlFeedByte _)

/-- A call of the release function inside a stretch, forced by the deadline, a full buffer or the allocator. -/
def IsCutByForce (releases : List Release) (startIndex endIndex : Nat) : Prop :=
  ∃ release cutIndex, EndsAt releases release cutIndex ∧ release.IsForced ∧ startIndex < cutIndex ∧ cutIndex < endIndex

/-- A `Begin` marker cut between two chunks, then a letter and the `End` marker. -/
def splitMarkerEvents : List SynchronizedEvent :=
  [.chunk [0x1b, 0x5b, 0x3f, 0x32, 0x30] 0 (fun _ => true),
    .chunk [0x32, 0x36, 0x68, 0x58, 0x1b, 0x5b, 0x3f, 0x32, 0x30, 0x32, 0x36, 0x6c] 0 (fun _ => true)]

theorem run_splitMarkerEvents : (run splitMarkerEvents).map
    (fun stream => (stream.markers, stream.releases)) =
      some ([⟨5, 8, .beginControl⟩, ⟨9, 17, .endControl⟩],
        [⟨[0x1b, 0x5b, 0x3f, 0x32, 0x30], .direct⟩, ⟨[], .direct⟩,
          ⟨[0x32, 0x36, 0x68, 0x58, 0x1b, 0x5b, 0x3f, 0x32, 0x30, 0x32, 0x36, 0x6c], .buffered⟩]) := by
  decide

end Koshi.Terminal
