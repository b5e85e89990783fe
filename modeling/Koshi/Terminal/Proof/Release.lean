import Koshi.Terminal.SynchronizedOutput

/-!
# What may be released when

The calls of the release function cut the stream into pieces. `Held` says where the cuts may lie: between a `Begin`
marker and the `End` marker right behind it there is none, unless one of them was forced. One lemma for each thing
the loop does to the buffer shows that it keeps `Held`.
-/

namespace Koshi.Terminal

open List

/-! ### Cuts -/

/-- The bytes of some calls, in order. -/
def listReleasedBytes (releases : List Release) : List UInt8 := releases.flatMap Release.releasedBytes

@[simp] theorem listReleasedBytes_append (releases more : List Release) :
    listReleasedBytes (releases ++ more) = listReleasedBytes releases ++ listReleasedBytes more :=
  flatMap_append ..

@[simp] theorem listReleasedBytes_singleton (release : Release) :
    listReleasedBytes [release] = release.releasedBytes := by
  simp [listReleasedBytes]

/-- How far the released bytes reach. -/
def releasedByteCount (releases : List Release) : Nat := (listReleasedBytes releases).length

@[simp] theorem releasedByteCount_concat (releases : List Release) (release : Release) :
    releasedByteCount (releases ++ [release]) = releasedByteCount releases + release.releasedBytes.length := by
  simp [releasedByteCount]

/-- The call `release` ends at `cutIndex` of the stream. -/
def EndsAt (releases : List Release) (release : Release) (cutIndex : Nat) : Prop :=
  ∃ before after, releases = before ++ release :: after ∧ releasedByteCount (before ++ [release]) = cutIndex

/-- The deadline passed, the buffer was full, or it could not grow. -/
def Release.IsForced (release : Release) : Prop :=
  release.cause = .expired ∨ release.cause = .unreserved ∨
    (release.cause = .buffered ∧ release.releasedBytes.length = maxSynchronizedOutputByteCount)

def IsForcedIn (releases : List Release) (startIndex endIndex : Nat) : Prop :=
  ∃ release cutIndex, EndsAt releases release cutIndex ∧ release.IsForced ∧ startIndex < cutIndex ∧ cutIndex ≤ endIndex

/-- No call ends strictly between the two. -/
def IsUncut (releases : List Release) (startIndex endIndex : Nat) : Prop :=
  ∀ release cutIndex, EndsAt releases release cutIndex → ¬ (startIndex < cutIndex ∧ cutIndex < endIndex)

variable {releases : List Release} {release : Release} {start endIndex cutIndex : Nat}

theorem EndsAt.append (h : EndsAt releases release cutIndex) (more : List Release) :
    EndsAt (releases ++ more) release cutIndex := by
  obtain ⟨before, after, rfl, hcut⟩ := h
  exact ⟨before, after ++ more, by simp, hcut⟩

theorem endsAt_last (releases : List Release) (release : Release) :
    EndsAt (releases ++ [release]) release (releasedByteCount releases + release.releasedBytes.length) :=
  ⟨releases, [], rfl, releasedByteCount_concat ..⟩

theorem EndsAt.le (h : EndsAt releases release cutIndex) : cutIndex ≤ releasedByteCount releases := by
  obtain ⟨before, after, rfl, rfl⟩ := h
  simp only [releasedByteCount_concat]
  simp [releasedByteCount, listReleasedBytes]

theorem EndsAt.of_append_singleton {lastRelease : Release} (h : EndsAt (releases ++ [lastRelease]) release cutIndex) :
    EndsAt releases release cutIndex ∨ cutIndex = releasedByteCount releases + lastRelease.releasedBytes.length := by
  obtain ⟨before, after, heq, hcut⟩ := h
  rcases eq_nil_or_concat after with rfl | ⟨after, last, rfl⟩
  · obtain ⟨rfl, hl⟩ := append_inj' heq rfl
    obtain rfl := singleton_inj.1 hl
    exact .inr (hcut ▸ releasedByteCount_concat ..)
  · rw [concat_eq_append, ← cons_append, ← append_assoc] at heq
    obtain ⟨rfl, -⟩ := append_inj' heq rfl
    exact .inl ⟨before, after, rfl, hcut⟩

theorem IsForcedIn.append (h : IsForcedIn releases start endIndex) (more : List Release) :
    IsForcedIn (releases ++ more) start endIndex := by
  obtain ⟨release, cutIndex, hcut, hforced, hin⟩ := h
  exact ⟨release, cutIndex, hcut.append more, hforced, hin⟩

theorem IsForcedIn.mono {laterIndex : Nat} (h : IsForcedIn releases start endIndex) (hle : endIndex ≤ laterIndex) :
    IsForcedIn releases start laterIndex := by
  obtain ⟨release, cutIndex, hcut, hforced, hlt, hcutle⟩ := h
  exact ⟨release, cutIndex, hcut, hforced, hlt, hcutle.trans hle⟩

theorem IsUncut.append_singleton (h : IsUncut releases start endIndex)
    (hen : endIndex ≤ releasedByteCount releases + release.releasedBytes.length) :
    IsUncut (releases ++ [release]) start endIndex := by
  rintro other cutIndex hcut ⟨hlt, hlt'⟩
  rcases hcut.of_append_singleton with hold | rfl
  · exact h other cutIndex hold ⟨hlt, hlt'⟩
  · omega

theorem isUncut_of_le (h : releasedByteCount releases ≤ start) : IsUncut releases start endIndex := by
  rintro release cutIndex hcut ⟨hlt, -⟩
  have := hcut.le
  omega

/-- The bytes from one index to the other go out in one call. -/
def IsReleasedAtOnce (releases : List Release) (startIndex endIndex : Nat) : Prop :=
  ∃ before release after, releases = before ++ release :: after ∧ releasedByteCount before ≤ startIndex ∧
    endIndex ≤ releasedByteCount (before ++ [release])

theorem IsUncut.isReleasedAtOnce (h : IsUncut releases start endIndex) (hlt : start < endIndex)
    (hrel : endIndex ≤ releasedByteCount releases) : IsReleasedAtOnce releases start endIndex := by
  induction releases using List.reverseRecOn with
  | nil => exact absurd hrel (by simpa [releasedByteCount, listReleasedBytes] using by omega)
  | append_singleton releases release ih =>
    by_cases hb : endIndex ≤ releasedByteCount releases
    · obtain ⟨before, inner, after, heq, hst, hen⟩ :=
        ih (fun other cutIndex hcut => h other cutIndex (hcut.append _)) hb
      exact ⟨before, inner, after ++ [release], by simp [heq], hst, hen⟩
    · refine ⟨releases, release, [], rfl, ?_, hrel⟩
      -- the calls before the last end inside the stretch, unless they end before it
      rcases eq_nil_or_concat releases with rfl | ⟨front, last, rfl⟩
      · exact Nat.zero_le _
      · by_contra hst
        rw [concat_eq_append] at h hb hst
        rw [releasedByteCount_concat] at hb hst
        exact h last _ ((endsAt_last front last).append [release]) (by omega)

/-! ### The markers -/

/-- Markers of eight bytes that do not overlap, each with a start among its bytes. -/
structure MarkersApart (markers : List SynchronizedMarker) : Prop where
  start_lt : ∀ marker ∈ markers, marker.startIndex < marker.endIndex
  le_start : ∀ marker ∈ markers, marker.endIndex ≤ marker.startIndex + 8
  eq_of_end : ∀ marker ∈ markers, ∀ marker' ∈ markers, marker.endIndex = marker'.endIndex → marker = marker'
  gap : ∀ marker ∈ markers, ∀ marker' ∈ markers, marker.endIndex < marker'.endIndex →
    marker.endIndex + 8 ≤ marker'.endIndex

/-- A `Begin` marker and the `End` marker that comes next. No other `Begin` marker stands between the two: a chunk that
ends an update keeps its bytes from its last `Begin` marker on, and the bytes behind an earlier one go out. -/
structure IsPair (markers : List SynchronizedMarker) (opening closing : SynchronizedMarker) : Prop where
  begin_mem : opening ∈ markers
  end_mem : closing ∈ markers
  isBegin : opening.control = .beginControl
  isEnd : closing.control = .endControl
  lt : opening.endIndex < closing.endIndex
  between : ∀ marker ∈ markers, opening.endIndex < marker.endIndex → closing.endIndex ≤ marker.endIndex

theorem MarkersApart.end_add_le {markers : List SynchronizedMarker} (happart : MarkersApart markers)
    {opening closing : SynchronizedMarker} (hbeg : opening ∈ markers) (hen : closing ∈ markers)
    (hisBegin : opening.control = .beginControl) (hisEnd : closing.control = .endControl)
    (hle : closing.endIndex ≤ opening.endIndex) : closing.endIndex + 8 ≤ opening.endIndex := by
  refine happart.gap _ hen _ hbeg (lt_of_le_of_ne hle fun heq => ?_)
  rw [happart.eq_of_end _ hen _ hbeg heq, hisBegin] at hisEnd
  exact SynchronizedControl.noConfusion hisEnd

def IsLastBy (markers : List SynchronizedMarker) (marker : SynchronizedMarker) (index : Nat) : Prop :=
  ∀ marker' ∈ markers, marker.endIndex < marker'.endIndex → index < marker'.endIndex

/-- The stream read up to `index`, part of it released and part of it held. -/
structure Held (stream : List UInt8) (markers : List SynchronizedMarker) (index : Nat) (output : SynchronizedOutput)
    (releases : List Release) : Prop where
  readIndex_le : index ≤ stream.length
  bytes_eq : listReleasedBytes releases ++ output.bufferedBytes = stream.take index
  deadline_iff : output.deadline.isSome = true ↔ output.bufferedBytes ≠ []
  /-- Whatever is held, a `Begin` marker ends in it. -/
  opened : output.deadline.isSome = true → ∃ marker ∈ markers, marker.control = .beginControl ∧
    releasedByteCount releases < marker.endIndex ∧ marker.endIndex ≤ index
  /-- An `End` marker is never held. -/
  ended : ∀ marker ∈ markers, marker.control = .endControl → marker.endIndex ≤ index →
    marker.endIndex ≤ releasedByteCount releases
  /-- A `Begin` marker that is not followed yet is held from its start, or a call was forced behind its start. -/
  pending : ∀ marker ∈ markers, marker.control = .beginControl → IsLastBy markers marker index →
    releasedByteCount releases ≤ marker.startIndex ∨ IsForcedIn releases marker.startIndex (releasedByteCount releases)
  /-- A pair is uncut, or a call was forced inside it. -/
  closed : ∀ opening closing, IsPair markers opening closing → closing.endIndex ≤ index →
    IsUncut releases opening.startIndex closing.endIndex ∨
      ∃ cutIndex < closing.endIndex, IsForcedIn releases opening.startIndex cutIndex

namespace Held

variable {stream : List UInt8} {markers : List SynchronizedMarker} {index ni : Nat} {output : SynchronizedOutput}

variable {closing marker : SynchronizedMarker}

theorem add_length (h : Held stream markers index output releases) :
    releasedByteCount releases + output.bufferedBytes.length = index := by
  have hlen := congrArg List.length h.bytes_eq
  rw [length_append, length_take, Nat.min_eq_left h.readIndex_le] at hlen
  exact hlen

variable {opening : SynchronizedMarker}

theorem isLastBy_of_pair (hpr : IsPair markers opening closing) (hrd : index < closing.endIndex) :
    IsLastBy markers opening index :=
  fun marker hmk hlt => hrd.trans_le (hpr.between marker hmk hlt)

/-- One more call keeps the pairs, as long as it ends behind each pair that it could cut. -/
theorem closed_append (h : Held stream markers index output releases) (release : Release)
    (hen : ∀ opening closing, IsPair markers opening closing → index < closing.endIndex →
      closing.endIndex ≤ ni → releasedByteCount releases ≤ opening.startIndex →
      closing.endIndex ≤ releasedByteCount releases + release.releasedBytes.length)
    (hpr : IsPair markers opening closing) (hn : closing.endIndex ≤ ni) :
    IsUncut (releases ++ [release]) opening.startIndex closing.endIndex ∨
      ∃ cutIndex < closing.endIndex, IsForcedIn (releases ++ [release]) opening.startIndex cutIndex := by
  have hlen := h.add_length
  by_cases hrd : closing.endIndex ≤ index
  · have hrel := h.ended _ hpr.end_mem hpr.isEnd hrd
    rcases h.closed opening closing hpr hrd with huncut | ⟨cutIndex, hlt, hforced⟩
    · exact .inl (huncut.append_singleton (by omega))
    · exact .inr ⟨cutIndex, hlt, hforced.append _⟩
  · rw [Nat.not_le] at hrd
    rcases h.pending _ hpr.begin_mem hpr.isBegin (isLastBy_of_pair hpr hrd) with hst | hforced
    · exact .inl ((isUncut_of_le hst).append_singleton (hen _ _ hpr hrd hn hst))
    · exact .inr ⟨releasedByteCount releases, by omega, hforced.append _⟩

theorem releaseForced (h : Held stream markers index output releases) {cause : ReleaseCause}
    (hforced : Release.IsForced ⟨output.bufferedBytes, cause⟩) (hbuf : output.bufferedBytes ≠ []) :
    Held stream markers index ⟨[], none⟩ (releases ++ [⟨output.bufferedBytes, cause⟩]) := by
  have hlen := h.add_length
  have hpos := length_pos_iff.2 hbuf
  have hc : releasedByteCount (releases ++ [⟨output.bufferedBytes, cause⟩]) = index := by
    rw [releasedByteCount_concat]
    exact hlen
  refine ⟨h.readIndex_le, ?_, by simp, by simp, fun marker _ _ hle => hle.trans hc.ge, ?_, ?_⟩
  · rw [listReleasedBytes_append, listReleasedBytes_singleton, append_nil]
    exact h.bytes_eq
  · intro marker hmk hbeg hl
    rw [hc]
    rcases h.pending marker hmk hbeg hl with hst | hforcedIn
    · by_cases hrd : index ≤ marker.startIndex
      · exact .inl hrd
      · refine .inr ⟨_, index, ?_, hforced, by omega, le_refl _⟩
        rw [← hlen]
        exact endsAt_last releases _
    · exact .inr ((hforcedIn.append _).mono (by omega))
  · intro opening closing hpr hrd
    exact h.closed_append _ (fun _ _ _ hlt hle _ => absurd hle (Nat.not_le.2 hlt)) hpr hrd

theorem isLastBy_mono (h : IsLastBy markers marker ni) (hle : index ≤ ni) : IsLastBy markers marker index :=
  fun marker' hmarker' hlt => hle.trans_lt (h marker' hmarker' hlt)

/-- The stream between two indexes. -/
def slice (stream : List UInt8) (startIndex endIndex : Nat) : List UInt8 :=
  (stream.drop startIndex).take (endIndex - startIndex)

theorem take_append_slice (stream : List UInt8) {start endIndex : Nat} (h : start ≤ endIndex) :
    stream.take start ++ slice stream start endIndex = stream.take endIndex := by
  rw [slice, ← take_add, Nat.add_sub_cancel' h]

theorem length_slice {start endIndex : Nat} (h : endIndex ≤ stream.length) :
    (slice stream start endIndex).length = endIndex - start := by
  rw [slice, length_take, length_drop]
  omega

/-- Nothing is held and no `Begin` marker follows: the rest of the stream goes out. -/
theorem releaseRest (happart : MarkersApart markers) (h : Held stream markers index ⟨[], none⟩ releases)
    (hnone : ∀ marker ∈ markers, marker.control = .beginControl → marker.endIndex ≤ index) :
    Held stream markers stream.length ⟨[], none⟩ (releases ++ [⟨slice stream index stream.length, .direct⟩]) := by
  have hlen : releasedByteCount releases = index := h.add_length
  have hslice : (slice stream index stream.length).length = stream.length - index :=
    length_slice (le_refl _)
  have hrd := h.readIndex_le
  have hc : releasedByteCount (releases ++ [⟨slice stream index stream.length, .direct⟩]) = stream.length := by
    rw [releasedByteCount_concat, hslice]
    omega
  refine ⟨le_refl _, ?_, by simp, by simp, fun marker _ _ hle => hle.trans hc.ge, ?_, ?_⟩
  · have hby := h.bytes_eq
    rw [append_nil] at hby
    rw [listReleasedBytes_append, listReleasedBytes_singleton, append_nil, hby, take_append_slice _ hrd]
  · intro marker hmk hbeg hl
    have hen := hnone marker hmk hbeg
    have hst := happart.start_lt marker hmk
    rw [hc]
    rcases h.pending marker hmk hbeg (isLastBy_mono hl hrd) with hle | hforced
    · omega
    · exact .inr ((hforced.append _).mono (by omega))
  · intro opening closing hpr hn
    refine h.closed_append _ (fun opening closing hpr _ _ hle => ?_) hpr hn
    have hen := hnone _ hpr.begin_mem hpr.isBegin
    have hst := happart.start_lt _ hpr.begin_mem
    omega

/-- Nothing is held: the bytes before the next `Begin` marker go out, and the marker is held. -/
theorem holdMarker (happart : MarkersApart markers) (h : Held stream markers index ⟨[], none⟩ releases)
    (hmk : marker ∈ markers) (hbeg : marker.control = .beginControl) (hrd : index < marker.endIndex)
    (hen : marker.endIndex ≤ stream.length)
    (hf : ∀ marker' ∈ markers, marker'.control = .beginControl → index < marker'.endIndex →
      marker.endIndex ≤ marker'.endIndex)
    {heldIndex : Nat} (hh : heldIndex = max index (marker.endIndex - 8)) (dl : Nat) :
    Held stream markers marker.endIndex ⟨slice stream heldIndex marker.endIndex, some dl⟩
      (releases ++ [⟨slice stream index heldIndex, .direct⟩]) := by
  have hlen : releasedByteCount releases = index := h.add_length
  have hmarkerStart := happart.start_lt marker hmk
  have hmarkerLe := happart.le_start marker hmk
  have hc : releasedByteCount (releases ++ [⟨slice stream index heldIndex, .direct⟩]) = heldIndex := by
    rw [releasedByteCount_concat, length_slice (by omega)]
    omega
  have hheldSlice : slice stream heldIndex marker.endIndex ≠ [] := by
    rw [← length_pos_iff, length_slice hen]
    omega
  refine ⟨hen, ?_, by simp [hheldSlice], fun _ => ⟨marker, hmk, hbeg, by omega, le_refl _⟩, ?_, ?_, ?_⟩
  · have hby := h.bytes_eq
    rw [append_nil] at hby
    rw [listReleasedBytes_append, listReleasedBytes_singleton, hby, take_append_slice _ (by omega),
      take_append_slice _ (by omega)]
  · intro closing hendMarker hisEnd hle
    have hgap := happart.end_add_le hmk hendMarker hbeg hisEnd hle
    omega
  · intro other ho hotherBegin hl
    rw [hc]
    rcases Nat.lt_trichotomy other.endIndex marker.endIndex with hlt | heq | hgt
    · exact absurd (hl marker hmk hlt) (lt_irrefl _)
    · obtain rfl := happart.eq_of_end _ ho _ hmk heq
      rcases h.pending other ho hotherBegin (isLastBy_mono hl hrd.le) with hle | hforced
      · exact .inl (by omega)
      · exact .inr ((hforced.append _).mono (by omega))
    · have hgap := happart.gap _ hmk _ ho hgt
      have hle := happart.le_start _ ho
      exact .inl (by omega)
  · intro opening closing hpr hn
    refine h.closed_append _ (fun opening closing hpr hlt hle hst => ?_) hpr hn
    -- the pair would open behind the read index, before the first marker that does
    have hbeginStart := happart.start_lt _ hpr.begin_mem
    have hopens := hf _ hpr.begin_mem hpr.isBegin (by omega)
    have := hpr.lt
    omega

/-- While bytes are held, a marker that is still to come starts behind the first of them. -/
theorem lt_start (happart : MarkersApart markers) (h : Held stream markers index output releases)
    (hdue : output.deadline.isSome = true) (hmk : marker ∈ markers) (hrd : index < marker.endIndex) :
    releasedByteCount releases < marker.startIndex ∧ releasedByteCount releases + 8 < marker.endIndex := by
  obtain ⟨opener, hopener, -, hlt, hle⟩ := h.opened hdue
  have hgap := happart.gap _ hopener _ hmk (by omega)
  have hst := happart.le_start _ hmk
  omega

theorem readOn (h : Held stream markers index output releases) (hdue : output.deadline.isSome = true) (hle : index ≤ ni)
    (hn : ni ≤ stream.length)
    (hnone : ∀ marker ∈ markers, marker.control = .endControl → index < marker.endIndex →
      ni < marker.endIndex) {dl : Option Nat} (hdue' : dl.isSome = true) :
    Held stream markers ni ⟨output.bufferedBytes ++ slice stream index ni, dl⟩
      releases := by
  have hbuf := h.deadline_iff.1 hdue
  refine ⟨hn, ?_, by simp [hdue', hbuf], fun _ => ?_, ?_, ?_, ?_⟩
  · rw [← append_assoc, h.bytes_eq, take_append_slice _ hle]
  · obtain ⟨opener, hopener, hbeg, hlt, hen⟩ := h.opened hdue
    exact ⟨opener, hopener, hbeg, hlt, hen.trans hle⟩
  · intro marker hmk hisEnd hen
    refine h.ended marker hmk hisEnd ?_
    by_contra hrd
    exact absurd (hnone marker hmk hisEnd (by omega)) (by omega)
  · intro marker hmk hbeg hl
    exact h.pending marker hmk hbeg (isLastBy_mono hl hle)
  · intro opening closing hpr hen
    refine h.closed opening closing hpr ?_
    by_contra hrd
    exact absurd (hnone _ hpr.end_mem hpr.isEnd (by omega)) (by omega)

/-- An update ended among the bytes just read and none opened behind it: all of them go out. -/
theorem releaseAll (happart : MarkersApart markers) (h : Held stream markers index output releases) (hle : index ≤ ni)
    (hn : ni ≤ stream.length) (hmk : closing ∈ markers) (hisEnd : closing.control = .endControl)
    (hen : closing.endIndex ≤ ni) (hl : ∀ marker ∈ markers, closing.endIndex < marker.endIndex → ni < marker.endIndex)
    (hfull : ∀ marker ∈ markers, ni < marker.endIndex → Release.IsForced
      ⟨output.bufferedBytes ++ slice stream index ni, .buffered⟩) :
    Held stream markers ni ⟨[], none⟩ (releases ++ [⟨output.bufferedBytes ++ slice stream index ni, .buffered⟩]) := by
  have hlen := h.add_length
  have hadd : (output.bufferedBytes ++ slice stream index ni).length =
      output.bufferedBytes.length + (ni - index) := by rw [length_append, length_slice hn]
  have hc : releasedByteCount (releases ++ [⟨output.bufferedBytes ++ slice stream index ni, .buffered⟩]) = ni := by
    rw [releasedByteCount_concat, hadd]
    omega
  refine ⟨hn, ?_, by simp, by simp, fun marker _ _ hen => hen.trans hc.ge, ?_, ?_⟩
  · rw [listReleasedBytes_append, listReleasedBytes_singleton, append_nil, ← append_assoc, h.bytes_eq,
      take_append_slice _ hle]
  · intro marker hbeginMarker hbeg hlastBy
    rw [hc]
    have hbehind : ni < marker.endIndex := by
      rcases Nat.lt_trichotomy marker.endIndex closing.endIndex with hlt | heq | hgt
      · exact absurd (hlastBy closing hmk hlt) (by omega)
      · rw [happart.eq_of_end _ hbeginMarker _ hmk heq, hisEnd] at hbeg
        exact SynchronizedControl.noConfusion hbeg
      · exact hl marker hbeginMarker hgt
    by_cases hst : ni ≤ marker.startIndex
    · exact .inl hst
    · refine .inr ⟨_, ni, ?_, hfull marker hbeginMarker hbehind, by omega, le_refl _⟩
      have hends := endsAt_last releases ⟨output.bufferedBytes ++ slice stream index ni, .buffered⟩
      rw [← releasedByteCount_concat, hc] at hends
      exact hends
  · intro opening endMarker' hpr hend'
    refine h.closed_append _ (fun _ endMarker' _ _ hend' _ => ?_) hpr hend'
    rw [hadd]
    omega

/-- An update ended among the bytes just read and another opened behind it: the bytes from the last `Begin` marker
stay. -/
theorem releaseUpTo (happart : MarkersApart markers) (h : Held stream markers index output releases) (hle : index ≤ ni)
    (hn : ni ≤ stream.length) (hmk : marker ∈ markers) (hbeg : marker.control = .beginControl)
    (hrd : index < marker.endIndex) (hen : marker.endIndex ≤ ni)
    (hl : ∀ marker' ∈ markers, marker.endIndex < marker'.endIndex → ni < marker'.endIndex) {beginAt : Nat}
    (hbeginIndex : beginAt + releasedByteCount releases + 8 = marker.endIndex) (dl : Nat) :
    Held stream markers ni ⟨(output.bufferedBytes ++ slice stream index ni).drop beginAt, some dl⟩
      (releases ++ [⟨(output.bufferedBytes ++ slice stream index ni).take beginAt, .buffered⟩]) := by
  have hlen := h.add_length
  have hadd : (output.bufferedBytes ++ slice stream index ni).length =
      output.bufferedBytes.length + (ni - index) := by rw [length_append, length_slice hn]
  have hc : releasedByteCount (releases ++
      [⟨(output.bufferedBytes ++ slice stream index ni).take beginAt, .buffered⟩]) + 8 = marker.endIndex := by
    rw [releasedByteCount_concat, length_take, hadd]
    omega
  have hst := happart.le_start marker hmk
  have hb : ∀ marker' ∈ markers, marker'.endIndex ≤ ni → marker'.endIndex ≤ marker.endIndex :=
    fun marker' hmarker' hle => by
      by_contra hlt
      exact absurd (hl marker' hmarker' (by omega)) (by omega)
  have hh : (output.bufferedBytes ++ slice stream index ni).drop beginAt ≠ [] := by
    rw [← length_pos_iff, length_drop, hadd]
    omega
  refine ⟨hn, ?_, by simp [hh], fun _ => ⟨marker, hmk, hbeg, by omega, hen⟩, ?_, ?_, ?_⟩
  · rw [listReleasedBytes_append, listReleasedBytes_singleton, append_assoc, take_append_drop,
      ← append_assoc, h.bytes_eq, take_append_slice _ hle]
  · intro closing hendMarker hisEnd hendLe
    have hgap := happart.end_add_le hmk hendMarker hbeg hisEnd (hb closing hendMarker hendLe)
    omega
  · intro other ho hotherBegin hlastBy
    rcases Nat.lt_trichotomy other.endIndex marker.endIndex with hlt | heq | hgt
    · exact absurd (hlastBy marker hmk hlt) (by omega)
    · obtain rfl := happart.eq_of_end _ ho _ hmk heq
      exact .inl (by omega)
    · have hgap := happart.gap _ hmk _ ho hgt
      have hotherStart := happart.le_start _ ho
      exact .inl (by omega)
  · intro opening closing hpr hendLe
    refine h.closed_append _ (fun opening closing hpr _ hendLe _ => ?_) hpr hendLe
    rw [← releasedByteCount_concat]
    have hgap := happart.end_add_le hmk hpr.end_mem hbeg hpr.isEnd (hb _ hpr.end_mem hendLe)
    omega

theorem extend (h : Held stream markers stream.length output releases) (moreBytes : List UInt8)
    {moreMarkers : List SynchronizedMarker}
    (hmore : ∀ marker ∈ moreMarkers, stream.length ≤ marker.startIndex ∧ stream.length < marker.endIndex) :
    Held (stream ++ moreBytes) (markers ++ moreMarkers) stream.length output releases := by
  have hlen := h.add_length
  have hold : ∀ marker ∈ markers ++ moreMarkers, marker.endIndex ≤ stream.length → marker ∈ markers := by
    intro marker hmk hle
    rcases mem_append.1 hmk with hin | hin
    · exact hin
    · exact absurd (hmore marker hin).2 (by omega)
  refine ⟨by simp, ?_, h.deadline_iff, fun hdue => ?_, ?_, ?_, ?_⟩
  · rw [h.bytes_eq, take_append_of_le_length (le_refl _)]
  · obtain ⟨opener, hopener, hr⟩ := h.opened hdue
    exact ⟨opener, mem_append_left _ hopener, hr⟩
  · intro marker hmk hisEnd hle
    exact h.ended marker (hold marker hmk hle) hisEnd hle
  · intro marker hmk hbeg hl
    rcases mem_append.1 hmk with hin | hin
    · exact h.pending marker hin hbeg fun marker' hmarker' => hl marker' (mem_append_left _ hmarker')
    · have := (hmore marker hin).1
      exact .inl (by omega)
  · intro opening closing hpr hle
    have hendMem := hold closing hpr.end_mem hle
    have hbeginMem := hold opening hpr.begin_mem (hpr.lt.le.trans hle)
    exact h.closed opening closing ⟨hbeginMem, hendMem, hpr.isBegin, hpr.isEnd, hpr.lt,
      fun marker hmk => hpr.between marker (mem_append_left _ hmk)⟩ hle

end Held

end Koshi.Terminal
