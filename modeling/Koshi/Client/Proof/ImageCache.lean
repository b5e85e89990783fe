import Mathlib.Tactic
import Koshi.Client.ImageCache

/-!
# The image cache over a run

A run keeps, beside the cache, the newest update that was adopted, the chunks of the open transfer and the chunks each
kept record was built from. The byte count is the sum over the kept records, the missing identities are the ones the
newest update shows without a record, and an open transfer is of a record that is not kept.
-/

namespace Koshi.Client

open Koshi.Base Koshi.Core Koshi.Image Koshi.Ipc ImageCache List

variable {Preview Built Content : Type}

/-! ### Byte counts -/

/-- The RGBA bytes of the kept records. -/
def sumImageBytes (records : OrdMap Nat ImageRecord) : Nat := (records.values.map computeImageByteCount).sum

variable {cid : Nat} {records : OrdMap Nat ImageRecord}

theorem sumImageBytes_insert (imageRecord : ImageRecord) (hnew : records.get? cid = none) :
    sumImageBytes (records.insert cid imageRecord) = sumImageBytes records + computeImageByteCount imageRecord := by
  have hperm := (records.perm_insert imageRecord hnew).map (computeImageByteCount ∘ Prod.snd)
  unfold sumImageBytes OrdMap.values
  rw [map_map, map_map, hperm.sum_eq, map_cons, sum_cons, Nat.add_comm]
  rfl

theorem sumImageBytes_erase {record : ImageRecord} (hh : records.get? cid = some record) :
    sumImageBytes (records.erase cid) + computeImageByteCount record = sumImageBytes records := by
  have hperm := (records.perm_erase hh).map (computeImageByteCount ∘ Prod.snd)
  unfold sumImageBytes OrdMap.values
  rw [map_map, map_map, hperm.sum_eq, map_cons, sum_cons, Nat.add_comm]
  rfl

/-! ### Runs -/

inductive CacheOperation (Preview Content : Type) where
  | adopt (hasMemory : Bool) (received : ReceivedPaintedFrame Preview Content)
  | start (hasMemory : Bool) (imageTransfer : FrameImageTransfer)
  | chunk (chunk : ImageChunk)
  | release (ids : List Nat)
  | clear

structure CacheRun (Preview Built Content : Type) where
  cache : ImageCache Preview Built Content
  /-- The last update the cache adopted since it was empty. -/
  newestFrame : Option (ReceivedPaintedFrame Preview Content)
  openChunks : List (List UInt8)
  /-- The chunks of the last complete transfer of each identity. -/
  recordChunks : Nat → List (List UInt8)

namespace CacheRun

variable {cache : ImageCache Preview Built Content} {loop : ImageCache.AdoptLoop} {run : CacheRun Preview Built Content}
  {shownIds : List Nat} {pending : PendingImageTransfer}

/-- The empty cache. -/
def new : CacheRun Preview Built Content := ⟨.new, none, [], fun _ => []⟩

def afterChunk (run : CacheRun Preview Built Content) (chunk : ImageChunk) : CacheRun Preview Built Content where
  cache := (run.cache.acceptImageChunk chunk).1
  newestFrame := run.newestFrame
  openChunks := run.openChunks ++ [chunk.chunkBytes]
  recordChunks :=
    match run.cache.checkImageChunk chunk with
    | .error _ => run.recordChunks
    | .ok pending =>
      if chunk.byteOffset + chunk.chunkBytes.length = pending.imageTransfer.imageByteCount then
        Function.update run.recordChunks pending.imageTransfer.imageContentId (run.openChunks ++ [chunk.chunkBytes])
      else run.recordChunks

variable (isValid : Preview → Bool) (build : Preview → Built)

def apply (run : CacheRun Preview Built Content) :
    CacheOperation Preview Content → CacheRun Preview Built Content
  | .adopt hasMemory received =>
    { run with
      cache := (run.cache.adoptPaintedFrame isValid build hasMemory received).1
      newestFrame := match (run.cache.adoptPaintedFrame isValid build hasMemory received).2 with
        | .ok _ => some received
        | .error _ => run.newestFrame }
  | .start hasMemory imageTransfer =>
    { run with
      cache := (run.cache.startImageTransfer hasMemory imageTransfer).1
      openChunks := if run.cache.pendingImageTransfer.isSome then run.openChunks else [] }
  | .chunk chunk => run.afterChunk chunk
  | .release ids => { run with cache := (run.cache.releaseImageContents ids).1 }
  | .clear => { run with cache := run.cache.clearImageCache, newestFrame := none }

def runOperations (ops : List (CacheOperation Preview Content)) : CacheRun Preview Built Content :=
  ops.foldl (apply isValid build) new

/-! ### The invariant -/

/-- An available placement of the update names the identity. -/
def Shows (newestFrame : Option (ReceivedPaintedFrame Preview Content)) (imageContentId : Nat) : Prop :=
  ∃ placement ∈ newestFrame.toList.flatMap fun frame => frame.paneSnapshots.flatMap (·.imagePlacementSnapshots),
    placement.isAvailable = true ∧ placement.imageContentId = imageContentId

/-- What holds of every run. -/
structure Inv (run : CacheRun Preview Built Content) : Prop where
  retained : run.cache.retainedImageByteCount = sumImageBytes run.cache.imageRecordByContentId
  held : run.cache.computeHeldImageByteCount ≤ maxFrameImageTransferByteCount
  missing : ∀ imageContentId, imageContentId ∈ run.cache.missingPaintedImageContentIds ↔
    Shows run.cache.paintedFrame imageContentId ∧ run.cache.imageRecordByContentId.get? imageContentId = none
  pendingNew : ∀ pending ∈ run.cache.pendingImageTransfer,
    run.cache.imageRecordByContentId.get? pending.imageTransfer.imageContentId = none
  pendingBytes : ∀ pending ∈ run.cache.pendingImageTransfer,
    pending.rgbaBytes = run.openChunks.flatten ∧ pending.receivedByteCount = pending.rgbaBytes.length
  records : ∀ imageContentId imageRecord, run.cache.imageRecordByContentId.get? imageContentId = some imageRecord →
    imageRecord.image.rgbaBytes = (run.recordChunks imageContentId).flatten
  frame : run.cache.paintedFrame = run.newestFrame

theorem inv_new : (new : CacheRun Preview Built Content).Inv where
  retained := rfl
  held := Nat.zero_le _
  missing := by simp [new, ImageCache.new, Shows]
  pendingNew := by simp [new, ImageCache.new]
  pendingBytes := by simp [new, ImageCache.new]
  records := by simp [new, ImageCache.new]
  frame := rfl

/-! ### Adopting a painted update -/

theorem mem_insertId {ids : List Nat} {id j : Nat} : j ∈ insertId ids id ↔ j ∈ ids ∨ j = id := by
  unfold insertId
  split
  · constructor
    · exact Or.inl
    · rintro (hm | rfl)
      · exact hm
      · assumption
  · rw [mem_append, mem_singleton]

/-- What the loop over placements adds to the missing identities. -/
def IsLackedBy (cache : ImageCache Preview Built Content) (placements : List FrameImagePlacement)
    (imageContentId : Nat) : Prop :=
  ∃ placement ∈ placements, cache.isImageRecordMissing placement = true ∧ placement.imageContentId = imageContentId

theorem mem_missing_adoptPlacement {paneId : PaneUuid} {next : ImageCache.AdoptLoop} {placement : FrameImagePlacement}
    (h : cache.adoptPlacement paneId loop placement = .ok next) (cid : Nat) :
    cid ∈ next.missingImageContentIds ↔ cid ∈ loop.missingImageContentIds ∨ IsLackedBy cache [placement] cid := by
  unfold adoptPlacement at h
  split at h
  · cases h
  split at h
  · cases h
  cases h
  by_cases hmissing : cache.isImageRecordMissing placement = true
  · simp only [hmissing, if_true, mem_insertId, IsLackedBy, mem_singleton, exists_eq_left, true_and]
    rw [eq_comm (a := cid)]
  · simp [hmissing, IsLackedBy]

theorem isLackedBy_append {fst snd : List FrameImagePlacement} : IsLackedBy cache (fst ++ snd) cid ↔
      IsLackedBy cache fst cid ∨ IsLackedBy cache snd cid := by
  simp only [IsLackedBy, mem_append, or_and_right, exists_or]

theorem mem_missing_foldlM (cache : ImageCache Preview Built Content) {Item : Type}
    (placementsOf : Item → List FrameImagePlacement)
    {step : ImageCache.AdoptLoop → Item → Except ImageAssemblyError ImageCache.AdoptLoop}
    (hstep : ∀ loop item next, step loop item = .ok next → ∀ cid,
      (cid ∈ next.missingImageContentIds ↔
        cid ∈ loop.missingImageContentIds ∨ IsLackedBy cache (placementsOf item) cid))
    (xs : List Item) {last : ImageCache.AdoptLoop} (h : xs.foldlM step loop = .ok last) (cid : Nat) :
    cid ∈ last.missingImageContentIds ↔
      cid ∈ loop.missingImageContentIds ∨ IsLackedBy cache (xs.flatMap placementsOf) cid := by
  induction xs generalizing loop with
  | nil =>
    cases h
    simp [IsLackedBy]
  | cons item xs ih =>
    rw [foldlM_cons] at h
    obtain ⟨next, hn, hr⟩ : ∃ next, step loop item = .ok next ∧ xs.foldlM step next = .ok last := by
      rcases hitem : step loop item with failure | next
      · rw [hitem] at h
        cases h
      · rw [hitem] at h
        exact ⟨next, rfl, h⟩
    rw [ih hr, hstep _ _ _ hn, flatMap_cons, isLackedBy_append, or_assoc]

theorem mem_missing_adoptPlacements {paneSnapshots : List FramePane}
    (h : cache.adoptPlacements paneSnapshots = .ok loop) (cid : Nat) :
    cid ∈ loop.missingImageContentIds ↔ IsLackedBy cache (paneSnapshots.flatMap (·.imagePlacementSnapshots)) cid := by
  have hpa : ∀ loop (pane : FramePane) next,
      pane.imagePlacementSnapshots.foldlM (cache.adoptPlacement pane.paneId) loop = .ok next → ∀ cid,
        (cid ∈ next.missingImageContentIds ↔ cid ∈ loop.missingImageContentIds ∨
          IsLackedBy cache pane.imagePlacementSnapshots cid) := by
    intro loop pane next hn cid
    have hplacements := mem_missing_foldlM cache (fun placement => [placement])
      (fun _ _ _ => mem_missing_adoptPlacement) _ hn cid
    rwa [flatMap_singleton'] at hplacements
  have hpanes := mem_missing_foldlM cache (fun pane : FramePane => pane.imagePlacementSnapshots) hpa _ h cid
  simpa using hpanes

theorem checkPaintedFrame_eq_ok {hasMemory : Bool} {received : ReceivedPaintedFrame Preview Content}
    {preview : Option (HeldPlacementPreview Preview Built)} {missingImageContentIds : List Nat}
    (h : cache.checkPaintedFrame isValid build hasMemory received = .ok (preview, missingImageContentIds)) :
    ∃ loop, cache.adoptPlacements received.paneSnapshots = .ok loop ∧
      loop.missingImageContentIds = missingImageContentIds := by
  have hloop : ∀ pv : Option (HeldPlacementPreview Preview Built),
      (cache.adoptPlacements received.paneSnapshots >>= fun loop => pure (pv, loop.missingImageContentIds)) =
        Except.ok (ε := ImageAssemblyError) (preview, missingImageContentIds) →
      ∃ loop, cache.adoptPlacements received.paneSnapshots = .ok loop ∧
        loop.missingImageContentIds = missingImageContentIds := by
    intro pv hbind
    rcases hadopt : cache.adoptPlacements received.paneSnapshots with failure | loop
    · rw [hadopt] at hbind
      cases hbind
    · rw [hadopt] at hbind
      cases hbind
      exact ⟨loop, rfl, rfl⟩
  unfold checkPaintedFrame at h
  simp only [bind, Except.bind] at h
  split at h
  · cases h
  split at h
  · cases h
  split at h
  · cases h
  exact hloop _ h

theorem adoptPaintedFrame_cases (cache : ImageCache Preview Built Content) (hasMemory : Bool)
    (received : ReceivedPaintedFrame Preview Content) :
    (∃ failure, cache.adoptPaintedFrame isValid build hasMemory received = (cache, .error failure)) ∨
    ∃ next : ImageCache Preview Built Content,
      cache.adoptPaintedFrame isValid build hasMemory received =
        (next, .ok (if next.missingPaintedImageContentIds.isEmpty then next.buildRenderSnapshot else none)) ∧
      next.imageRecordByContentId = cache.imageRecordByContentId ∧
      next.retainedImageByteCount = cache.retainedImageByteCount ∧
      next.pendingImageTransfer = none ∧ next.paintedFrame = some received ∧
      ∀ cid, cid ∈ next.missingPaintedImageContentIds ↔
        Shows next.paintedFrame cid ∧ next.imageRecordByContentId.get? cid = none := by
  unfold adoptPaintedFrame
  rcases hcheck : cache.checkPaintedFrame isValid build hasMemory received with
    failure | ⟨placementPreview, missingIds⟩
  · exact .inl ⟨failure, rfl⟩
  obtain ⟨loop, hloop, hmissing⟩ := checkPaintedFrame_eq_ok isValid build hcheck
  refine .inr ⟨_, rfl, rfl, rfl, rfl, rfl, fun cid => ?_⟩
  show cid ∈ missingIds ↔ _
  rw [← hmissing, mem_missing_adoptPlacements hloop]
  simp only [IsLackedBy, Shows, isImageRecordMissing, Option.toList_some,
    flatMap_cons, flatMap_nil, append_nil, Bool.and_eq_true, Bool.not_eq_true',
    OrdMap.contains_eq_false_iff]
  constructor
  · rintro ⟨placement, hm, ⟨havailable, hnone⟩, rfl⟩
    exact ⟨⟨placement, hm, havailable, rfl⟩, hnone⟩
  · rintro ⟨⟨placement, hm, havailable, rfl⟩, hnone⟩
    exact ⟨placement, hm, ⟨havailable, hnone⟩, rfl⟩

theorem Inv.adopt (hi : run.Inv) (hasMemory : Bool) (received : ReceivedPaintedFrame Preview Content) :
    (run.apply isValid build (.adopt hasMemory received)).Inv := by
  unfold apply
  rcases adoptPaintedFrame_cases isValid build run.cache hasMemory received with
    ⟨failure, hrefused⟩ | ⟨next, hn, hrecs, hrt, hpending, hframe, hmissing⟩
  · simp only [hrefused]
    exact hi
  simp only [hn]
  have hh := hi.held
  refine ⟨?_, ?_, hmissing, ?_, ?_, ?_, hframe⟩
  · show next.retainedImageByteCount = sumImageBytes next.imageRecordByContentId
    rw [hrt, hrecs]
    exact hi.retained
  · show next.computeHeldImageByteCount ≤ _
    unfold computeHeldImageByteCount at hh ⊢
    rw [hpending, hrt]
    exact le_trans (Nat.add_le_add_left (Nat.zero_le _) _) hh
  · show ∀ pending ∈ next.pendingImageTransfer, _
    simp [hpending]
  · show ∀ pending ∈ next.pendingImageTransfer, _
    simp [hpending]
  · show ∀ cid imageRecord, next.imageRecordByContentId.get? cid = some imageRecord → _
    rw [hrecs]
    exact hi.records

/-! ### Starting a transfer -/

/-- A started transfer: refused, or open with the bytes it reserved within the limit. -/
theorem startImageTransfer_cases (cache : ImageCache Preview Built Content) (hasMemory : Bool)
    (imageTransfer : FrameImageTransfer) :
    (cache.startImageTransfer hasMemory imageTransfer).1 = cache ∨
    cache.pendingImageTransfer = none ∧ cache.imageRecordByContentId.get? imageTransfer.imageContentId = none ∧
      cache.retainedImageByteCount + imageTransfer.imageByteCount ≤ maxFrameImageTransferByteCount ∧
      (cache.startImageTransfer hasMemory imageTransfer).1 = { cache with
        pendingImageTransfer := some ⟨imageTransfer, [], 0⟩
        imageTransferCount := cache.imageTransferCount + 1 } := by
  unfold startImageTransfer
  split
  · exact .inl rfl
  rename_i hpending
  split
  · exact .inl rfl
  rename_i hh
  split
  · exact .inl rfl
  split
  · exact .inl rfl
  split
  · exact .inl rfl
  rename_i hby
  split
  · exact .inl rfl
  rw [Bool.not_eq_true, OrdMap.contains_eq_false_iff] at hh
  exact .inr ⟨by simpa using hpending, hh, by omega, rfl⟩

theorem Inv.start (hi : run.Inv) (hasMemory : Bool) (imageTransfer : FrameImageTransfer) :
    (run.apply isValid build (.start hasMemory imageTransfer)).Inv := by
  show Inv { run with
    cache := (run.cache.startImageTransfer hasMemory imageTransfer).1
    openChunks := if run.cache.pendingImageTransfer.isSome then run.openChunks else [] }
  rcases startImageTransfer_cases run.cache hasMemory imageTransfer with hrefused | ⟨hpending, hnew, hby, hopened⟩
  · rw [hrefused]
    refine ⟨hi.retained, hi.held, hi.missing, hi.pendingNew, fun pending hm => ?_, hi.records, hi.frame⟩
    have hso : run.cache.pendingImageTransfer.isSome = true := Option.isSome_iff_exists.mpr ⟨pending, hm⟩
    simp only [hso, if_true]
    exact hi.pendingBytes pending hm
  · rw [hopened]
    refine ⟨hi.retained, hby, hi.missing, ?_, ?_, hi.records, hi.frame⟩
    · rintro pending ⟨⟩
      exact hnew
    · rintro pending ⟨⟩
      simp [hpending]

/-! ### Releases -/

/-- What a release keeps: the sum, every shown record, the update and the open transfer; what it holds was held. -/
structure ReleasesTo (shownIds : List Nat) (cache next : ImageCache Preview Built Content) : Prop where
  rest : next = { cache with
    imageRecordByContentId := next.imageRecordByContentId
    retainedImageByteCount := next.retainedImageByteCount }
  retained : next.retainedImageByteCount = sumImageBytes next.imageRecordByContentId
  sum : sumImageBytes next.imageRecordByContentId ≤ sumImageBytes cache.imageRecordByContentId
  shown : ∀ imageContentId ∈ shownIds,
    next.imageRecordByContentId.get? imageContentId = cache.imageRecordByContentId.get? imageContentId
  held : ∀ imageContentId imageRecord, next.imageRecordByContentId.get? imageContentId = some imageRecord →
    cache.imageRecordByContentId.get? imageContentId = some imageRecord

theorem ReleasesTo.refl (hrt : cache.retainedImageByteCount = sumImageBytes cache.imageRecordByContentId) :
    ReleasesTo shownIds cache cache :=
  ⟨rfl, hrt, le_refl _, fun _ _ => rfl, fun _ _ => id⟩

theorem ReleasesTo.trans {next last : ImageCache Preview Built Content} (hf : ReleasesTo shownIds cache next)
    (hse : ReleasesTo shownIds next last) :
    ReleasesTo shownIds cache last where
  rest := by
    rw [hse.rest, hf.rest]
  retained := hse.retained
  sum := hse.sum.trans hf.sum
  shown imageContentId hm := (hse.shown imageContentId hm).trans (hf.shown imageContentId hm)
  held imageContentId imageRecord hg := hf.held imageContentId imageRecord (hse.held imageContentId imageRecord hg)

theorem releasesTo_erase {goneId : Nat} {goneRecord : ImageRecord} (hunshown : goneId ∉ shownIds)
    (hrel : cache.imageRecordByContentId.get? goneId = some goneRecord)
    (hrt : cache.retainedImageByteCount = sumImageBytes cache.imageRecordByContentId) :
    ReleasesTo shownIds cache { cache with
      imageRecordByContentId := cache.imageRecordByContentId.erase goneId
      retainedImageByteCount := cache.retainedImageByteCount - computeImageByteCount goneRecord } := by
  have hsum := sumImageBytes_erase hrel
  refine ⟨rfl, ?_, ?_, fun cid hm => ?_, fun cid imageRecord hg => ?_⟩
  · show cache.retainedImageByteCount - _ = sumImageBytes (cache.imageRecordByContentId.erase goneId)
    omega
  · show sumImageBytes (cache.imageRecordByContentId.erase goneId) ≤ _
    omega
  · have hne : cid ≠ goneId := fun heq => hunshown (heq ▸ hm)
    simp [hne]
  · simp only [OrdMap.get?_erase] at hg
    split at hg
    · cases hg
    · exact hg

theorem releasesTo_releaseLoop (shownIds : List Nat) (ids' : List Nat) (cache : ImageCache Preview Built Content)
    (hrt : cache.retainedImageByteCount = sumImageBytes cache.imageRecordByContentId) :
    ReleasesTo shownIds cache (releaseLoop shownIds cache ids').1 := by
  induction ids' generalizing cache with
  | nil => exact .refl hrt
  | cons goneId ids' ih =>
    unfold releaseLoop
    split
    · exact .refl hrt
    rename_i hunshown
    split
    · exact .refl hrt
    rename_i goneRecord hrel
    have herase := releasesTo_erase hunshown hrel hrt
    exact herase.trans (ih _ herase.retained)

theorem mem_listShownImageContentIds (cache : ImageCache Preview Built Content) (cid : Nat) :
    cid ∈ cache.listShownImageContentIds ↔ Shows cache.paintedFrame cid := by
  simp only [listShownImageContentIds, listHeldImagePlacements, mem_map, mem_filter, Shows, and_assoc]

theorem releasesTo_releaseImageContents (hi : run.Inv) (ids' : List Nat) :
    ReleasesTo run.cache.listShownImageContentIds run.cache (run.cache.releaseImageContents ids').1 :=
  releasesTo_releaseLoop _ _ _ hi.retained

theorem Inv.release (hi : run.Inv) (ids' : List Nat) : (run.apply isValid build (.release ids')).Inv := by
  show Inv { run with cache := (run.cache.releaseImageContents ids').1 }
  have hto := releasesTo_releaseImageContents hi ids'
  generalize (run.cache.releaseImageContents ids').1 = next at hto
  have hpending : next.pendingImageTransfer = run.cache.pendingImageTransfer := by rw [hto.rest]
  have hmissingIds : next.missingPaintedImageContentIds = run.cache.missingPaintedImageContentIds := by rw [hto.rest]
  have hframe : next.paintedFrame = run.cache.paintedFrame := by rw [hto.rest]
  refine ⟨hto.retained, ?_, fun cid => ?_, fun pending hm => ?_, fun pending hm => ?_,
    fun cid record hg => hi.records cid record (hto.held _ _ hg), hframe.trans hi.frame⟩
  · have hh := hi.held
    have hsum := hto.sum
    unfold computeHeldImageByteCount at hh ⊢
    rw [hi.retained] at hh
    simp only [hpending, hto.retained]
    omega
  · show cid ∈ next.missingPaintedImageContentIds ↔ Shows next.paintedFrame cid ∧ _
    rw [hmissingIds, hi.missing, hframe]
    refine and_congr_right fun hsh => ?_
    show _ ↔ next.imageRecordByContentId.get? cid = none
    rw [hto.shown cid ((mem_listShownImageContentIds _ _).mpr hsh)]
  · have hnone := hi.pendingNew pending (hpending ▸ hm)
    rcases hg : next.imageRecordByContentId.get? pending.imageTransfer.imageContentId with _ | record
    · rfl
    · rw [hto.held _ _ hg] at hnone
      cases hnone
  · exact hi.pendingBytes pending (hpending ▸ hm)

theorem Inv.clear : (run.apply isValid build .clear).Inv := by
  refine ⟨rfl, Nat.zero_le _, (inv_new : (new : CacheRun Preview Built Content).Inv).missing, ?_, ?_, ?_, rfl⟩
  · rintro pending ⟨⟩
  · rintro pending ⟨⟩
  · rintro cid imageRecord ⟨⟩

/-! ### Chunks -/

variable {chunk : ImageChunk}

theorem checkImageChunk_eq_ok (h : cache.checkImageChunk chunk = .ok pending) :
    cache.pendingImageTransfer = some pending ∧ chunk.byteOffset = pending.receivedByteCount := by
  unfold checkImageChunk at h
  split at h
  · cases h
  split at h
  · cases h
  split at h
  · cases h
  rename_i found hfo
  dsimp only at h
  split at h
  · cases h
  rename_i hoff
  split at h
  · cases h
  split at h
  · cases h
  cases h
  exact ⟨(Option.filter_eq_some_iff.mp hfo).1, not_not.mp hoff⟩

def withChunk (pending : PendingImageTransfer) (chunk : ImageChunk) : PendingImageTransfer :=
  { pending with
    rgbaBytes := pending.rgbaBytes ++ chunk.chunkBytes
    receivedByteCount := chunk.byteOffset + chunk.chunkBytes.length }

def withRecord (cache : ImageCache Preview Built Content) (completed : PendingImageTransfer) :
    ImageCache Preview Built Content :=
  { cache with
    pendingImageTransfer := none
    retainedImageByteCount := cache.retainedImageByteCount + completed.imageTransfer.imageByteCount
    imageRecordByContentId := cache.imageRecordByContentId.insert completed.imageTransfer.imageContentId
      (buildImageRecord completed.imageTransfer.imageRecord completed.rgbaBytes)
    missingPaintedImageContentIds :=
      cache.missingPaintedImageContentIds.filter (· ≠ completed.imageTransfer.imageContentId) }

theorem completeImageTransfer_cases (cache : ImageCache Preview Built Content) (completed : PendingImageTransfer) :
    (∃ failure, cache.completeImageTransfer completed = ({ cache with pendingImageTransfer := none }, .error failure)) ∨
    cache.completeImageTransfer completed = (withRecord cache completed, .ok
      (if completed.imageTransfer.imageContentId ∈ cache.missingPaintedImageContentIds ∧
          (withRecord cache completed).missingPaintedImageContentIds = [] then
        (withRecord cache completed).buildRenderSnapshot else none)) := by
  unfold completeImageTransfer
  dsimp only
  split
  · exact .inl ⟨_, rfl⟩
  split
  · exact .inl ⟨_, rfl⟩
  refine .inr ?_
  split
  · rename_i hwaits
    rw [if_neg]
    · rfl
    · rintro ⟨hm, hem⟩
      exact hwaits.elim (absurd hm) (absurd hem)
  · rename_i hdone
    rw [not_or, not_not, not_not] at hdone
    rw [if_pos]
    · rfl
    · exact hdone

theorem acceptImageChunk_cases (cache : ImageCache Preview Built Content) (chunk : ImageChunk) :
    (∃ failure, cache.acceptImageChunk chunk = ({ cache with pendingImageTransfer := none }, .error failure)) ∨
    ∃ pending, cache.checkImageChunk chunk = .ok pending ∧
      (chunk.byteOffset + chunk.chunkBytes.length ≠ pending.imageTransfer.imageByteCount ∧
        cache.acceptImageChunk chunk =
          ({ cache with pendingImageTransfer := some (withChunk pending chunk) }, .ok none) ∨
      chunk.byteOffset + chunk.chunkBytes.length = pending.imageTransfer.imageByteCount ∧
        cache.acceptImageChunk chunk = (withRecord cache (withChunk pending chunk), .ok
          (if pending.imageTransfer.imageContentId ∈ cache.missingPaintedImageContentIds ∧
              (withRecord cache (withChunk pending chunk)).missingPaintedImageContentIds = [] then
            (withRecord cache (withChunk pending chunk)).buildRenderSnapshot else none))) := by
  rcases hcheck : cache.checkImageChunk chunk with failure | pending
  · refine .inl ⟨failure, ?_⟩
    unfold acceptImageChunk appendImageChunk
    rw [hcheck]
  by_cases hen : chunk.byteOffset + chunk.chunkBytes.length = pending.imageTransfer.imageByteCount
  · have hcomplete : cache.appendImageChunk chunk = cache.completeImageTransfer (withChunk pending chunk) := by
      unfold appendImageChunk
      rw [hcheck]
      simp only [hen, ne_eq, not_true_eq_false, if_false]
      rfl
    rw [acceptImageChunk, hcomplete]
    rcases completeImageTransfer_cases cache (withChunk pending chunk) with ⟨failure, hrefused⟩ | hk
    · rw [hrefused]
      exact .inl ⟨failure, rfl⟩
    · rw [hk]
      exact .inr ⟨pending, rfl, .inr ⟨hen, rfl⟩⟩
  · refine .inr ⟨pending, rfl, .inl ⟨hen, ?_⟩⟩
    unfold acceptImageChunk appendImageChunk
    rw [hcheck]
    simp only [hen, ne_eq, not_false_eq_true, if_true]
    rfl

theorem recordChunks_afterChunk (hi : run.Inv) (chunk : ImageChunk) {record : ImageRecord}
    (hg : run.cache.imageRecordByContentId.get? cid = some record) :
    (run.afterChunk chunk).recordChunks cid = run.recordChunks cid := by
  unfold afterChunk
  rcases hcheck : run.cache.checkImageChunk chunk with failure | pending
  · rfl
  dsimp only
  split
  · have hnone := hi.pendingNew pending (checkImageChunk_eq_ok hcheck).1
    have hne : cid ≠ pending.imageTransfer.imageContentId := by
      rintro rfl
      rw [hnone] at hg
      cases hg
    rw [Function.update_of_ne hne]
  · rfl

theorem Inv.chunkRefused (hi : run.Inv)
    (hcache : (run.cache.acceptImageChunk chunk).1 = { run.cache with pendingImageTransfer := none }) :
    (run.afterChunk chunk).Inv := by
  have haf : (run.afterChunk chunk).cache = { run.cache with pendingImageTransfer := none } := hcache
  refine ⟨?_, ?_, ?_, ?_, ?_, ?_, ?_⟩ <;> rw [haf]
  · exact hi.retained
  · exact le_trans (Nat.add_le_add_left (Nat.zero_le _) _) hi.held
  · exact hi.missing
  · rintro pending ⟨⟩
  · rintro pending ⟨⟩
  · intro cid record hg
    rw [recordChunks_afterChunk hi chunk hg]
    exact hi.records cid record hg
  · exact hi.frame

theorem Inv.chunkContinues (hi : run.Inv) (hcheck : run.cache.checkImageChunk chunk = .ok pending)
    (hcache : (run.cache.acceptImageChunk chunk).1 =
      { run.cache with pendingImageTransfer := some (withChunk pending chunk) }) :
    (run.afterChunk chunk).Inv := by
  obtain ⟨hpending, hoff⟩ := checkImageChunk_eq_ok hcheck
  obtain ⟨hby, hrecv⟩ := hi.pendingBytes pending hpending
  have haf : (run.afterChunk chunk).cache =
    { run.cache with pendingImageTransfer := some (withChunk pending chunk) } := hcache
  have hh := hi.held
  refine ⟨?_, ?_, ?_, ?_, ?_, ?_, ?_⟩ <;> rw [haf]
  · exact hi.retained
  · unfold computeHeldImageByteCount at hh ⊢
    rw [hpending] at hh
    exact hh
  · exact hi.missing
  · rintro _ ⟨⟩
    exact hi.pendingNew pending hpending
  · rintro _ ⟨⟩
    show pending.rgbaBytes ++ chunk.chunkBytes = (run.openChunks ++ [chunk.chunkBytes]).flatten ∧
      chunk.byteOffset + chunk.chunkBytes.length = (pending.rgbaBytes ++ chunk.chunkBytes).length
    rw [hoff, hrecv, hby]
    simp
  · intro cid record hg
    rw [recordChunks_afterChunk hi chunk hg]
    exact hi.records cid record hg
  · exact hi.frame

theorem Inv.chunkCompletes (hi : run.Inv) (hcheck : run.cache.checkImageChunk chunk = .ok pending)
    (hen : chunk.byteOffset + chunk.chunkBytes.length = pending.imageTransfer.imageByteCount)
    (hcache : (run.cache.acceptImageChunk chunk).1 = withRecord run.cache (withChunk pending chunk)) :
    (run.afterChunk chunk).Inv := by
  obtain ⟨hpending, hoff⟩ := checkImageChunk_eq_ok hcheck
  obtain ⟨hby, hrecv⟩ := hi.pendingBytes pending hpending
  have hnew := hi.pendingNew pending hpending
  have haf : (run.afterChunk chunk).cache = withRecord run.cache (withChunk pending chunk) := hcache
  have hchunks : (run.afterChunk chunk).recordChunks =
      Function.update run.recordChunks pending.imageTransfer.imageContentId (run.openChunks ++ [chunk.chunkBytes]) := by
    unfold afterChunk
    rw [hcheck]
    simp only [hen, if_true]
  have hlen : (pending.rgbaBytes ++ chunk.chunkBytes).length = pending.imageTransfer.imageByteCount := by
    rw [length_append, ← hrecv, ← hoff]
    exact hen
  refine ⟨?_, ?_, ?_, ?_, ?_, ?_, ?_⟩ <;> rw [haf]
  · show run.cache.retainedImageByteCount + pending.imageTransfer.imageByteCount =
      sumImageBytes (run.cache.imageRecordByContentId.insert pending.imageTransfer.imageContentId _)
    rw [sumImageBytes_insert _ hnew, hi.retained, ← hlen]
    rfl
  · have hh := hi.held
    unfold computeHeldImageByteCount at hh
    rw [hpending] at hh
    exact hh
  · intro cid
    show cid ∈ run.cache.missingPaintedImageContentIds.filter _ ↔ Shows run.cache.paintedFrame cid ∧
      (run.cache.imageRecordByContentId.insert _ _).get? cid = none
    rw [mem_filter, hi.missing, OrdMap.get?_insert, and_assoc]
    refine and_congr_right fun _ => ?_
    by_cases heq : cid = pending.imageTransfer.imageContentId
    · simp [heq, withChunk]
    · simp [heq, withChunk]
  · rintro _ ⟨⟩
  · rintro _ ⟨⟩
  · intro cid imageRecord hg
    have hg : (run.cache.imageRecordByContentId.insert pending.imageTransfer.imageContentId _).get? cid =
      some imageRecord := hg
    rw [hchunks]
    rw [OrdMap.get?_insert] at hg
    split at hg
    · rename_i heq
      cases hg
      subst heq
      rw [Function.update_self]
      show pending.rgbaBytes ++ chunk.chunkBytes = _
      rw [hby]
      simp
    · rename_i hne
      rw [Function.update_of_ne hne]
      exact hi.records cid imageRecord hg
  · exact hi.frame

theorem Inv.takeChunk (hi : run.Inv) (chunk : ImageChunk) : (run.afterChunk chunk).Inv := by
  rcases acceptImageChunk_cases run.cache chunk with
    ⟨failure, hrefused⟩ | ⟨pending, hcheck, ⟨_, hcontinues⟩ | ⟨hen, hcompletes⟩⟩
  · exact hi.chunkRefused (congrArg Prod.fst hrefused)
  · exact hi.chunkContinues hcheck (congrArg Prod.fst hcontinues)
  · exact hi.chunkCompletes hcheck hen (congrArg Prod.fst hcompletes)

/-! ### Runs -/

theorem Inv.apply {run : CacheRun Preview Built Content} (hi : run.Inv) (op : CacheOperation Preview Content) :
    (run.apply isValid build op).Inv := by
  cases op with
  | adopt hasMemory received => exact hi.adopt isValid build hasMemory received
  | start hasMemory imageTransfer => exact hi.start isValid build hasMemory imageTransfer
  | chunk chunk => exact hi.takeChunk chunk
  | release ids' => exact hi.release isValid build ids'
  | clear => exact Inv.clear isValid build

theorem inv_runOperations (ops : List (CacheOperation Preview Content)) : (runOperations isValid build ops).Inv := by
  induction ops using reverseRecOn with
  | nil => exact inv_new
  | append_singleton ops op ih =>
    unfold runOperations at ih ⊢
    rw [foldl_concat]
    exact ih.apply isValid build op

/-! ### Snapshots -/

/-- The snapshot is of the update: its content, and the image placements of each pane in order, with the kept records.
-/
structure IsSnapshotOf (frame : ReceivedPaintedFrame Preview Content) (records : OrdMap Nat ImageRecord)
    (snapshot : RenderSnapshot Built Content) : Prop where
  content : snapshot.content = frame.content
  panes : snapshot.paneImagePlacements = frame.paneSnapshots.map fun pane =>
    (pane.paneId, pane.imagePlacementSnapshots.filterMap fun placement =>
      buildImagePlacementSnapshotFromRecord placement (records.get? placement.imageContentId))

theorem exists_of_buildRenderSnapshot {snapshot : RenderSnapshot Built Content}
    (h : cache.buildRenderSnapshot = some snapshot) :
    ∃ frame, cache.paintedFrame = some frame ∧ IsSnapshotOf frame cache.imageRecordByContentId snapshot := by
  obtain ⟨frame, hframe, rfl⟩ := Option.map_eq_some_iff.1 h
  exact ⟨frame, hframe, rfl, rfl⟩

theorem isSome_buildRenderSnapshot (cache : ImageCache Preview Built Content) :
    cache.buildRenderSnapshot.isSome = cache.paintedFrame.isSome := by
  unfold buildRenderSnapshot
  rw [Option.isSome_map]

theorem adoptPaintedFrame_snapshot (cache next : ImageCache Preview Built Content) (hasMemory : Bool)
    (received : ReceivedPaintedFrame Preview Content) (answer : Option (RenderSnapshot Built Content))
    (h : cache.adoptPaintedFrame isValid build hasMemory received = (next, .ok answer)) :
    next.paintedFrame = some received ∧ (answer.isSome ↔ next.missingPaintedImageContentIds = []) ∧
      ∀ snapshot ∈ answer, IsSnapshotOf received next.imageRecordByContentId snapshot := by
  rcases adoptPaintedFrame_cases isValid build cache hasMemory received with
    ⟨failure, hrefused⟩ | ⟨adopted, hadopted, -, -, -, hframe, -⟩
  · rw [hrefused] at h
    cases h
  rw [hadopted] at h
  cases h
  by_cases hem : next.missingPaintedImageContentIds = []
  · refine ⟨hframe, by simp [hem, isSome_buildRenderSnapshot, hframe], fun snapshot hsnapshot => ?_⟩
    rw [if_pos (by simp [hem])] at hsnapshot
    obtain ⟨frame, hheld, hof⟩ := exists_of_buildRenderSnapshot hsnapshot
    rw [Option.some.inj (hframe.symm.trans hheld)]
    exact hof
  · simp [hem, hframe]

/-- A chunk gives a snapshot back exactly when it completes the last record the newest update lacked. -/
theorem acceptImageChunk_snapshot (hi : run.Inv) (chunk : ImageChunk) :
    (∃ snapshot, (run.cache.acceptImageChunk chunk).2 = .ok (some snapshot)) ↔
      run.cache.missingPaintedImageContentIds ≠ [] ∧
        (run.cache.acceptImageChunk chunk).1.missingPaintedImageContentIds = [] := by
  rcases acceptImageChunk_cases run.cache chunk with
    ⟨failure, hrefused⟩ | ⟨pending, hcheck, ⟨_, hcontinues⟩ | ⟨hen, hcompletes⟩⟩
  · rw [hrefused]
    simp
  · rw [hcontinues]
    simp
  rw [hcompletes]
  by_cases hl : (withRecord run.cache (withChunk pending chunk)).missingPaintedImageContentIds = []
  swap
  · simp [hl]
  by_cases hm : pending.imageTransfer.imageContentId ∈ run.cache.missingPaintedImageContentIds
  · have hfrm : run.cache.paintedFrame.isSome = true := by
      obtain ⟨⟨placement, hpl, -⟩, -⟩ := (hi.missing _).mp hm
      rcases hnone : run.cache.paintedFrame with _ | paintedFrame
      · simp [hnone] at hpl
      · rfl
    have hsnap : (withRecord run.cache (withChunk pending chunk)).buildRenderSnapshot.isSome = true := by
      rw [isSome_buildRenderSnapshot]
      exact hfrm
    obtain ⟨snapshot, hsnap⟩ := Option.isSome_iff_exists.mp hsnap
    simp only [hm, hl, and_self, if_true, hsnap]
    exact ⟨fun _ => ⟨ne_nil_of_mem hm, trivial⟩, fun _ => ⟨snapshot, rfl⟩⟩
  · simp only [hm, if_false, hl, and_true]
    constructor
    · rintro ⟨snapshot, ⟨⟩⟩
    · intro hne
      obtain ⟨cid, hin⟩ := exists_mem_of_ne_nil _ hne
      have hfiltered := filter_eq_nil_iff.mp hl cid hin
      simp only [ne_eq, decide_not, Bool.not_eq_true', decide_eq_false_iff_not, not_not] at hfiltered
      exact absurd (hfiltered ▸ hin) hm

/-- **What holds after any run.** -/
structure Consistent (run : CacheRun Preview Built Content) : Prop where
  retained : run.cache.retainedImageByteCount = sumImageBytes run.cache.imageRecordByContentId
  /-- The records and the open transfer stay within the limit. -/
  held : run.cache.computeHeldImageByteCount ≤ maxFrameImageTransferByteCount
  /-- The cache's update is the last one it adopted. -/
  frame : run.cache.paintedFrame = run.newestFrame
  /-- The missing identities are those of the available placements of that update that have no record. -/
  missing : ∀ imageContentId, imageContentId ∈ run.cache.missingPaintedImageContentIds ↔
    Shows run.newestFrame imageContentId ∧ run.cache.imageRecordByContentId.get? imageContentId = none
  /-- A kept record's bytes are its chunks in order. -/
  records : ∀ imageContentId imageRecord, run.cache.imageRecordByContentId.get? imageContentId = some imageRecord →
    imageRecord.image.rgbaBytes = (run.recordChunks imageContentId).flatten
  /-- An adopted update is stored, and gives its snapshot back exactly when it lacks no record. -/
  adopted : ∀ hasMemory received next answer,
    run.cache.adoptPaintedFrame isValid build hasMemory received = (next, .ok answer) →
      next.paintedFrame = some received ∧ (answer.isSome ↔ next.missingPaintedImageContentIds = []) ∧
        ∀ snapshot ∈ answer, IsSnapshotOf received next.imageRecordByContentId snapshot
  refused : ∀ hasMemory received next assemblyError,
    run.cache.adoptPaintedFrame isValid build hasMemory received = (next, .error assemblyError) → next = run.cache
  /-- A chunk gives the snapshot of the newest update back exactly when it brings the last record that was missing. -/
  completed : ∀ chunk,
    ((∃ snapshot, (run.cache.acceptImageChunk chunk).2 = .ok (some snapshot)) ↔
      run.cache.missingPaintedImageContentIds ≠ [] ∧
        (run.cache.acceptImageChunk chunk).1.missingPaintedImageContentIds = []) ∧
    ∀ snapshot, (run.cache.acceptImageChunk chunk).2 = .ok (some snapshot) → ∃ frame, run.newestFrame = some frame ∧
      IsSnapshotOf frame (run.cache.acceptImageChunk chunk).1.imageRecordByContentId snapshot
  /-- A release drops no record that the newest update shows. -/
  released : ∀ ids imageContentId, Shows run.newestFrame imageContentId →
    (run.cache.releaseImageContents ids).1.imageRecordByContentId.get? imageContentId =
      run.cache.imageRecordByContentId.get? imageContentId

theorem Inv.consistent (hinv : run.Inv) : run.Consistent isValid build where
  retained := hinv.retained
  held := hinv.held
  frame := hinv.frame
  missing imageContentId := hinv.frame ▸ hinv.missing imageContentId
  records := hinv.records
  adopted hasMemory received next answer h :=
    adoptPaintedFrame_snapshot isValid build _ next hasMemory received answer h
  refused hasMemory received next assemblyError h := by
    rcases adoptPaintedFrame_cases isValid build run.cache hasMemory received with
      ⟨otherError, hrefused⟩ | ⟨adopted, hadopted, -⟩
    · rw [hrefused] at h
      cases h
      rfl
    · rw [hadopted] at h
      cases h
  completed chunk := by
    refine ⟨acceptImageChunk_snapshot hinv chunk, fun snapshot h => ?_⟩
    rcases acceptImageChunk_cases run.cache chunk with
      ⟨failure, hrefused⟩ | ⟨pending, -, ⟨-, hcontinues⟩ | ⟨-, hcompletes⟩⟩
    · rw [hrefused] at h
      cases h
    · rw [hcontinues] at h
      cases h
    · rw [hcompletes] at h ⊢
      have hbuilt := Except.ok.inj h
      split_ifs at hbuilt
      obtain ⟨frame, hframe, hof⟩ := exists_of_buildRenderSnapshot hbuilt
      exact ⟨frame, hinv.frame.symm.trans hframe, hof⟩
  released ids imageContentId hshows :=
    (releasesTo_releaseImageContents hinv ids).shown imageContentId
      ((mem_listShownImageContentIds _ _).mpr (hinv.frame.symm ▸ hshows))

/-- **The image cache over any run.** Its byte count is that of the kept records, which with the open transfer stay
within the limit; the missing identities are those of the available placements of the last adopted update that have no
record; a kept record's bytes are its chunks in order. An adopted update is stored and gives its snapshot back exactly
when it lacks no record, and a chunk gives it exactly when it brings the last one; a refused update changes nothing, and
a release drops no record the newest update shows. -/
theorem imageCache_consistent (operations : List (CacheOperation Preview Content)) :
    (runOperations isValid build operations).Consistent isValid build :=
  (inv_runOperations isValid build operations).consistent isValid build

end CacheRun

end Koshi.Client
