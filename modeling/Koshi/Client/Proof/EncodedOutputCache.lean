import Koshi.Client.EncodedOutputCache

/-!
# The cache of encoded image output over a run

The entries in the order of their last use are what both maps of the cache say. Each operation is described by what it
does to that list; the byte counts, the budget and what a lookup finds follow over any run.
-/

namespace Koshi.Client

open Base List EncodedOutputCache

theorem entries_insert_newest {ν : Type} (map : OrdMap Nat ν) (key : Nat) (value : ν)
    (h : ∀ entry ∈ map.entries, entry.1 < key) : (map.insert key value).entries = map.entries ++ [(key, value)] := by
  have hlist : ∀ entries : List (Nat × ν), (∀ entry ∈ entries, entry.1 < key) →
      OrdMap.insertEntry key value entries = entries ++ [(key, value)] := by
    intro entries
    induction entries with
    | nil => exact fun _ => rfl
    | cons entry entries ih =>
      intro hlt
      have he : entry.1 < key := hlt entry mem_cons_self
      rw [OrdMap.insertEntry, if_neg (show ¬Key.rank key < Key.rank entry.1 from Nat.not_lt.2 he.le), if_neg he.ne,
        ih fun other hm => hlt other (mem_cons_of_mem _ hm), cons_append]
  exact hlist _ h

namespace EncodedOutputCache

variable {ρ ο : Type} [DecidableEq ρ] {cache : EncodedOutputCache ρ ο} {key : CachedOutputKey ρ}
  {kept : List (CachedOutputKey ρ × CachedOutputEntry ο)} {entry : CachedOutputEntry ο}

/-! ### The use order -/

/-- `kept` lists the entries of both maps in the order of their last use. -/
structure UseOrder (cache : EncodedOutputCache ρ ο) (kept : List (CachedOutputKey ρ × CachedOutputEntry ο)) : Prop where
  entries : cache.cachedOutputEntryByKey.Perm kept
  order : cache.keyByLastUseSequence.entries = kept.map fun entry => (entry.2.lastUseSequence, entry.1)
  nodup : (kept.map (·.1)).Nodup
  used : ∀ entry ∈ kept, entry.2.lastUseSequence < cache.nextUseSequence
  counted : cache.cachedByteCount = (kept.map (·.2.byteCount)).sum

section

variable (h : UseOrder cache kept)

include h

theorem UseOrder.findEntry_iff : cache.findEntry key = some entry ↔ (key, entry) ∈ kept := by
  have hone : ∀ other : CachedOutputEntry ο, (key, entry) ∈ kept → (key, other) ∈ kept → other = entry :=
    fun other he ho => (Prod.mk.inj (inj_on_of_nodup_map h.nodup ho he rfl)).2
  unfold findEntry
  constructor
  · intro hfi
    obtain ⟨⟨otherKey, other⟩, hfo, rfl⟩ := Option.map_eq_some_iff.1 hfi
    have hkey := find?_some hfo
    obtain rfl : otherKey = key := of_decide_eq_true hkey
    exact h.entries.mem_iff.1 (mem_of_find?_eq_some hfo)
  · intro hm
    cases hfi : cache.cachedOutputEntryByKey.find? fun entry => entry.1 = key with
    | none =>
      have hne := find?_eq_none.1 hfi _ (h.entries.mem_iff.2 hm)
      exact absurd (decide_eq_true rfl) hne
    | some found =>
      obtain ⟨otherKey, other⟩ := found
      have hkey := find?_some hfi
      obtain rfl : otherKey = key := of_decide_eq_true hkey
      rw [Option.map_some, hone other hm (h.entries.mem_iff.1 (mem_of_find?_eq_some hfi))]

theorem UseOrder.isSome_findEntry : (cache.findEntry key).isSome ↔ key ∈ kept.map (·.1) := by
  simp only [Option.isSome_iff_exists, h.findEntry_iff, List.mem_map, Prod.exists, exists_and_right, exists_eq_right]

theorem UseOrder.notMem (hfi : cache.findEntry key = none) : key ∉ kept.map (·.1) := by
  rw [← h.isSome_findEntry, hfi]
  exact Bool.false_ne_true

theorem UseOrder.perm_cons (hm : (key, entry) ∈ kept) :
    kept.Perm ((key, entry) :: kept.filter fun other => other.1 ≠ key) := by
  have hnd : kept.Nodup := .of_map _ h.nodup
  refine (perm_ext_iff_of_nodup hnd (nodup_cons.2 ⟨by simp, hnd.filter _⟩)).2 fun other => ?_
  simp only [mem_cons, mem_filter, decide_eq_true_eq]
  constructor
  · intro ho
    by_cases hkey : other.1 = key
    · exact .inl (inj_on_of_nodup_map h.nodup ho hm hkey)
    · exact .inr ⟨ho, hkey⟩
  · rintro (rfl | ho)
    · exact hm
    · exact ho.1

theorem UseOrder.sum_eq (hm : (key, entry) ∈ kept) : (kept.map (·.2.byteCount)).sum =
    entry.byteCount + ((kept.filter fun other => other.1 ≠ key).map (·.2.byteCount)).sum := by
  rw [((h.perm_cons hm).map _).sum_eq, map_cons, sum_cons]

theorem UseOrder.erase (hm : (key, entry) ∈ kept) :
    (cache.keyByLastUseSequence.erase entry.lastUseSequence).entries =
      (kept.filter fun other => other.1 ≠ key).map fun entry => (entry.2.lastUseSequence, entry.1) := by
  have hsrt := cache.keyByLastUseSequence.nodup_keys
  rw [OrdMap.keys, h.order, map_map] at hsrt
  show cache.keyByLastUseSequence.entries.filter _ = _
  rw [h.order, filter_map]
  refine congrArg _ (filter_congr fun other ho => ?_)
  simp only [Function.comp_apply, decide_not, Bool.not_eq_eq_eq_not, Bool.not_not, decide_eq_decide]
  constructor
  · intro hl
    rw [inj_on_of_nodup_map hsrt ho hm hl]
  · intro hkey
    rw [inj_on_of_nodup_map h.nodup ho hm hkey]

/-! ### Removing and adding -/

theorem UseOrder.removeCachedOutput (key : CachedOutputKey ρ) :
    ∃ next, cache.removeCachedOutput key = some next ∧ UseOrder next (kept.filter fun other => other.1 ≠ key) ∧
      next.heldImageByteCount = cache.heldImageByteCount := by
  unfold EncodedOutputCache.removeCachedOutput
  cases hfi : cache.findEntry key with
  | none =>
    have hself : (kept.filter fun other => other.1 ≠ key) = kept := by
      rw [filter_eq_self]
      exact fun other ho => decide_eq_true fun hkey => h.notMem hfi (hkey ▸ List.mem_map_of_mem ho)
    exact ⟨cache, rfl, hself.symm ▸ h, rfl⟩
  | some entry =>
    have hm := h.findEntry_iff.1 hfi
    have hsum := h.sum_eq hm
    have hcd := h.counted
    dsimp only
    rw [checkedSub_of_le (by omega), Option.map_some]
    refine ⟨_, rfl, ⟨h.entries.filter _, h.erase hm, ?_, ?_, ?_⟩, rfl⟩
    · exact h.nodup.sublist (filter_sublist.map _)
    · exact fun other ho => h.used other (mem_filter.1 ho).1
    · show cache.cachedByteCount - entry.byteCount = _
      omega

theorem UseOrder.removeAll (keys : List (CachedOutputKey ρ)) :
    ∃ next, keys.foldlM EncodedOutputCache.removeCachedOutput cache = some next ∧
      UseOrder next (kept.filter fun other => other.1 ∉ keys) ∧ next.heldImageByteCount = cache.heldImageByteCount := by
  induction keys generalizing cache kept with
  | nil => exact ⟨cache, rfl, by simpa using h, rfl⟩
  | cons key keys ih =>
    obtain ⟨removed, hrm, hrv, hh⟩ := h.removeCachedOutput key
    obtain ⟨next, hn, hk, hnextHeld⟩ := ih hrv
    refine ⟨next, ?_, ?_, hnextHeld.trans hh⟩
    · rw [foldlM_cons, hrm]
      exact hn
    · rw [filter_filter] at hk
      refine cast (congrArg _ (filter_congr fun other _ => ?_)) hk
      simp [Bool.and_comm]

end

variable {next : EncodedOutputCache ρ ο}

omit [DecidableEq ρ] in
theorem UseOrder.add (h : UseOrder cache kept) (hnew : key ∉ kept.map (·.1))
    (hentries : next.cachedOutputEntryByKey.Perm ((key, entry) :: cache.cachedOutputEntryByKey))
    (hord : next.keyByLastUseSequence = cache.keyByLastUseSequence.insert cache.nextUseSequence key)
    (hl : entry.lastUseSequence = cache.nextUseSequence) (hused : next.nextUseSequence = cache.nextUseSequence + 1)
    (hcd : next.cachedByteCount = cache.cachedByteCount + entry.byteCount) :
    UseOrder next (kept ++ [(key, entry)]) where
  entries := hentries.trans ((h.entries.cons _).trans (perm_append_singleton ..).symm)
  order := by
    rw [hord, entries_insert_newest, h.order, map_append, map_singleton, hl]
    rw [h.order]
    intro entry hm
    obtain ⟨other, ho, rfl⟩ := List.mem_map.1 hm
    exact h.used other ho
  nodup := by
    rw [map_append, nodup_append]
    refine ⟨h.nodup, nodup_singleton _, fun otherKey hm lastKey hl => ?_⟩
    rw [map_singleton, mem_singleton] at hl
    rw [hl]
    rintro rfl
    exact hnew hm
  used other hm := by
    rw [hused]
    rcases mem_append.1 hm with hm | hm
    · exact Nat.lt_succ_of_lt (h.used other hm)
    · rw [mem_singleton.1 hm, hl]
      exact Nat.lt_succ_self _
  counted := by
    rw [hcd, map_append, sum_append, map_singleton, sum_singleton, ← h.counted]

/-! ### Making room -/

variable {incoming turns : Nat}

theorem removeOldestLoop_over
    (hover : maxFrameImageTransferByteCount < cache.heldImageByteCount + cache.cachedByteCount + incoming)
    (hf : ∃ rest, cache.keyByLastUseSequence.entries = (entry.lastUseSequence, key) :: rest)
    (hfi : cache.findEntry key = some entry) :
    removeLeastRecentlyUsedOutputsLoop incoming (turns + 1) cache =
      (cache.removeCachedOutput key).bind (removeLeastRecentlyUsedOutputsLoop incoming turns) := by
  obtain ⟨rest, hf⟩ := hf
  have hfindRest : findEntry { cache with
      keyByLastUseSequence := cache.keyByLastUseSequence.erase entry.lastUseSequence } key = some entry := hfi
  unfold removeCachedOutput
  rw [removeLeastRecentlyUsedOutputsLoop, if_pos]
  · simp only [hf, hfindRest, hfi]
    cases checkedSub cache.cachedByteCount entry.byteCount <;> rfl
  · unfold maxFrameImageTransferByteCount u64Max at *
    omega

theorem removeOldestLoop_within
    (hft : cache.heldImageByteCount + cache.cachedByteCount + incoming ≤ maxFrameImageTransferByteCount) :
    removeLeastRecentlyUsedOutputsLoop incoming turns cache = some cache := by
  cases turns with
  | zero => rfl
  | succ turns =>
    rw [removeLeastRecentlyUsedOutputsLoop, if_neg]
    omega

/-- What making room for more bytes drops: the shortest run of least recently used outputs that leaves enough. -/
structure MakesRoom (incoming : Nat) (cache next : EncodedOutputCache ρ ο)
    (kept : List (CachedOutputKey ρ × CachedOutputEntry ο)) (count : Nat) : Prop where
  order : UseOrder next (kept.drop count)
  held : next.heldImageByteCount = cache.heldImageByteCount
  fits : next.heldImageByteCount + next.cachedByteCount + incoming ≤ maxFrameImageTransferByteCount
  least : ∀ fewer < count, maxFrameImageTransferByteCount <
    cache.heldImageByteCount + ((kept.drop fewer).map (·.2.byteCount)).sum + incoming

theorem UseOrder.makeRoom (h : UseOrder cache kept) {incoming : Nat}
    (hinc : cache.heldImageByteCount + incoming ≤ maxFrameImageTransferByteCount) :
    ∃ next count, cache.removeLeastRecentlyUsedOutputs incoming = some next ∧
      MakesRoom incoming cache next kept count := by
  have hsize : cache.keyByLastUseSequence.size = kept.length := by
    rw [OrdMap.size, h.order, length_map]
  unfold removeLeastRecentlyUsedOutputs
  rw [hsize]
  clear hsize
  induction kept generalizing cache with
  | nil =>
    refine ⟨cache, 0, rfl, h, rfl, ?_, nofun⟩
    rw [h.counted]
    exact hinc
  | cons fst kept ih =>
    obtain ⟨key, entry⟩ := fst
    by_cases hover : maxFrameImageTransferByteCount < cache.heldImageByteCount + cache.cachedByteCount + incoming
    · obtain ⟨removed, hrm, hrv, hh⟩ := h.removeCachedOutput key
      have hr : (((key, entry) :: kept).filter fun other => other.1 ≠ key) = kept := by
        rw [filter_cons_of_neg (by simp), filter_eq_self]
        have hnot : key ∉ kept.map (·.1) := (nodup_cons.1 h.nodup).1
        exact fun other ho => decide_eq_true fun hkey => hnot (hkey ▸ List.mem_map_of_mem ho)
      rw [hr] at hrv
      obtain ⟨next, count, hn, hroom⟩ := ih hrv (hh ▸ hinc)
      refine ⟨next, count + 1, ?_, hroom.order, hroom.held.trans hh, hroom.fits, fun fewer hlt => ?_⟩
      · rw [length_cons, removeOldestLoop_over hover ⟨_, h.order⟩ (h.findEntry_iff.2 mem_cons_self), hrm]
        exact hn
      · cases fewer with
        | zero => exact h.counted ▸ hover
        | succ fewer => exact hh ▸ hroom.least fewer (Nat.lt_of_succ_lt_succ hlt)
    · exact ⟨cache, 0, removeOldestLoop_within (Nat.le_of_not_lt hover), h, rfl, Nat.le_of_not_lt hover, nofun⟩

/-! ### The use history -/

/-- What the operations themselves say is kept: keys with their byte counts, the least recently used first. -/
structure UseHistory (ρ : Type) where
  outputs : List (CachedOutputKey ρ × Nat)
  heldImageByteCount : Nat

/-- The outputs left when the least recently used are dropped until the rest fits with the incoming bytes. -/
def dropOldest (heldImageByteCount incoming : Nat) : List (CachedOutputKey ρ × Nat) → List (CachedOutputKey ρ × Nat)
  | [] => []
  | output :: outputs =>
    if maxFrameImageTransferByteCount < heldImageByteCount + ((output :: outputs).map (·.2)).sum + incoming then
      dropOldest heldImageByteCount incoming outputs
    else output :: outputs

/-- The key's output shows one of the images, its own or one below it. -/
def ReadsImage (ids : List Nat) : CachedOutputKey ρ → Prop
  | .units encodeKey => encodeKey.imageContentId ∈ ids ∨
      ∃ lowerLayer ∈ encodeKey.compositionInput.toList.flatMap (·.lowerLayers), lowerLayer.imageContentId ∈ ids
  | .kittyCompressed imageContentId => imageContentId ∈ ids

instance (ids : List Nat) : DecidablePred (ReadsImage (ρ := ρ) ids)
  | .units encodeKey => inferInstanceAs (Decidable (encodeKey.imageContentId ∈ ids ∨ _))
  | .kittyCompressed imageContentId => inferInstanceAs (Decidable (imageContentId ∈ ids))

namespace UseHistory

variable (history : UseHistory ρ)

/-- The outputs of other keys. -/
def without (key : CachedOutputKey ρ) :
    List (CachedOutputKey ρ × Nat) := history.outputs.filter fun output => output.1 ≠ key

/-- A lookup makes its key the newest, and so does an insert that fits beside the image records. -/
def use : Operation ρ ο → UseHistory ρ
  | .find key => { history with outputs := history.without key ++ history.outputs.filter fun output => output.1 = key }
  | .insert key _ byteCount =>
    if byteCount ≤ maxFrameImageTransferByteCount - history.heldImageByteCount then
      { history with
        outputs := dropOldest history.heldImageByteCount byteCount (history.without key) ++ [(key, byteCount)] }
    else { history with outputs := history.without key }
  | .release ids =>
    { history with outputs := history.outputs.filter fun output => ¬ReadsImage ids output.1 }
  | .clear => { history with outputs := [] }
  | .setHeld heldImageByteCount => ⟨dropOldest heldImageByteCount 0 history.outputs, heldImageByteCount⟩

def ofOperations (steps : List (Operation ρ ο)) : UseHistory ρ := steps.foldl use ⟨[], 0⟩

/-- The operation inserts an output under the key that fits beside the image records. -/
def Keeps (key : CachedOutputKey ρ) : Operation ρ ο → Prop
  | .insert newKey _ byteCount =>
    key = newKey ∧ byteCount ≤ maxFrameImageTransferByteCount - history.heldImageByteCount
  | _ => False

/-- The operation evicts, replaces, releases or clears the key's output. -/
def Drops (key : CachedOutputKey ρ) : Operation ρ ο → Prop
  | .find _ => False
  | .insert newKey _ byteCount =>
    key = newKey ∨ byteCount ≤ maxFrameImageTransferByteCount - history.heldImageByteCount ∧
      key ∉ (dropOldest history.heldImageByteCount byteCount (history.without newKey)).map (·.1)
  | .release ids => ReadsImage ids key
  | .clear => True
  | .setHeld heldImageByteCount => key ∉ (dropOldest heldImageByteCount 0 history.outputs).map (·.1)

end UseHistory

/-! ### Operations -/

/-- A cache within its budget, with its entries in the order of their last use. -/
structure Sound (cache : EncodedOutputCache ρ ο) (kept : List (CachedOutputKey ρ × CachedOutputEntry ο)) : Prop where
  order : UseOrder cache kept
  budget : cache.heldImageByteCount + cache.cachedByteCount ≤ maxFrameImageTransferByteCount

/-- The entries as the use history lists them. -/
def historyOf (cache : EncodedOutputCache ρ ο) (kept : List (CachedOutputKey ρ × CachedOutputEntry ο)) : UseHistory ρ :=
  ⟨kept.map fun entry => (entry.1, entry.2.byteCount), cache.heldImageByteCount⟩

/-- An operation succeeds, and does to the entries in the order of their last use what the use history says. -/
def StepsTo (cache : EncodedOutputCache ρ ο) (kept : List (CachedOutputKey ρ × CachedOutputEntry ο))
    (operation : Operation ρ ο) : Prop :=
  ∃ next nextKept, cache.apply operation = some next ∧ Sound next nextKept ∧
    next.historyOf nextKept = (cache.historyOf kept).use operation

omit [DecidableEq ρ] in
theorem mem_keys_filter {ν : Type} {entries : List (CachedOutputKey ρ × ν)} (keeps : CachedOutputKey ρ → Bool) :
    key ∈ (entries.filter fun entry => keeps entry.1).map (·.1) ↔ key ∈ entries.map (·.1) ∧ keeps key = true := by
  simp only [List.mem_map, mem_filter, Prod.exists, exists_and_right, exists_eq_right]

omit [DecidableEq ρ] in
theorem dropOldest_eq_drop {held incoming count : Nat} {outputs : List (CachedOutputKey ρ × Nat)}
    (hfits : held + ((outputs.drop count).map (·.2)).sum + incoming ≤ maxFrameImageTransferByteCount)
    (hleast : ∀ fewer < count,
      maxFrameImageTransferByteCount < held + ((outputs.drop fewer).map (·.2)).sum + incoming) :
    dropOldest held incoming outputs = outputs.drop count := by
  induction count generalizing outputs with
  | zero =>
    cases outputs with
    | nil => rfl
    | cons output outputs =>
      exact if_neg (Nat.not_lt.2 hfits)
  | succ count ih =>
    cases outputs with
    | nil => rfl
    | cons output outputs =>
      exact (if_pos (hleast 0 (Nat.succ_pos count))).trans
        (ih hfits fun fewer hlt => hleast (fewer + 1) (Nat.succ_lt_succ hlt))

omit [DecidableEq ρ] in
theorem MakesRoom.dropOldest_eq {incoming count : Nat} (hroom : MakesRoom incoming cache next kept count) :
    dropOldest cache.heldImageByteCount incoming (kept.map fun entry => (entry.1, entry.2.byteCount)) =
      (kept.drop count).map fun entry => (entry.1, entry.2.byteCount) := by
  have hsum : ∀ fewer, (((kept.map fun entry => (entry.1, entry.2.byteCount)).drop fewer).map (·.2)).sum =
      ((kept.drop fewer).map (·.2.byteCount)).sum := fun fewer => by rw [← map_drop, map_map]; rfl
  rw [dropOldest_eq_drop, map_drop]
  · rw [hsum, ← hroom.order.counted, ← hroom.held]
    exact hroom.fits
  · intro fewer hlt
    rw [hsum]
    exact hroom.least fewer hlt

theorem notMem_keys_filter_self : key ∉ (kept.filter fun entry => entry.1 ≠ key).map (·.1) := by
  rw [mem_keys_filter fun other => other ≠ key]
  exact fun hm => of_decide_eq_true hm.2 rfl

omit [DecidableEq ρ] in
theorem UseOrder.cachedByteCount_le (h : UseOrder cache kept) {keeps : CachedOutputKey ρ × CachedOutputEntry ο → Bool}
    (hn : UseOrder next (kept.filter keeps)) :
    next.cachedByteCount ≤ cache.cachedByteCount := by
  rw [hn.counted, h.counted]
  exact (filter_sublist.map _).sum_le_sum fun _ _ => Nat.zero_le _

theorem UseOrder.insertEntry (h : UseOrder cache kept) (hnew : key ∉ kept.map (·.1)) :
    cache.insertEntry key entry = (key, entry) :: cache.cachedOutputEntryByKey := by
  unfold EncodedOutputCache.insertEntry
  congr 1
  rw [filter_eq_self]
  exact fun other ho =>
    decide_eq_true fun hkey => hnew (hkey ▸ List.mem_map_of_mem (h.entries.mem_iff.1 ho))

theorem UseOrder.filter_eq (h : UseOrder cache kept) (hm : (key, entry) ∈ kept) :
    kept.filter (fun other => other.1 = key) = [(key, entry)] := by
  have hperm := (h.perm_cons hm).filter fun other => decide (other.1 = key)
  have hnone : (kept.filter fun other => other.1 ≠ key).filter (fun other => other.1 = key) = [] := by simp
  rw [filter_cons_of_pos (by simp), hnone] at hperm
  exact perm_singleton.1 hperm

theorem without_historyOf : (cache.historyOf kept).without key =
    (kept.filter fun other => other.1 ≠ key).map fun entry => (entry.1, entry.2.byteCount) := filter_map

theorem Sound.find (h : Sound cache kept) (key : CachedOutputKey ρ) : StepsTo cache kept (.find key) := by
  have huse : (cache.historyOf kept).use (.find key : Operation ρ ο) = ⟨((kept.filter fun other => other.1 ≠ key) ++
      kept.filter fun other => other.1 = key).map fun entry => (entry.1, entry.2.byteCount),
        cache.heldImageByteCount⟩ := by
    rw [map_append, ← without_historyOf]
    exact congrArg (UseHistory.mk · _) (congrArg (_ ++ ·) filter_map)
  unfold StepsTo
  rw [huse]
  cases hfound : cache.findEntry key with
  | none =>
    have hself : ∀ other ∈ kept, other.1 ≠ key := fun other ho hkey =>
      h.order.notMem hfound (hkey ▸ List.mem_map_of_mem ho)
    refine ⟨cache, kept, ?_, h, ?_⟩
    · show some (cache.findCachedOutput key).2 = _
      rw [findCachedOutput, hfound]
    · rw [filter_eq_self.2 fun other ho => decide_eq_true (hself other ho),
        filter_eq_nil_iff.2 fun other ho => by simpa using hself other ho, append_nil]
      rfl
  | some entry =>
    have hm := h.order.findEntry_iff.1 hfound
    obtain ⟨removed, hremoved, hrest, -⟩ := h.order.removeCachedOutput key
    unfold removeCachedOutput at hremoved
    rw [hfound] at hremoved
    obtain ⟨cachedByteCount, hsub, rfl⟩ := Option.map_eq_some_iff.1 hremoved
    have hcounted : cache.cachedByteCount = cachedByteCount + entry.byteCount := by
      unfold checkedSub at hsub
      split_ifs at hsub
      have := Option.some.inj hsub
      omega
    have hnext : UseOrder (cache.findCachedOutput key).2 ((kept.filter fun other => other.1 ≠ key) ++
        [(key, { entry with lastUseSequence := cache.nextUseSequence })]) := by
      unfold findCachedOutput
      rw [hfound]
      exact hrest.add notMem_keys_filter_self (.refl _) rfl rfl rfl hcounted
    refine ⟨_, _, rfl, ⟨hnext, ?_⟩, ?_⟩
    · unfold findCachedOutput
      rw [hfound]
      exact h.budget
    · rw [h.order.filter_eq hm, historyOf, map_append, map_append, findCachedOutput, hfound]
      rfl

theorem Sound.insert (h : Sound cache kept) (key : CachedOutputKey ρ) (output : ο) (byteCount : Nat) :
    StepsTo cache kept (.insert key output byteCount) := by
  obtain ⟨removed, hremoved, hrest, hheld⟩ := h.order.removeCachedOutput key
  have hbudget := h.budget
  have happly : cache.apply (.insert key output byteCount) = cache.insertCachedOutput key output byteCount := rfl
  rw [insertCachedOutput, hremoved, Option.bind_some, hheld] at happly
  unfold StepsTo
  rw [UseHistory.use, without_historyOf, show (cache.historyOf kept).heldImageByteCount =
    cache.heldImageByteCount from rfl]
  by_cases hlarge : byteCount > maxFrameImageTransferByteCount - cache.heldImageByteCount
  · refine ⟨removed, _, happly.trans (if_pos hlarge), ⟨hrest, ?_⟩, ?_⟩
    · have hle := h.order.cachedByteCount_le hrest
      omega
    · rw [if_neg (Nat.not_le.2 hlarge), historyOf, hheld]
  · obtain ⟨room, count, hroom, hmakes⟩ := hrest.makeRoom
      (show removed.heldImageByteCount + byteCount ≤ maxFrameImageTransferByteCount by omega)
    have hfits := hmakes.fits
    have hnew : key ∉ ((kept.filter fun other => other.1 ≠ key).drop count).map (·.1) :=
      fun hm => notMem_keys_filter_self (((drop_sublist ..).map _).subset hm)
    rw [if_neg hlarge, hroom, Option.bind_some, checkedAdd_of_le, Option.map_some] at happly
    swap
    · unfold maxFrameImageTransferByteCount at hfits
      unfold u64Max
      omega
    refine ⟨_, _, happly, ⟨hmakes.order.add hnew (.of_eq (hmakes.order.insertEntry hnew)) rfl rfl rfl rfl, ?_⟩, ?_⟩
    · show room.heldImageByteCount + (room.cachedByteCount + byteCount) ≤ _
      omega
    · rw [if_pos (Nat.le_of_not_lt hlarge), ← hheld, hmakes.dropOldest_eq, historyOf, map_append, hmakes.held]
      rfl

omit [DecidableEq ρ] in
theorem isReadingAnyImage_iff (ids : List Nat) (key : CachedOutputKey ρ) :
    key.isReadingAnyImage ids = true ↔ ReadsImage ids key := by
  cases key with
  | units encodeKey =>
    cases hinput : encodeKey.compositionInput <;> simp [CachedOutputKey.isReadingAnyImage, ReadsImage, hinput]
  | kittyCompressed imageContentId => simp [CachedOutputKey.isReadingAnyImage, ReadsImage]

/-- **One operation** on a sound cache does what the use history says. -/
theorem Sound.apply (h : Sound cache kept) (operation : Operation ρ ο) : StepsTo cache kept operation := by
  cases operation with
  | find key => exact h.find key
  | insert key output byteCount => exact h.insert key output byteCount
  | release ids =>
    obtain ⟨next, hnext, hrest, hheld⟩ := h.order.removeAll
      ((cache.cachedOutputEntryByKey.map (·.1)).filter (·.isReadingAnyImage ids))
    refine ⟨next, _, hnext, ⟨hrest, ?_⟩, ?_⟩
    · have hbudget := h.budget
      have hle := h.order.cachedByteCount_le hrest
      omega
    · rw [historyOf, hheld]
      refine congrArg (UseHistory.mk · _) (Eq.trans (congrArg _ (filter_congr fun entry hm => ?_)) filter_map.symm)
      have hkey : entry.1 ∈ cache.cachedOutputEntryByKey.map (·.1) :=
        List.mem_map_of_mem (h.order.entries.mem_iff.2 hm)
      simp only [mem_filter, hkey, true_and, isReadingAnyImage_iff, Function.comp_apply]
  | clear =>
    refine ⟨_, [], rfl, ⟨⟨.refl _, rfl, nodup_nil, nofun, rfl⟩, ?_⟩, rfl⟩
    exact (Nat.le_add_right _ _).trans h.budget
  | setHeld heldImageByteCount =>
    have hset : UseOrder { cache with heldImageByteCount } kept :=
      ⟨h.order.entries, h.order.order, h.order.nodup, h.order.used, h.order.counted⟩
    obtain ⟨next, count, hnext, hroom⟩ := hset.makeRoom
      (show heldImageByteCount.val + 0 ≤ _ from Nat.le_of_lt_succ heldImageByteCount.isLt)
    refine ⟨next, _, hnext, ⟨hroom.order, hroom.fits⟩, ?_⟩
    rw [historyOf, ← hroom.dropOldest_eq, hroom.held]
    rfl

/-! ### Runs -/

/-- The key's output was inserted, fit beside the image records, and was not dropped since. -/
inductive HeldAfter (key : CachedOutputKey ρ) : List (Operation ρ ο) → Prop where
  | kept {earlier : List (Operation ρ ο)} {operation : Operation ρ ο}
    (hkeeps : (UseHistory.ofOperations earlier).Keeps key operation) : HeldAfter key (earlier ++ [operation])
  | stays {earlier : List (Operation ρ ο)} {operation : Operation ρ ο} (hheld : HeldAfter key earlier)
    (hstays : ¬(UseHistory.ofOperations earlier).Drops key operation) : HeldAfter key (earlier ++ [operation])

theorem heldAfter_concat {earlier : List (Operation ρ ο)} {operation : Operation ρ ο} :
    HeldAfter key (earlier ++ [operation]) ↔ (UseHistory.ofOperations earlier).Keeps key operation ∨
      HeldAfter key earlier ∧ ¬(UseHistory.ofOperations earlier).Drops key operation := by
  constructor
  · intro hheld
    generalize hall : earlier ++ [operation] = steps at hheld
    cases hheld with
    | kept hkeeps =>
      obtain ⟨rfl, hlast⟩ := append_inj' hall rfl
      obtain rfl := (cons.inj hlast).1
      exact .inl hkeeps
    | stays hheld hstays =>
      obtain ⟨rfl, hlast⟩ := append_inj' hall rfl
      obtain rfl := (cons.inj hlast).1
      exact .inr ⟨hheld, hstays⟩
  · rintro (hkeeps | ⟨hheld, hstays⟩)
    · exact .kept hkeeps
    · exact .stays hheld hstays

theorem notHeldAfter_nil : ¬HeldAfter key ([] : List (Operation ρ ο)) := by
  intro hheld
  generalize hall : ([] : List (Operation ρ ο)) = steps at hheld
  cases hheld <;> exact absurd hall.symm (by simp)

omit [DecidableEq ρ] in
theorem dropOldest_suffix (held incoming : Nat) (outputs : List (CachedOutputKey ρ × Nat)) :
    dropOldest held incoming outputs <:+ outputs := by
  induction outputs with
  | nil => exact suffix_rfl
  | cons output outputs ih =>
    rw [dropOldest]
    split_ifs
    · exact ih.trans (suffix_cons ..)
    · exact suffix_rfl

/-- A use history holds the keys that an operation keeps, and those it held and does not drop. -/
theorem UseHistory.mem_use (history : UseHistory ρ) (operation : Operation ρ ο) :
    key ∈ (history.use operation).outputs.map (·.1) ↔
      history.Keeps key operation ∨ key ∈ history.outputs.map (·.1) ∧ ¬history.Drops key operation := by
  have hkept : ∀ (held incoming : Nat) (outputs : List (CachedOutputKey ρ × Nat)),
      key ∈ (dropOldest held incoming outputs).map (·.1) ↔ key ∈ outputs.map (·.1) ∧
        ¬key ∉ (dropOldest held incoming outputs).map (·.1) := fun held incoming outputs => by
    rw [not_not, iff_and_self]
    exact fun hm => ((dropOldest_suffix ..).sublist.map _).subset hm
  cases operation with
  | find usedKey =>
    simp only [use, without, map_append, mem_append, mem_keys_filter fun other => decide (other ≠ usedKey),
      mem_keys_filter fun other => decide (other = usedKey), decide_eq_true_eq, Keeps, Drops]
    tauto
  | insert newKey output byteCount =>
    rw [use]
    by_cases hlarge : byteCount ≤ maxFrameImageTransferByteCount - history.heldImageByteCount
    · rw [if_pos hlarge, map_append, mem_append, hkept]
      by_cases hkey : key = newKey
      · simp [Keeps, hkey, hlarge]
      · simp [Keeps, Drops, hkey, hlarge, without]
    · rw [if_neg hlarge]
      simp only [Keeps, Drops, hlarge, without, and_false, false_and, or_false, false_or,
        mem_keys_filter fun other => decide (other ≠ newKey), decide_eq_true_eq]
  | release ids =>
    simp only [use, Keeps, Drops, mem_keys_filter fun other => decide ¬ReadsImage ids other,
      decide_eq_true_eq, false_or]
  | clear => simp [use, Keeps, Drops]
  | setHeld heldImageByteCount =>
    rw [use, hkept]
    simp [Keeps, Drops]

theorem sound_runOperations (steps : List (Operation ρ ο)) : ∃ cache kept, runOperations steps = some cache ∧
    Sound cache kept ∧ cache.historyOf kept = UseHistory.ofOperations steps := by
  induction steps using List.reverseRecOn with
  | nil => exact ⟨new, [], rfl, ⟨⟨.refl _, rfl, nodup_nil, nofun, rfl⟩, Nat.zero_le _⟩, rfl⟩
  | append_singleton steps operation ih =>
    obtain ⟨cache, kept, hrun, hsound, hhistory⟩ := ih
    obtain ⟨next, nextKept, hnext, hnextSound, huse⟩ := hsound.apply operation
    refine ⟨next, nextKept, ?_, hnextSound, ?_⟩
    · unfold runOperations at hrun ⊢
      rw [foldlM_append, hrun]
      show (cache.apply operation).bind some = some next
      rw [hnext, Option.bind_some]
    · rw [huse, hhistory, UseHistory.ofOperations, UseHistory.ofOperations, foldl_append]
      rfl

theorem mem_ofOperations_iff (steps : List (Operation ρ ο)) :
    key ∈ (UseHistory.ofOperations steps).outputs.map (·.1) ↔ HeldAfter key steps := by
  induction steps using List.reverseRecOn with
  | nil => exact iff_of_false (not_mem_nil) notHeldAfter_nil
  | append_singleton steps operation ih =>
    rw [heldAfter_concat, ← ih, ← UseHistory.mem_use, UseHistory.ofOperations, UseHistory.ofOperations, foldl_append]
    rfl

/-- **The cache of encoded output.** Over any run no count leaves its type, both maps hold the outputs that the use
history of the run lists, in its order, the byte count is their sum and stays in the budget beside the held bytes, and a
lookup finds a key exactly when its output was kept and not dropped since. Making room drops the shortest run of least
recently used outputs. -/
theorem encodedOutputCache_run :
    (∀ steps : List (Operation ρ ο), ∃ cache kept, runOperations steps = some cache ∧ UseOrder cache kept ∧
      cache.historyOf kept = UseHistory.ofOperations steps ∧
      cache.cachedByteCount = (cache.cachedOutputEntryByKey.map (·.2.byteCount)).sum ∧
      cache.heldImageByteCount + cache.cachedByteCount ≤ maxFrameImageTransferByteCount ∧
      ∀ key, (cache.findCachedOutput key).1.isSome ↔ HeldAfter key steps) ∧
    ∀ (cache : EncodedOutputCache ρ ο) kept incoming, UseOrder cache kept →
      cache.heldImageByteCount + incoming ≤ maxFrameImageTransferByteCount →
        ∃ next count, cache.removeLeastRecentlyUsedOutputs incoming = some next ∧
          MakesRoom incoming cache next kept count := by
  refine ⟨fun steps => ?_, fun cache kept incoming h => h.makeRoom⟩
  obtain ⟨cache, kept, hrun, hsound, hhistory⟩ := sound_runOperations steps
  refine ⟨cache, kept, hrun, hsound.order, hhistory, ?_, hsound.budget, fun key => ?_⟩
  · rw [hsound.order.counted, (hsound.order.entries.map _).sum_eq]
  · have hfound : (cache.findCachedOutput key).1.isSome = (cache.findEntry key).isSome := by
      unfold findCachedOutput
      cases cache.findEntry key <;> rfl
    rw [hfound, hsound.order.isSome_findEntry, ← mem_ofOperations_iff, ← hhistory, historyOf, map_map]
    rfl

/-- An output larger than the budget is inserted, nothing else happens, and a lookup does not find it. -/
theorem largeOutput_not_found :
    (runOperations [Operation.insert (CachedOutputKey.kittyCompressed 7 : CachedOutputKey Unit) ()
      (maxFrameImageTransferByteCount + 1)]).map (fun cache => (cache.findCachedOutput (.kittyCompressed 7)).1) =
      some none := by
  decide

end EncodedOutputCache

end Koshi.Client
