import Koshi.Base.Checked
import Koshi.Base.OrdMap
import Koshi.Client.ImageCache

/-!
# The cache of encoded image output

Encoded outputs kept for reuse, in one byte budget with the client's image records
(`koshi-client/src/terminal/image_output.rs`). The hash map is its entries in some order. An operation gives `none`
where a byte count would leave its type. What a key and a layer hold beside image content ids is a parameter, and so is
the output kept.
-/

namespace Koshi.Client

open Base

/-- One lower paint that a composed paint covers part of. -/
structure LowerLayer (ρ : Type) where
  imageContentId : Nat
  placement : ρ
  deriving DecidableEq

structure CompositionInput (ρ : Type) where
  lowerLayers : List (LowerLayer ρ)
  covered : ρ
  deriving DecidableEq

structure EncodeKey (ρ : Type) where
  imageContentId : Nat
  paint : ρ
  compositionInput : Option (CompositionInput ρ)
  deriving DecidableEq

/-- The key of one output the cache keeps. -/
inductive CachedOutputKey (ρ : Type) where
  | units (encodeKey : EncodeKey ρ)
  | kittyCompressed (imageContentId : Nat)
  deriving DecidableEq

variable {ρ ο : Type}

/-- The output reads one of the images: its own, or one below it. -/
def CachedOutputKey.isReadingAnyImage (imageContentIds : List Nat) : CachedOutputKey ρ → Bool
  | .units encodeKey =>
    imageContentIds.contains encodeKey.imageContentId ||
      encodeKey.compositionInput.any fun compositionInput =>
        compositionInput.lowerLayers.any fun lowerLayer => imageContentIds.contains lowerLayer.imageContentId
  | .kittyCompressed imageContentId => imageContentIds.contains imageContentId

structure CachedOutputEntry (ο : Type) where
  cachedOutput : ο
  byteCount : Nat
  lastUseSequence : Nat

structure EncodedOutputCache (ρ ο : Type) where
  cachedOutputEntryByKey : List (CachedOutputKey ρ × CachedOutputEntry ο)
  keyByLastUseSequence : OrdMap Nat (CachedOutputKey ρ)
  nextUseSequence : Nat
  cachedByteCount : Nat
  heldImageByteCount : Nat

namespace EncodedOutputCache

/-- An empty cache beside image records that hold no bytes. -/
def new : EncodedOutputCache ρ ο := ⟨[], .empty, 0, 0, 0⟩

variable [DecidableEq ρ] (cache : EncodedOutputCache ρ ο) (cachedOutputKey : CachedOutputKey ρ)

def findEntry : Option (CachedOutputEntry ο) :=
  (cache.cachedOutputEntryByKey.find? fun entry => entry.1 = cachedOutputKey).map (·.2)

/-- A hash map's entries with one under the key, in place of an entry it held. -/
def insertEntry (cachedOutputEntry : CachedOutputEntry ο) : List (CachedOutputKey ρ × CachedOutputEntry ο) :=
  (cachedOutputKey, cachedOutputEntry) :: cache.cachedOutputEntryByKey.filter fun entry => entry.1 ≠ cachedOutputKey

/-- Drops the output kept for a key, if one is kept. -/
def removeCachedOutput : Option (EncodedOutputCache ρ ο) :=
  match cache.findEntry cachedOutputKey with
  | none => some cache
  | some cachedOutputEntry =>
    (checkedSub cache.cachedByteCount cachedOutputEntry.byteCount).map fun cachedByteCount =>
      { cache with
        cachedOutputEntryByKey := cache.cachedOutputEntryByKey.filter fun entry => entry.1 ≠ cachedOutputKey
        keyByLastUseSequence := cache.keyByLastUseSequence.erase cachedOutputEntry.lastUseSequence
        cachedByteCount }

/-- The loop that drops outputs in the order of their last use until the rest fits, once for each output at most. -/
def removeLeastRecentlyUsedOutputsLoop (incomingByteCount : Nat) :
    Nat → EncodedOutputCache ρ ο → Option (EncodedOutputCache ρ ο)
  | 0, cache => some cache
  | remaining + 1, cache =>
    if min (min (cache.heldImageByteCount + cache.cachedByteCount) u64Max + incomingByteCount) u64Max >
        maxFrameImageTransferByteCount then
      match cache.keyByLastUseSequence.entries with
      | [] => some cache
      | (lastUseSequence, leastRecentlyUsedKey) :: _ =>
        let cache := { cache with keyByLastUseSequence := cache.keyByLastUseSequence.erase lastUseSequence }
        match cache.findEntry leastRecentlyUsedKey with
        | none => removeLeastRecentlyUsedOutputsLoop incomingByteCount remaining cache
        | some cachedOutputEntry =>
          (checkedSub cache.cachedByteCount cachedOutputEntry.byteCount).bind fun cachedByteCount =>
            removeLeastRecentlyUsedOutputsLoop incomingByteCount remaining { cache with
              cachedOutputEntryByKey := cache.cachedOutputEntryByKey.filter fun entry => entry.1 ≠ leastRecentlyUsedKey
              cachedByteCount }
    else some cache

def removeLeastRecentlyUsedOutputs (incomingByteCount : Nat) : Option (EncodedOutputCache ρ ο) :=
  removeLeastRecentlyUsedOutputsLoop incomingByteCount cache.keyByLastUseSequence.size cache

/-- The output kept for a key, marked used. -/
def findCachedOutput : Option ο × EncodedOutputCache ρ ο :=
  match cache.findEntry cachedOutputKey with
  | none => (none, cache)
  | some cachedOutputEntry =>
    (some cachedOutputEntry.cachedOutput, { cache with
      cachedOutputEntryByKey :=
        cache.insertEntry cachedOutputKey { cachedOutputEntry with lastUseSequence := cache.nextUseSequence }
      keyByLastUseSequence := (cache.keyByLastUseSequence.erase cachedOutputEntry.lastUseSequence).insert
        cache.nextUseSequence cachedOutputKey
      nextUseSequence := cache.nextUseSequence + 1 })

/-- Keeps an output in place of what the key held, when it fits beside the image records. -/
def insertCachedOutput (cachedOutput : ο) (byteCount : Nat) : Option (EncodedOutputCache ρ ο) :=
  (cache.removeCachedOutput cachedOutputKey).bind fun cache =>
    if byteCount > maxFrameImageTransferByteCount - cache.heldImageByteCount then some cache
    else
      (cache.removeLeastRecentlyUsedOutputs byteCount).bind fun cache =>
        (checkedAdd u64Max cache.cachedByteCount byteCount).map fun cachedByteCount =>
          { cache with
            cachedOutputEntryByKey :=
              cache.insertEntry cachedOutputKey ⟨cachedOutput, byteCount, cache.nextUseSequence⟩
            keyByLastUseSequence := cache.keyByLastUseSequence.insert cache.nextUseSequence cachedOutputKey
            nextUseSequence := cache.nextUseSequence + 1
            cachedByteCount }

/-- Drops every output that reads one of the images. -/
def removeReleasedOutputs (imageContentIds : List Nat) : Option (EncodedOutputCache ρ ο) :=
  ((cache.cachedOutputEntryByKey.map (·.1)).filter (·.isReadingAnyImage imageContentIds)).foldlM
    removeCachedOutput cache

def clearCachedOutputs : EncodedOutputCache ρ ο :=
  { cache with cachedOutputEntryByKey := [], keyByLastUseSequence := .empty, cachedByteCount := 0 }

/-- Records the bytes the image records hold, and drops outputs until the rest fits beside them. -/
def setHeldImageByteCount (heldImageByteCount : Nat) : Option (EncodedOutputCache ρ ο) :=
  { cache with heldImageByteCount }.removeLeastRecentlyUsedOutputs 0

/-! ### Runs -/

/-- What happens to a cache. The image records hold at most what one frame transfers. -/
inductive Operation (ρ ο : Type) where
  | find (cachedOutputKey : CachedOutputKey ρ)
  | insert (cachedOutputKey : CachedOutputKey ρ) (cachedOutput : ο) (byteCount : Nat)
  | release (imageContentIds : List Nat)
  | clear
  | setHeld (heldImageByteCount : Fin (maxFrameImageTransferByteCount + 1))

def apply : Operation ρ ο → Option (EncodedOutputCache ρ ο)
  | .find cachedOutputKey => some (cache.findCachedOutput cachedOutputKey).2
  | .insert cachedOutputKey cachedOutput byteCount => cache.insertCachedOutput cachedOutputKey cachedOutput byteCount
  | .release imageContentIds => cache.removeReleasedOutputs imageContentIds
  | .clear => some cache.clearCachedOutputs
  | .setHeld heldImageByteCount => cache.setHeldImageByteCount heldImageByteCount

def runOperations (operations : List (Operation ρ ο)) : Option (EncodedOutputCache ρ ο) := operations.foldlM apply new

end EncodedOutputCache

end Koshi.Client
