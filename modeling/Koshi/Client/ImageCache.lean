import Koshi.Base.OrdMap
import Koshi.Image.Record
import Koshi.Ipc.PaintedUpdate

/-!
# The image cache of one attached client

The painted updates a client reads carry image placements without their pixels; the pixels follow in transfers. The
cache (`koshi-client/src/attach/paint.rs`) keeps each complete record under its connection-local content identity, and
gives a snapshot back once every record of the newest update is there.

An update is its panes' image placements, its placement preview and the rest of its content, which the cache only
stores. Whether memory can be reserved is an argument of the operations that reserve it. Counts that the source keeps
in a `u64` are numbers here, checked where it checks them.
-/

namespace Koshi.Client

open Base Koshi.Core Image Ipc

/-- The most RGBA bytes the records of one client may total. -/
def maxFrameImageTransferByteCount : Nat := 67108864

def maxFrameImageChunkByteCount : Nat := 1048576

/-- The most transfers a client accepts after one painted update. -/
def maxFrameImageTransferCount : Nat := 4096

/-! ### Wire types -/

structure FrameImageRecordHeader where
  protocol : GraphicsProtocol
  pixelWidth : Nat
  pixelHeight : Nat
  imageAction : ImageAction
  display : ImageDisplay
  anchorCell : Nat × Nat
  deriving DecidableEq, Repr

structure FrameImagePlacement where
  cellGeometry : Option ImageCellGeometry
  imageRecord : Option FrameImageRecordHeader
  placementId : Nat
  imageContentId : Nat
  isAvailable : Bool
  anchorCell : Nat × Nat
  columnCount : Nat
  rowCount : Nat
  deriving DecidableEq, Repr

/-- The start of one record's transfer. -/
structure FrameImageTransfer where
  imageContentId : Nat
  imageRecord : FrameImageRecordHeader
  imageByteCount : Nat
  deriving DecidableEq, Repr

structure ImageChunk where
  imageTransferId : Nat
  byteOffset : Nat
  isLastChunk : Bool
  chunkBytes : List UInt8
  deriving DecidableEq, Repr

structure FramePane where
  paneId : PaneUuid
  imagePlacementSnapshots : List FrameImagePlacement
  deriving DecidableEq

structure Shared (Value : Type) where
  address : Nat
  value : Value

/-- A painted update as the client reads it. -/
structure ReceivedPaintedFrame (Preview Content : Type) where
  paneSnapshots : List FramePane
  placementPreview : Option (Shared Preview)
  content : Content

/-! ### Placements as the renderer reads them -/

/-- A placement with its record, or unavailable to this viewer. -/
structure ImagePlacementSnapshot where
  placementId : Nat
  imageContentId : Nat
  imageRecord : Option ImageRecord
  anchorCell : Nat × Nat
  columnCount : Nat
  rowCount : Nat
  cellGeometry : ImageCellGeometry
  deriving DecidableEq, Repr

variable (placementId imageContentId : Nat)

def isValidPlacement (anchorCell : Nat × Nat) (columnCount rowCount : Nat) : Bool :=
  placementId ≠ 0 && imageContentId ≠ 0 && columnCount ≠ 0 && rowCount ≠ 0 &&
    anchorCell.1 + rowCount ≤ 65535 + 1 && anchorCell.2 + columnCount ≤ 65535 + 1

def isValidImageRecord (imageRecord : ImageRecord) : Bool :=
  let pixelCount := imageRecord.image.pixelWidth * imageRecord.image.pixelHeight
  imageRecord.image.pixelWidth > 0 && imageRecord.image.pixelHeight > 0 &&
    imageRecord.image.pixelWidth ≤ maxImageSidePixelCount && imageRecord.image.pixelHeight ≤ maxImageSidePixelCount &&
    pixelCount ≤ maxImagePixelCount && pixelCount * 4 ≤ maxImageByteCount &&
    imageRecord.image.rgbaBytes.length = pixelCount * 4

namespace ImagePlacementSnapshot

def withContentId (imageRecord : ImageRecord) (anchorCell : Nat × Nat) (columnCount rowCount : Nat) :
    Option ImagePlacementSnapshot :=
  if !isValidPlacement placementId imageContentId anchorCell columnCount rowCount || imageRecord.action = .transmit ||
      imageRecord.computeSourceRect.isNone || !isValidImageRecord imageRecord then none
  else some ⟨placementId, imageContentId, some imageRecord, anchorCell, columnCount, rowCount,
    ⟨⟨columnCount, rowCount⟩, ⟨0, 0⟩⟩⟩

def buildUnavailable (anchorCell : Nat × Nat) (columnCount rowCount : Nat) : Option ImagePlacementSnapshot :=
  if isValidPlacement placementId imageContentId anchorCell columnCount rowCount then
    some ⟨placementId, imageContentId, none, anchorCell, columnCount, rowCount, ⟨⟨columnCount, rowCount⟩, ⟨0, 0⟩⟩⟩
  else none

def withCellGeometry (placement : ImagePlacementSnapshot) (cellGeometry : ImageCellGeometry) :
    Option ImagePlacementSnapshot :=
  if !cellGeometry.isVisibleSizeContained ⟨placement.columnCount, placement.rowCount⟩ then none
  else some { placement with cellGeometry }

end ImagePlacementSnapshot

/-- The cached record with the protocol, action, display and anchor of the placement's own header. -/
def restoreImageRecord (imageRecordHeader : Option FrameImageRecordHeader) (cachedImageRecord : ImageRecord) :
    Option ImageRecord :=
  match imageRecordHeader with
  | none => some cachedImageRecord
  | some header =>
    if header.pixelWidth ≠ cachedImageRecord.image.pixelWidth ∨ header.pixelHeight ≠ cachedImageRecord.image.pixelHeight
    then none
    else some { cachedImageRecord with
      protocol := header.protocol
      action := header.imageAction
      display := header.display
      anchor := header.anchorCell }

/-- A placement as the renderer reads it: with the cached record where it is available, and unavailable otherwise.
`none` where the placement or the record is refused. -/
def buildImagePlacementSnapshotFromRecord (placement : FrameImagePlacement) (cachedImageRecord : Option ImageRecord) :
    Option ImagePlacementSnapshot := do
  let snapshot ← match cachedImageRecord.filter fun _ => placement.isAvailable with
    | some cachedImageRecord => do
      let imageRecord ← restoreImageRecord placement.imageRecord cachedImageRecord
      ImagePlacementSnapshot.withContentId placement.placementId placement.imageContentId imageRecord
        placement.anchorCell placement.columnCount placement.rowCount
    | none =>
      ImagePlacementSnapshot.buildUnavailable placement.placementId placement.imageContentId placement.anchorCell
        placement.columnCount placement.rowCount
  match placement.cellGeometry with
  | some cellGeometry => snapshot.withCellGeometry cellGeometry
  | none => some snapshot

/-- One complete record from transfer metadata and its bytes. -/
def buildImageRecord (header : FrameImageRecordHeader) (rgbaBytes : List UInt8) : ImageRecord where
  protocol := header.protocol
  image := ⟨header.pixelWidth, header.pixelHeight, rgbaBytes⟩
  action := header.imageAction
  display := header.display
  anchor := header.anchorCell

/-! ### The cache -/

/-- A malformed or incomplete transfer stream. -/
inductive ImageAssemblyError where
  | duplicatePlacement
  | transferCountExceedsFrame
  | unknownTransfer (imageContentId : Nat)
  | unknownRelease (imageContentId : Nat)
  | releasedImageInUse (imageContentId : Nat)
  | transferAlreadyOpen
  | transferAlreadyComplete (imageContentId : Nat)
  | byteLengthDoesNotFit
  | wrongOffset (imageTransferId expectedByteOffset actualByteOffset : Nat)
  | chunkExceedsImage
  | finalMarkerMismatch
  | chunkTooLarge
  | transferBytesExceedFrame
  | invalidTransferLength
  | invalidPlacement
  | invalidPlacementPreview
  deriving DecidableEq, Repr

structure PendingImageTransfer where
  imageTransfer : FrameImageTransfer
  rgbaBytes : List UInt8
  receivedByteCount : Nat
  deriving DecidableEq, Repr

/-- The placement preview of an update, as it arrived and as the renderer reads it. -/
structure HeldPlacementPreview (Preview BuiltPreview : Type) where
  receivedPlacementPreview : Shared Preview
  placementPreview : BuiltPreview

/-- What one client holds of the images of its session. -/
structure ImageCache (Preview BuiltPreview Content : Type) where
  imageRecordByContentId : OrdMap Nat ImageRecord
  retainedImageByteCount : Nat
  /-- The newest painted update. -/
  paintedFrame : Option (ReceivedPaintedFrame Preview Content)
  placementPreview : Option (HeldPlacementPreview Preview BuiltPreview)
  /-- The records the newest painted update still needs; every one once. -/
  missingPaintedImageContentIds : List Nat
  /-- The transfers accepted since the newest painted update. -/
  imageTransferCount : Nat
  pendingImageTransfer : Option PendingImageTransfer

/-- The snapshot the renderer draws: the image placements of each pane, the preview, and what the update holds besides.
-/
structure RenderSnapshot (BuiltPreview Content : Type) where
  paneImagePlacements : List (PaneUuid × List ImagePlacementSnapshot)
  placementPreview : Option BuiltPreview
  content : Content

def computeImageByteCount (imageRecord : ImageRecord) : Nat := imageRecord.image.rgbaBytes.length

/-- `HashSet::insert`. -/
def insertId (ids : List Nat) (id : Nat) : List Nat := if id ∈ ids then ids else ids ++ [id]

namespace ImageCache

variable {Preview BuiltPreview Content : Type}

/-- An empty cache. -/
def new : ImageCache Preview BuiltPreview Content := ⟨.empty, 0, none, none, [], 0, none⟩

variable (cache : ImageCache Preview BuiltPreview Content)

/-- Every image placement of the newest painted update. -/
def listHeldImagePlacements : List FrameImagePlacement :=
  cache.paintedFrame.toList.flatMap fun paintedFrame =>
    paintedFrame.paneSnapshots.flatMap (·.imagePlacementSnapshots)

def isImageRecordMissing (placement : FrameImagePlacement) : Bool :=
  placement.isAvailable && !cache.imageRecordByContentId.contains placement.imageContentId

/-- The newest painted update with the records that are there. -/
def buildRenderSnapshot : Option (RenderSnapshot BuiltPreview Content) :=
  cache.paintedFrame.map fun paintedFrame => {
    paneImagePlacements := paintedFrame.paneSnapshots.map fun pane =>
      (pane.paneId, pane.imagePlacementSnapshots.filterMap fun placement =>
        buildImagePlacementSnapshotFromRecord placement (cache.imageRecordByContentId.get? placement.imageContentId))
    placementPreview := cache.placementPreview.map (·.placementPreview)
    content := paintedFrame.content }

/-- Discards every record, the open transfer and the newest update. -/
def clearImageCache (_cache : ImageCache Preview BuiltPreview Content) : ImageCache Preview BuiltPreview Content := new

/-- The identities that available placements of the newest update name. -/
def listShownImageContentIds : List Nat :=
  (cache.listHeldImagePlacements.filter (·.isAvailable)).map (·.imageContentId)

/-- The loop of `release_image_contents`: the records before a refused identity are dropped. -/
def releaseLoop (shownImageContentIds : List Nat) (cache : ImageCache Preview BuiltPreview Content) :
    List Nat → ImageCache Preview BuiltPreview Content × Except ImageAssemblyError Unit
  | [] => (cache, .ok ())
  | imageContentId :: imageContentIds =>
    if imageContentId ∈ shownImageContentIds then (cache, .error (.releasedImageInUse imageContentId))
    else
      match cache.imageRecordByContentId.get? imageContentId with
      | none => (cache, .error (.unknownRelease imageContentId))
      | some releasedImageRecord =>
        releaseLoop shownImageContentIds
          { cache with
            imageRecordByContentId := cache.imageRecordByContentId.erase imageContentId
            retainedImageByteCount := cache.retainedImageByteCount - computeImageByteCount releasedImageRecord }
          imageContentIds

/-- Drops the record of each identity. -/
def releaseImageContents (imageContentIds : List Nat) :
    ImageCache Preview BuiltPreview Content × Except ImageAssemblyError Unit :=
  releaseLoop cache.listShownImageContentIds cache imageContentIds

section Previews

variable (isValidPreview : Preview → Bool) (buildPlacementPreview : Preview → BuiltPreview)

/-- The renderer's preview: the held one where it is the same shared value, else one validated and built anew. -/
def buildHeldPlacementPreview (received : Shared Preview) :
    Except ImageAssemblyError (HeldPlacementPreview Preview BuiltPreview) :=
  match cache.placementPreview.filter fun held => held.receivedPlacementPreview.address = received.address with
  | some held => .ok ⟨received, held.placementPreview⟩
  | none =>
    if isValidPreview received.value then .ok ⟨received, buildPlacementPreview received.value⟩
    else .error .invalidPlacementPreview

structure AdoptLoop where
  seenPlacementKeys : List (PaneUuid × Nat)
  missingImageContentIds : List Nat

def adoptPlacement (paneId : PaneUuid) (loop : AdoptLoop) (placement : FrameImagePlacement) :
    Except ImageAssemblyError AdoptLoop :=
  if (paneId, placement.placementId) ∈ loop.seenPlacementKeys then .error .duplicatePlacement
  else if (buildImagePlacementSnapshotFromRecord placement
      (cache.imageRecordByContentId.get? placement.imageContentId)).isNone then .error .invalidPlacement
  else .ok {
    seenPlacementKeys := loop.seenPlacementKeys ++ [(paneId, placement.placementId)]
    missingImageContentIds :=
      if cache.isImageRecordMissing placement then insertId loop.missingImageContentIds placement.imageContentId
      else loop.missingImageContentIds }

def adoptPlacements (paneSnapshots : List FramePane) : Except ImageAssemblyError AdoptLoop :=
  paneSnapshots.foldlM (fun loop pane =>
    pane.imagePlacementSnapshots.foldlM (cache.adoptPlacement pane.paneId) loop) ⟨[], []⟩

/-- The renderer's preview of a frame, if it holds one. -/
def buildFramePlacementPreview (received : ReceivedPaintedFrame Preview Content) :
    Except ImageAssemblyError (Option (HeldPlacementPreview Preview BuiltPreview)) :=
  match received.placementPreview with
  | some receivedPreview =>
    some <$> cache.buildHeldPlacementPreview isValidPreview buildPlacementPreview receivedPreview
  | none => .ok none

/-- The checks of `adopt_painted_frame`: the preview it holds and the records it lacks. -/
def checkPaintedFrame (hasMemory : Bool) (received : ReceivedPaintedFrame Preview Content) :
    Except ImageAssemblyError (Option (HeldPlacementPreview Preview BuiltPreview) × List Nat) := do
  let placementPreview ← cache.buildFramePlacementPreview isValidPreview buildPlacementPreview received
  let placementCount := (received.paneSnapshots.map fun pane => pane.imagePlacementSnapshots.length).sum
  if placementCount ≥ 2 ^ 64 then throw .transferCountExceedsFrame
  else if !hasMemory then throw .byteLengthDoesNotFit
  else
    let loop ← cache.adoptPlacements received.paneSnapshots
    return (placementPreview, loop.missingImageContentIds)

/-- Adopts a painted update, and gives its snapshot back when every record it needs is there. -/
def adoptPaintedFrame (hasMemory : Bool) (received : ReceivedPaintedFrame Preview Content) :
    ImageCache Preview BuiltPreview Content × Except ImageAssemblyError
      (Option (RenderSnapshot BuiltPreview Content)) :=
  match cache.checkPaintedFrame isValidPreview buildPlacementPreview hasMemory received with
  | .error assemblyError => (cache, .error assemblyError)
  | .ok (placementPreview, missingImageContentIds) =>
    let cache := { cache with
      missingPaintedImageContentIds := missingImageContentIds
      pendingImageTransfer := none
      imageTransferCount := 0
      paintedFrame := some received
      placementPreview }
    (cache, .ok (if missingImageContentIds.isEmpty then cache.buildRenderSnapshot else none))

end Previews

/-- The bytes the cache holds: every record, and what the open transfer reserved. -/
def computeHeldImageByteCount : Nat :=
  cache.retainedImageByteCount +
    ((cache.pendingImageTransfer.map fun pending => pending.imageTransfer.imageByteCount).getD 0)

/-- Starts receiving one record. -/
def startImageTransfer (hasMemory : Bool) (imageTransfer : FrameImageTransfer) :
    ImageCache Preview BuiltPreview Content × Except ImageAssemblyError Unit :=
  if cache.pendingImageTransfer.isSome then (cache, .error .transferAlreadyOpen)
  else if cache.imageRecordByContentId.contains imageTransfer.imageContentId then
    (cache, .error (.transferAlreadyComplete imageTransfer.imageContentId))
  else if cache.imageTransferCount ≥ maxFrameImageTransferCount then (cache, .error .transferCountExceedsFrame)
  -- a product past `u64` is no byte count
  else if imageTransfer.imageRecord.pixelWidth * imageTransfer.imageRecord.pixelHeight * 4 ≥ 2 ^ 64 ∨
      imageTransfer.imageRecord.pixelWidth * imageTransfer.imageRecord.pixelHeight * 4 ≠ imageTransfer.imageByteCount ∨
      imageTransfer.imageByteCount = 0 then (cache, .error .invalidTransferLength)
  else if cache.retainedImageByteCount + imageTransfer.imageByteCount > maxFrameImageTransferByteCount then
    (cache, .error .transferBytesExceedFrame)
  else if !hasMemory then (cache, .error .byteLengthDoesNotFit)
  else
    ({ cache with
      pendingImageTransfer := some ⟨imageTransfer, [], 0⟩
      imageTransferCount := cache.imageTransferCount + 1 }, .ok ())

/-- Every available placement of the newest update that names the identity can show the record. -/
def isImageRecordValid (imageContentId : Nat) (imageRecord : ImageRecord) : Bool :=
  (cache.listHeldImagePlacements.filter fun placement =>
    placement.isAvailable && placement.imageContentId = imageContentId).all fun placement =>
      (buildImagePlacementSnapshotFromRecord placement (some imageRecord)).isSome

/-- A transfer whose last byte arrived: its record is kept, and the snapshot given back when it was the last one the
newest update lacked. The open transfer is taken off either way. -/
def completeImageTransfer (completed : PendingImageTransfer) :
    ImageCache Preview BuiltPreview Content × Except ImageAssemblyError
      (Option (RenderSnapshot BuiltPreview Content)) :=
  let imageContentId := completed.imageTransfer.imageContentId
  let imageRecord := buildImageRecord completed.imageTransfer.imageRecord completed.rgbaBytes
  let cache := { cache with pendingImageTransfer := none }
  if !cache.isImageRecordValid imageContentId imageRecord then (cache, .error .invalidPlacement)
  else if cache.retainedImageByteCount + completed.imageTransfer.imageByteCount ≥ 2 ^ 64 then
    (cache, .error .transferBytesExceedFrame)
  else
    let hasCompletedPaintedRecord := imageContentId ∈ cache.missingPaintedImageContentIds
    let cache := { cache with
      retainedImageByteCount := cache.retainedImageByteCount + completed.imageTransfer.imageByteCount
      imageRecordByContentId := cache.imageRecordByContentId.insert imageContentId imageRecord
      missingPaintedImageContentIds := cache.missingPaintedImageContentIds.filter (· ≠ imageContentId) }
    if ¬hasCompletedPaintedRecord ∨ cache.missingPaintedImageContentIds ≠ [] then (cache, .ok none)
    else (cache, .ok cache.buildRenderSnapshot)

/-- Why a chunk does not continue the open transfer. -/
def checkImageChunk (chunk : ImageChunk) : Except ImageAssemblyError PendingImageTransfer :=
  if chunk.chunkBytes.isEmpty then .error .finalMarkerMismatch
  else if chunk.chunkBytes.length > maxFrameImageChunkByteCount then .error .chunkTooLarge
  else
    match cache.pendingImageTransfer.filter fun pending =>
      pending.imageTransfer.imageContentId = chunk.imageTransferId with
    | none => .error (.unknownTransfer chunk.imageTransferId)
    | some pending =>
      let imageByteEnd := chunk.byteOffset + chunk.chunkBytes.length
      if chunk.byteOffset ≠ pending.receivedByteCount then
        .error (.wrongOffset chunk.imageTransferId pending.receivedByteCount chunk.byteOffset)
      else if imageByteEnd ≥ 2 ^ 64 ∨ imageByteEnd > pending.imageTransfer.imageByteCount then .error .chunkExceedsImage
      else if chunk.isLastChunk ≠ decide (imageByteEnd = pending.imageTransfer.imageByteCount) then
        .error .finalMarkerMismatch
      else .ok pending

/-- Validates and appends one chunk to the open transfer. -/
def appendImageChunk (chunk : ImageChunk) :
    ImageCache Preview BuiltPreview Content × Except ImageAssemblyError
      (Option (RenderSnapshot BuiltPreview Content)) :=
  match cache.checkImageChunk chunk with
  | .error assemblyError => (cache, .error assemblyError)
  | .ok pending =>
    let imageByteEnd := chunk.byteOffset + chunk.chunkBytes.length
    let pending :=
        { pending with rgbaBytes := pending.rgbaBytes ++ chunk.chunkBytes, receivedByteCount := imageByteEnd }
    if imageByteEnd ≠ pending.imageTransfer.imageByteCount then
      ({ cache with pendingImageTransfer := some pending }, .ok none)
    else cache.completeImageTransfer pending

/-- Accepts one chunk; a refused one drops the open transfer. -/
def acceptImageChunk (chunk : ImageChunk) :
    ImageCache Preview BuiltPreview Content × Except ImageAssemblyError
      (Option (RenderSnapshot BuiltPreview Content)) :=
  match cache.appendImageChunk chunk with
  | (cache, .error assemblyError) => ({ cache with pendingImageTransfer := none }, .error assemblyError)
  | (cache, .ok snapshot) => (cache, .ok snapshot)

end ImageCache

end Koshi.Client
