import Koshi.Core.Geometry

/-!
# Image records

A decoded image with what its protocol asked for (`koshi-image/src/model.rs`, `koshi-core/src/geometry.rs`). Of the
display hints only the ones that choose the source pixels are kept.
-/

namespace Koshi.Image

open Koshi.Core

/-- The protocol that supplied an image. -/
inductive GraphicsProtocol where
  | sixel
  | kitty
  | iterm2
  deriving DecidableEq, Repr

inductive ImageAction where
  | transmit
  | display
  | transmitAndDisplay
  deriving DecidableEq, Repr

/-- A requested width or height. -/
inductive ImageDimension where
  | cells (amount : Nat)
  | pixels (amount : Nat)
  | percent (amount : Nat)
  | auto
  deriving DecidableEq, Repr

/-- The display hints that choose the source pixels. -/
structure ImageDisplay where
  requestedWidth : Option ImageDimension
  requestedHeight : Option ImageDimension
  sourcePixelOffsetX : Option Nat
  sourcePixelOffsetY : Option Nat
  deriving DecidableEq, Repr

structure DecodedImage where
  pixelWidth : Nat
  pixelHeight : Nat
  rgbaBytes : List UInt8
  deriving DecidableEq, Repr

/-- A complete image transfer. -/
structure ImageRecord where
  protocol : GraphicsProtocol
  image : DecodedImage
  action : ImageAction
  display : ImageDisplay
  anchor : Nat × Nat
  deriving DecidableEq, Repr

namespace ImageRecord

/-- The pixels requested along one axis: the requested amount of pixels, or all from the offset on. -/
def computeSourceExtent (requested : Option ImageDimension) (imageExtent offset : Nat) : Nat :=
  match requested with
  | some (.pixels amount) => amount
  | _ => imageExtent - offset

/-- The source rectangle of the record, as `(x, y, width, height)`; `none` where it is outside the image. -/
def computeSourceRect (imageRecord : ImageRecord) : Option (Nat × Nat × Nat × Nat) :=
  let image := imageRecord.image
  if imageRecord.protocol ≠ .kitty then some (0, 0, image.pixelWidth, image.pixelHeight)
  else
    let offsetX := imageRecord.display.sourcePixelOffsetX.getD 0
    let offsetY := imageRecord.display.sourcePixelOffsetY.getD 0
    let sourceWidth := computeSourceExtent imageRecord.display.requestedWidth image.pixelWidth offsetX
    let sourceHeight := computeSourceExtent imageRecord.display.requestedHeight image.pixelHeight offsetY
    if sourceWidth > 0 ∧ sourceHeight > 0 ∧ offsetX < image.pixelWidth ∧ offsetY < image.pixelHeight then
      some (offsetX, offsetY, min sourceWidth (image.pixelWidth - offsetX),
        min sourceHeight (image.pixelHeight - offsetY))
    else none

end ImageRecord

def maxImageSidePixelCount : Nat := 16384

def maxImagePixelCount : Nat := 16777216

def maxImageByteCount : Nat := maxImagePixelCount * 4

/-- The complete image size in cells and the cells removed from its top and left. -/
structure ImageCellGeometry where
  fullSize : Size
  cellOffset : Point
  deriving DecidableEq, Repr

def ImageCellGeometry.isVisibleSizeContained (cellGeometry : ImageCellGeometry) (visibleSize : Size) : Bool :=
  visibleSize.columnCount > 0 && visibleSize.rowCount > 0 &&
    Rect.isInsideRect ⟨cellGeometry.cellOffset, visibleSize⟩ (Rect.fromSizeAtOrigin cellGeometry.fullSize)

end Koshi.Image
