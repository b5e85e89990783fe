import Koshi.Base.Checked
import Koshi.Base.MachineInt
import Koshi.Image.Record
import Mathlib.Data.List.MinMax
import Mathlib.Data.Prod.Lex

/-!
# Sixel palettes

The palette of an image and the lookup of its pixels (`koshi-sixel/src/encoder.rs`). An image with more colors than the
limit is quantized: its colors are counted in histogram bins, and boxes of bins are cut at their weighted median until
there are as many as the limit or none can be cut. A sample index is below the number of samples by its type, and an
allocation is not modelled.
-/

namespace Koshi.Sixel

open Base Image

/-- The three channels of a color, as percentages. -/
abbrev Color := Fin 3 → Nat

/-- `SixelEncodeError`, of which the lookup returns the first; the second is an index that the source panics on. -/
inductive SixelEncodeError where
  | paletteMapping
  | indexOutOfRange
  deriving DecidableEq, Repr

def histogramBucketCountPerChannel : Nat := 32

def histogramBucketCount : Nat :=
  histogramBucketCountPerChannel * histogramBucketCountPerChannel * histogramBucketCountPerChannel

def satAdd64 (a b : Nat) : Nat := min (a + b) u64Max

def satMul64 (a b : Nat) : Nat := min (a * b) u64Max

/-! ### Pixels -/

/-- `rgba_bytes.chunks_exact(4)`. -/
def chunkPixels : List UInt8 → List (Fin 4 → UInt8)
  | red :: green :: blue :: alpha :: rest => ![red, green, blue, alpha] :: chunkPixels rest
  | _ => []

def blendChannel (sourceChannelByte backgroundChannelByte alphaByte : UInt8) (inverseAlphaValue : Nat) : Nat :=
  (sourceChannelByte.toNat * alphaByte.toNat + backgroundChannelByte.toNat * inverseAlphaValue + 127) / 255 % 256

def convertByteToPercentage (colorChannelByte : Nat) : Nat := (colorChannelByte * 100 + 127) / 255 % 256

/-- The color that a pixel shows over the background; `none` where it is fully transparent. -/
def blendPixelToSixelPercentage (pixelRgbaBytes : Fin 4 → UInt8) (backgroundRgb : Fin 3 → UInt8) : Option Color :=
  let alphaByte := pixelRgbaBytes 3
  if alphaByte = 0 then none
  else some fun channel => convertByteToPercentage
    (blendChannel (pixelRgbaBytes channel.castSucc) (backgroundRgb channel) alphaByte (255 - alphaByte.toNat))

/-- The colors of the pixels that are not fully transparent, in order. -/
def listVisibleColors (rgbaBytes : List UInt8) (backgroundRgb : Fin 3 → UInt8) : List Color :=
  (chunkPixels rgbaBytes).filterMap (blendPixelToSixelPercentage · backgroundRgb)

/-! ### The histogram -/

def computeRoundedAverage (channelSum sampleCount : Nat) : Nat :=
  min (satAdd64 channelSum (sampleCount / 2) / max sampleCount 1) 100

def computeHistogramBinIndex (pixelColor : Color) : Nat :=
  let bucket := fun channel => pixelColor channel * histogramBucketCountPerChannel / 101
  (bucket 0 * histogramBucketCountPerChannel + bucket 1) * histogramBucketCountPerChannel + bucket 2

structure HistogramBin where
  sampleCount : Nat
  channelSums : Fin 3 → Nat

namespace HistogramBin

def empty : HistogramBin := ⟨0, fun _ => 0⟩

def addColorSample (bin : HistogramBin) (pixelColorSample : Color) : HistogramBin where
  sampleCount := satAdd64 bin.sampleCount 1
  channelSums channel := satAdd64 (bin.channelSums channel) (pixelColorSample channel)

def computeAverageColor (bin : HistogramBin) : Color := fun channel =>
  computeRoundedAverage (bin.channelSums channel) (max bin.sampleCount 1)

end HistogramBin

def fillHistogramBins (pixelColors : List Color) : Nat → HistogramBin :=
  pixelColors.foldl (fun bins pixelColor =>
    Function.update bins (computeHistogramBinIndex pixelColor)
      ((bins (computeHistogramBinIndex pixelColor)).addColorSample pixelColor)) fun _ => .empty

structure HistogramColor where
  histogramBinIndex : Nat
  averageColor : Color
  sampleWeight : Nat

/-- The bins that hold a pixel. -/
def listHistogramSamples (bins : Nat → HistogramBin) : List HistogramColor :=
  (List.range histogramBucketCount).filterMap fun histogramBinIndex =>
    let bin := bins histogramBinIndex
    if bin.sampleCount = 0 then none else some ⟨histogramBinIndex, bin.computeAverageColor, bin.sampleCount⟩

/-! ### Boxes of samples -/

variable {samples : List HistogramColor}

structure ColorBox (samples : List HistogramColor) where
  sampleIndices : List (Fin samples.length)
  minimumColor : Color
  maximumColor : Color
  sampleWeight : Nat

def buildColorBox (sampleIndices : List (Fin samples.length)) : ColorBox samples where
  sampleIndices
  minimumColor channel :=
    sampleIndices.foldl (fun minimum index => min minimum (samples[index].averageColor channel)) 255
  maximumColor channel := sampleIndices.foldl (fun maximum index => max maximum (samples[index].averageColor channel)) 0
  sampleWeight := sampleIndices.foldl (fun weight index => satAdd64 weight samples[index].sampleWeight) 0

namespace ColorBox

def channelRange (colorBox : ColorBox samples) (channel : Fin 3) : Nat :=
  colorBox.maximumColor channel - colorBox.minimumColor channel

def computeColorBoxRange (colorBox : ColorBox samples) : Nat :=
  max (max (colorBox.channelRange 0) (colorBox.channelRange 1)) (colorBox.channelRange 2)

/-- The channel with the largest range, the first of them. -/
def chooseSplitChannel (colorBox : ColorBox samples) : Fin 3 :=
  ((List.finRange 3).argmax fun channel => toLex (colorBox.channelRange channel, OrderDual.toDual channel)).getD 0

/-- The samples in the order of the split channel, then of the two channels after it, then of their bins. -/
def sortSampleIndices (colorBox : ColorBox samples) : List (Fin samples.length) :=
  let splitChannel := colorBox.chooseSplitChannel
  let sortKey := fun index : Fin samples.length =>
    let color := samples[index].averageColor
    toLex (color splitChannel, toLex (color (splitChannel + 1),
      toLex (color (splitChannel + 2), samples[index].histogramBinIndex)))
  colorBox.sampleIndices.mergeSort fun left right => sortKey left ≤ sortKey right

/-- The number of samples whose weights first reach the target together. -/
def findWeightedSplit (targetSampleWeight cumulativeSampleWeight : Nat) : List (Fin samples.length) → Option Nat
  | [] => none
  | index :: rest =>
    let cumulativeSampleWeight := satAdd64 cumulativeSampleWeight samples[index].sampleWeight
    if targetSampleWeight ≤ cumulativeSampleWeight then some 1
    else (findWeightedSplit targetSampleWeight cumulativeSampleWeight rest).map (· + 1)

/-- The two boxes that a cut at the weighted median leaves. -/
def split (colorBox : ColorBox samples) : ColorBox samples × ColorBox samples :=
  let sampleIndices := colorBox.sortSampleIndices
  let splitMemberIndex :=
    (findWeightedSplit (satAdd64 colorBox.sampleWeight 1 / 2) 0 sampleIndices).getD (sampleIndices.length / 2)
  let splitMemberIndex := max 1 (min splitMemberIndex (sampleIndices.length - 1))
  (buildColorBox (sampleIndices.take splitMemberIndex), buildColorBox (sampleIndices.drop splitMemberIndex))

/-- The average color of the samples of a box, by their weights. -/
def computeAverageColor (colorBox : ColorBox samples) : Color := fun channel =>
  computeRoundedAverage
    (colorBox.sampleIndices.foldl (fun channelSum index =>
      satAdd64 channelSum (satMul64 (samples[index].averageColor channel) samples[index].sampleWeight)) 0)
    (max (colorBox.sampleIndices.foldl (fun weight index => satAdd64 weight samples[index].sampleWeight) 0) 1)

end ColorBox

/-- The box to cut next with its index: of those with two samples and a range, the one with the largest range, then
the heaviest, then the first. -/
def chooseColorBox (colorBoxes : List (ColorBox samples)) : Option (ColorBox samples × Nat) :=
  (colorBoxes.zipIdx.filter fun entry => 1 < entry.1.sampleIndices.length ∧ 0 < entry.1.computeColorBoxRange).argmax
    fun entry => toLex (entry.1.computeColorBoxRange, toLex (entry.1.sampleWeight, OrderDual.toDual entry.2))

/-- One turn of the median-cut loop; `none` where the loop ends. -/
def splitTurn (maximumPaletteColorCount : Nat) (colorBoxes : List (ColorBox samples)) :
    Option (List (ColorBox samples)) :=
  if colorBoxes.length < maximumPaletteColorCount then
    (chooseColorBox colorBoxes).map fun entry =>
      colorBoxes.set entry.2 entry.1.split.1 ++ [entry.1.split.2]
  else none

theorem splitTurn_length {maximumPaletteColorCount : Nat} {colorBoxes turned : List (ColorBox samples)}
    (hturn : splitTurn maximumPaletteColorCount colorBoxes = some turned) :
    colorBoxes.length < maximumPaletteColorCount ∧ turned.length = colorBoxes.length + 1 := by
  unfold splitTurn at hturn
  split_ifs at hturn with hln
  obtain ⟨entry, -, rfl⟩ := Option.map_eq_some_iff.1 hturn
  exact ⟨hln, by simp⟩

/-- The boxes when the median-cut loop has ended. -/
def cutColorBoxes (maximumPaletteColorCount : Nat) (colorBoxes : List (ColorBox samples)) : List (ColorBox samples) :=
  match _ : splitTurn maximumPaletteColorCount colorBoxes with
  | none => colorBoxes
  | some turned => cutColorBoxes maximumPaletteColorCount turned
termination_by maximumPaletteColorCount - colorBoxes.length
decreasing_by
  obtain ⟨hlength, hturned⟩ := splitTurn_length ‹_›
  omega

/-! ### Palettes -/

/-- `PaletteMapping`: the index of each color, or the index of each histogram bin. -/
inductive PaletteMapping where
  | exact (paletteIndexByColor : Color → Option Nat)
  | quantized (paletteIndexByHistogramBin : Nat → Nat)

structure Palette where
  colors : List Color
  paletteMapping : PaletteMapping

def Palette.findPaletteColorIndex (palette : Palette) (pixelColor : Color) : Except SixelEncodeError Nat :=
  match palette.paletteMapping with
  | .exact paletteIndexByColor => (paletteIndexByColor pixelColor).elim (.error .paletteMapping) .ok
  | .quantized paletteIndexByHistogramBin =>
    let binIndex := computeHistogramBinIndex pixelColor
    if binIndex < histogramBucketCount ∧ paletteIndexByHistogramBin binIndex < palette.colors.length then
      .ok (paletteIndexByHistogramBin binIndex)
    else .error .paletteMapping

/-- Insert each key with its index, which must fit sixteen bits. -/
def insertPaletteIndices {κ ν : Type} [DecidableEq κ] (toValue : Nat → ν) (mapping : κ → ν) :
    List (κ × Nat) → Except SixelEncodeError (κ → ν)
  | [] => .ok mapping
  | (key, paletteIndex) :: rest =>
    if paletteIndex ≤ u16Max then
      insertPaletteIndices toValue (Function.update mapping key (toValue paletteIndex)) rest
    else .error .paletteMapping

/-- The samples of each box by their bins, with the box's index. -/
def listBinEntries (colorBoxes : List (ColorBox samples)) : List (Nat × Nat) :=
  colorBoxes.zipIdx.flatMap fun entry =>
    entry.1.sampleIndices.map fun index => (samples[index].histogramBinIndex, entry.2)

def prepareQuantizedSixelPalette (rgbaBytes : List UInt8) (backgroundRgb : Fin 3 → UInt8)
    (maximumPaletteColorCount : Nat) : Except SixelEncodeError Palette :=
  let samples := listHistogramSamples (fillHistogramBins (listVisibleColors rgbaBytes backgroundRgb))
  if samples.isEmpty then .ok ⟨[], .exact fun _ => none⟩
  else
    let colorBoxes := cutColorBoxes maximumPaletteColorCount [buildColorBox (List.finRange samples.length)]
    (insertPaletteIndices id (fun _ => u16Max) (listBinEntries colorBoxes)).map fun mapping =>
      ⟨colorBoxes.map (·.computeAverageColor), .quantized mapping⟩

/-- The different colors in order of their first pixel; `none` where they pass the limit. -/
def collectPaletteColors (maximumPaletteColorCount : Nat) (paletteColors : List Color) :
    List Color → Option (List Color)
  | [] => some paletteColors
  | pixelColor :: rest =>
    if pixelColor ∈ paletteColors then collectPaletteColors maximumPaletteColorCount paletteColors rest
    else if maximumPaletteColorCount < paletteColors.length + 1 then none
    else collectPaletteColors maximumPaletteColorCount (paletteColors ++ [pixelColor]) rest

def prepareSixelPalette (rgbaBytes : List UInt8) (backgroundRgb : Fin 3 → UInt8) (maximumPaletteColorCount : Nat) :
    Except SixelEncodeError Palette :=
  match collectPaletteColors maximumPaletteColorCount [] (listVisibleColors rgbaBytes backgroundRgb) with
  | none => prepareQuantizedSixelPalette rgbaBytes backgroundRgb maximumPaletteColorCount
  | some paletteColors =>
    (insertPaletteIndices some (fun _ => none) paletteColors.zipIdx).map fun mapping => ⟨paletteColors, .exact mapping⟩

/-! ### Bands -/

structure BandEntry where
  pixelColumnIndex : Nat
  pixelBitMask : UInt8

/-- Entries of one column, next to each other, become one. -/
def mergeBandEntries : List BandEntry → List BandEntry
  | [] => []
  | bandEntry :: rest =>
    match mergeBandEntries rest with
    | next :: merged =>
      if bandEntry.pixelColumnIndex = next.pixelColumnIndex then
        { bandEntry with pixelBitMask := bandEntry.pixelBitMask ||| next.pixelBitMask } :: merged
      else bandEntry :: next :: merged
    | [] => [bandEntry]

/-- Put one pixel of a band into the entries of its color. -/
def appendBandPixel (decodedImage : DecodedImage) (imageWidthPixels bandStartPixelRow : Nat)
    (backgroundRgb : Fin 3 → UInt8) (palette : Palette) (entriesByColor : List (List BandEntry))
    (position : Nat × Nat) : Except SixelEncodeError (List (List BandEntry)) :=
  let rgbaByteOffset := ((bandStartPixelRow + position.1) * imageWidthPixels + position.2) * 4
  match (chunkPixels (decodedImage.rgbaBytes.drop rgbaByteOffset)).head? with
  | none => .error .indexOutOfRange
  | some pixelRgbaBytes =>
    match blendPixelToSixelPercentage pixelRgbaBytes backgroundRgb with
    | none => .ok entriesByColor
    | some pixelColor => do
      let paletteColorIndex ← palette.findPaletteColorIndex pixelColor
      if paletteColorIndex < entriesByColor.length then
        .ok (entriesByColor.modify paletteColorIndex (· ++ [⟨position.2, 1 <<< UInt8.ofNat position.1⟩]))
      else .error .indexOutOfRange

/-- `build_sixel_band`, up to the entries of each color that the band state is made of. -/
def buildSixelBand (decodedImage : DecodedImage) (imageWidthPixels bandStartPixelRow bandPixelHeight : Nat)
    (backgroundRgb : Fin 3 → UInt8) (palette : Palette) : Except SixelEncodeError (List (List BandEntry)) :=
  let positions := (List.range bandPixelHeight).flatMap fun rowOffset =>
    (List.range imageWidthPixels).map (rowOffset, ·)
  (positions.foldlM (appendBandPixel decodedImage imageWidthPixels bandStartPixelRow backgroundRgb palette)
    (List.replicate palette.colors.length [])).map fun entriesByColor =>
      entriesByColor.map fun colorEntries =>
        mergeBandEntries (colorEntries.mergeSort fun left right => left.pixelColumnIndex ≤ right.pixelColumnIndex)

/-- The boxes share out the bins that hold a visible pixel, none of them is empty, and there are at most as many as the
limit. -/
structure CutsBins (pixelColors : List Color) (limit : Nat) (colorBoxes : List (ColorBox samples)) : Prop where
  nonempty : ∀ colorBox ∈ colorBoxes, colorBox.sampleIndices ≠ []
  bins : (colorBoxes.flatMap fun colorBox => colorBox.sampleIndices.map (samples[·].histogramBinIndex)).Perm
    ((List.range histogramBucketCount).filter fun binIndex => ∃ color ∈ pixelColors,
      computeHistogramBinIndex color = binIndex)
  length_le : colorBoxes.length ≤ limit

end Koshi.Sixel
