import Koshi.Sixel.Palette
import Mathlib.Data.List.FinRange
import Mathlib.Logic.Relation
import Mathlib.Tactic

/-!
# The palette of an image maps its pixels

A turn of the median-cut loop cuts a box with two samples into two boxes that are not empty, so the boxes of every turn
share out the bins that hold a pixel. Each of these bins then has the index of a box, and there are fewer boxes than
sixteen bits can count.
-/

namespace Koshi.Sixel

open List Relation Base Image

variable {samples : List HistogramColor} {back : Fin 3 → UInt8} {limit : Nat}

/-! ### Pixels and bins -/

variable {color : Color}

theorem blendPixel_le {pixel : Fin 4 → UInt8} (hblend : blendPixelToSixelPercentage pixel back = some color)
    (channel : Fin 3) :
    color channel ≤ 100 := by
  simp only [blendPixelToSixelPercentage] at hblend
  split_ifs at hblend
  cases hblend
  have hbyte : blendChannel (pixel channel.castSucc) (back channel) (pixel 3)
      (255 - (pixel 3).toNat) < 256 := Nat.mod_lt _ (by decide)
  exact (Nat.mod_le _ _).trans (by omega)

theorem histogramBinIndex_lt (hcolor : ∀ channel, color channel ≤ 100) :
    computeHistogramBinIndex color < histogramBucketCount := by
  have h0 := hcolor 0
  have h1 := hcolor 1
  have h2 := hcolor 2
  simp only [computeHistogramBinIndex, histogramBucketCount, histogramBucketCountPerChannel]
  omega

theorem roundedAverage_le (channelSum sampleCount : Nat) : computeRoundedAverage channelSum sampleCount ≤ 100 :=
  Nat.min_le_right _ _

theorem foldl_addColorSample (colors : List Color) (bins : Nat → HistogramBin) (binIndex : Nat) :
    (colors.foldl (fun bins color => Function.update bins (computeHistogramBinIndex color)
      ((bins (computeHistogramBinIndex color)).addColorSample color)) bins binIndex).sampleCount ≠ 0 ↔
      (bins binIndex).sampleCount ≠ 0 ∨ ∃ color ∈ colors, computeHistogramBinIndex color = binIndex := by
  induction colors generalizing bins with
  | nil => simp
  | cons color colors ih =>
    rw [foldl_cons, ih, exists_mem_cons_iff, ← or_assoc]
    refine or_congr_left ?_
    rcases eq_or_ne (computeHistogramBinIndex color) binIndex with rfl | hne
    · simp [HistogramBin.addColorSample, satAdd64, u64Max]
    · rw [Function.update_of_ne hne.symm]
      simp [hne]

theorem map_histogramBinIndex (colors : List Color) :
    (listHistogramSamples (fillHistogramBins colors)).map (·.histogramBinIndex) =
      (range histogramBucketCount).filter fun binIndex =>
        ∃ color ∈ colors, computeHistogramBinIndex color = binIndex := by
  rw [listHistogramSamples, map_filterMap, ← filterMap_eq_filter]
  refine filterMap_congr fun binIndex _ => ?_
  have hc : (fillHistogramBins colors binIndex).sampleCount ≠ 0 ↔ _ :=
    (foldl_addColorSample colors (fun _ => .empty) binIndex).trans (or_iff_right fun h => h rfl)
  by_cases hfilled : ∃ color ∈ colors, computeHistogramBinIndex color = binIndex
  · simp only [if_neg (hc.2 hfilled), Option.guard, decide_eq_true hfilled]
    rfl
  · simp only [if_pos (not_not.1 (mt hc.1 hfilled)), Option.guard, decide_eq_false hfilled]
    rfl

/-! ### Turns of the median cut -/

/-- The boxes share out the samples, none of them is empty, and there are at most as many as the limit. -/
structure Partitions (limit : Nat) (boxes : List (ColorBox samples)) : Prop where
  nonempty : ∀ box ∈ boxes, box.sampleIndices ≠ []
  perm : (boxes.flatMap (·.sampleIndices)).Perm (finRange samples.length)
  length_le : boxes.length ≤ limit

theorem split_perm {box : ColorBox samples} (hln : 1 < box.sampleIndices.length) :
    box.split.1.sampleIndices ≠ [] ∧ box.split.2.sampleIndices ≠ [] ∧
      (box.split.1.sampleIndices ++ box.split.2.sampleIndices).Perm box.sampleIndices := by
  have hsrt : box.sortSampleIndices.Perm box.sampleIndices := mergeSort_perm _ _
  have hlen := hsrt.length_eq
  refine ⟨?_, ?_, ?_⟩
  · simp only [ColorBox.split, buildColorBox, ne_eq, ← length_eq_zero_iff, length_take]
    omega
  · simp only [ColorBox.split, buildColorBox, ne_eq, ← length_eq_zero_iff, length_drop]
    omega
  · simp only [ColorBox.split, buildColorBox, take_append_drop]
    exact hsrt

variable {boxes turned : List (ColorBox samples)}

theorem Partitions.turn (hparts : Partitions limit boxes) (hturn : splitTurn limit boxes = some turned) :
    Partitions limit turned := by
  obtain ⟨hlimit, hln⟩ := splitTurn_length hturn
  rw [splitTurn, if_pos hlimit] at hturn
  obtain ⟨⟨box, boxIndex⟩, hchoose, rfl⟩ := Option.map_eq_some_iff.1 hturn
  obtain ⟨hm, hsplits⟩ := mem_filter.1 (argmax_mem hchoose)
  obtain ⟨hidx, hg⟩ := List.getElem?_eq_some_iff.1 (mem_zipIdx_iff_getElem?.1 hm)
  obtain ⟨hleft, hright, hsp⟩ := split_perm (of_decide_eq_true hsplits).1
  have hset : boxes.set boxIndex box.split.1 = boxes.take boxIndex ++ box.split.1 :: boxes.drop (boxIndex + 1) := by
    rw [set_eq_take_append_cons_drop, if_pos hidx]
  have hboxes : boxes = boxes.take boxIndex ++ box :: boxes.drop (boxIndex + 1) := by
    exact (take_append_drop boxIndex boxes).symm.trans (by rw [drop_eq_getElem_cons hidx, hg])
  refine ⟨fun other ho => ?_, ?_, by omega⟩
  · rcases mem_append.1 ho with ho | ho
    · rcases mem_or_eq_of_mem_set ho with ho | rfl
      · exact hparts.nonempty other ho
      · exact hleft
    · rw [mem_singleton.1 ho]
      exact hright
  · refine .trans ?_ hparts.perm
    rw [perm_iff_count]
    intro sampleIndex
    have hc := perm_iff_count.1 hsp sampleIndex
    rw [hset]
    conv_rhs => rw [hboxes]
    simp only [flatMap_append, flatMap_cons, flatMap_nil, count_append, count_nil] at hc ⊢
    omega

theorem Partitions.start (hsamples : samples ≠ []) (hlimit : 0 < limit) :
    Partitions limit [buildColorBox (finRange samples.length)] := by
  refine ⟨fun box hbox => ?_, ?_, hlimit⟩
  · rw [mem_singleton.1 hbox]
    exact mt (fun h => length_eq_zero_iff.1 (finRange_eq_nil_iff.1 h)) hsamples
  · simp [buildColorBox]

theorem Partitions.run (hparts : Partitions limit boxes)
    (hrun : ReflTransGen (fun before after => splitTurn limit before = some after) boxes turned) :
    Partitions limit turned := by
  induction hrun with
  | refl => exact hparts
  | tail _ hturn ih => exact ih.turn hturn

theorem cutColorBoxes_run (boxes : List (ColorBox samples)) :
    ReflTransGen (fun before after => splitTurn limit before = some after) boxes (cutColorBoxes limit boxes) ∧
      splitTurn limit (cutColorBoxes limit boxes) = none := by
  fun_induction cutColorBoxes with
  | case1 boxes hen => exact ⟨.refl, hen⟩
  | case2 boxes turned hturn ih => exact ⟨.head hturn ih.1, ih.2⟩

theorem Partitions.length_le_samples {boxes : List (ColorBox samples)} (hparts : Partitions limit boxes) :
    boxes.length ≤ samples.length := by
  have hsum := length_le_sum_of_one_le (boxes.map fun box => box.sampleIndices.length) fun count hc => by
    obtain ⟨box, hbox, rfl⟩ := mem_map.1 hc
    exact length_pos_iff.2 (hparts.nonempty box hbox)
  have hln := hparts.perm.length_eq
  rw [length_flatMap, length_finRange] at hln
  rwa [hln, length_map] at hsum

/-! ### The index maps -/

theorem insertPaletteIndices_ok {κ ν : Type} [DecidableEq κ] (toValue : Nat → ν) (mapping : κ → ν)
    {entries : List (κ × Nat)} (hentries : ∀ entry ∈ entries, entry.2 ≤ u16Max) :
    ∃ inserted, insertPaletteIndices toValue mapping entries = .ok inserted := by
  induction entries generalizing mapping with
  | nil => exact ⟨mapping, rfl⟩
  | cons entry entries ih =>
    rw [insertPaletteIndices, if_pos (hentries entry mem_cons_self)]
    exact ih _ fun other ho => hentries other (mem_cons_of_mem _ ho)

theorem insertPaletteIndices_get {κ ν : Type} [DecidableEq κ] {toValue : Nat → ν} (P : ν → Prop)
    {mapping inserted : κ → ν} {entries : List (κ × Nat)}
    (hinsert : insertPaletteIndices toValue mapping entries = .ok inserted)
    (hvalues : ∀ entry ∈ entries, P (toValue entry.2)) {key : κ}
    (hkey : P (mapping key) ∨ ∃ entry ∈ entries, entry.1 = key) : P (inserted key) := by
  induction entries generalizing mapping with
  | nil =>
    cases hinsert
    exact hkey.resolve_right (by simp)
  | cons entry entries ih =>
    rw [insertPaletteIndices] at hinsert
    split_ifs at hinsert
    refine ih hinsert (fun other ho => hvalues other (mem_cons_of_mem _ ho)) ?_
    rcases eq_or_ne entry.1 key with rfl | hne
    · rw [Function.update_self]
      exact .inl (hvalues entry mem_cons_self)
    · rw [Function.update_of_ne hne.symm]
      simpa only [exists_mem_cons_iff, hne, false_or] using hkey

/-- Every color has components of at most a hundred, and every pixel that shows a color has an index. -/
structure Palette.Maps (palette : Palette) (rgbaBytes : List UInt8) (back : Fin 3 → UInt8) : Prop where
  components : ∀ color ∈ palette.colors, ∀ channel, color channel ≤ 100
  mapped : ∀ color ∈ listVisibleColors rgbaBytes back,
    ∃ index < palette.colors.length, palette.findPaletteColorIndex color = .ok index

variable {rgbaBytes : List UInt8}

theorem visibleColor_le (hcolor : color ∈ listVisibleColors rgbaBytes back) (channel : Fin 3) :
    color channel ≤ 100 := by
  obtain ⟨pixel, -, hblend⟩ := mem_filterMap.1 hcolor
  exact blendPixel_le hblend channel

theorem listHistogramSamples_length (bins : Nat → HistogramBin) :
    (listHistogramSamples bins).length ≤ histogramBucketCount :=
  (length_filterMap_le _ _).trans length_range.le

theorem listBinEntries_lt {boxes : List (ColorBox samples)} {entry : Nat × Nat}
    (he : entry ∈ listBinEntries boxes) : entry.2 < boxes.length := by
  obtain ⟨boxEntry, hbox, hsample⟩ := mem_flatMap.1 he
  obtain ⟨index, -, rfl⟩ := mem_map.1 hsample
  exact (List.getElem?_eq_some_iff.1 (mem_zipIdx_iff_getElem?.1 hbox)).1

theorem Partitions.entry {boxes : List (ColorBox samples)} (hparts : Partitions limit boxes)
    (index : Fin samples.length) : ∃ entry ∈ listBinEntries boxes, entry.1 = (samples.get index).histogramBinIndex := by
  obtain ⟨box, hbox, hidx⟩ := mem_flatMap.1 (hparts.perm.mem_iff.2 (mem_finRange index))
  obtain ⟨boxIndex, hg⟩ := getElem?_of_mem hbox
  exact ⟨((samples.get index).histogramBinIndex, boxIndex),
    mem_flatMap.2 ⟨(box, boxIndex), mem_zipIdx_iff_getElem?.2 hg, mem_map_of_mem hidx⟩, rfl⟩

theorem prepareQuantized_maps (rgbaBytes : List UInt8) (back : Fin 3 → UInt8) (hlimit : 0 < limit) :
    ∃ palette, prepareQuantizedSixelPalette rgbaBytes back limit = .ok palette ∧
      palette.colors.length ≤ limit ∧ palette.Maps rgbaBytes back := by
  have hbins := map_histogramBinIndex (listVisibleColors rgbaBytes back)
  have hc := listHistogramSamples_length (fillHistogramBins (listVisibleColors rgbaBytes back))
  unfold prepareQuantizedSixelPalette
  generalize listHistogramSamples (fillHistogramBins (listVisibleColors rgbaBytes back)) = samples at hbins hc
  have hsample : ∀ color ∈ listVisibleColors rgbaBytes back,
      ∃ index : Fin samples.length, samples[index].histogramBinIndex = computeHistogramBinIndex color := by
    intro color hcolor
    have hm : computeHistogramBinIndex color ∈ samples.map (·.histogramBinIndex) := by
      rw [hbins, mem_filter, mem_range]
      exact ⟨histogramBinIndex_lt (visibleColor_le hcolor), decide_eq_true ⟨color, hcolor, rfl⟩⟩
    obtain ⟨sample, hsample, heq⟩ := mem_map.1 hm
    obtain ⟨index, hidx, rfl⟩ := getElem_of_mem hsample
    exact ⟨⟨index, hidx⟩, heq⟩
  rcases eq_or_ne samples [] with rfl | hsamples
  · exact ⟨_, rfl, Nat.zero_le _, nofun, fun color hcolor => (hsample color hcolor).choose.elim0⟩
  have hparts := (Partitions.start hsamples hlimit).run (cutColorBoxes_run _).1
  simp only [List.isEmpty_iff, hsamples, if_false]
  generalize cutColorBoxes limit [buildColorBox (finRange samples.length)] = boxes at hparts
  have hboxes := hparts.length_le_samples
  obtain ⟨mapping, hmapping⟩ := insertPaletteIndices_ok id (fun _ => u16Max)
    fun entry (he : entry ∈ listBinEntries boxes) => by
    have he := listBinEntries_lt he
    simp only [histogramBucketCount, histogramBucketCountPerChannel, u16Max] at hc ⊢
    omega
  refine ⟨_, by rw [hmapping]; rfl, (length_map _).trans_le hparts.length_le, ?_, ?_⟩
  · intro color hcolor channel
    obtain ⟨box, -, rfl⟩ := mem_map.1 hcolor
    exact roundedAverage_le _ _
  · intro color hcolor
    obtain ⟨index, hidx⟩ := hsample color hcolor
    have hlt : mapping (computeHistogramBinIndex color) < boxes.length :=
      insertPaletteIndices_get (· < boxes.length) hmapping (fun entry he => listBinEntries_lt he)
        (.inr (hidx ▸ hparts.entry index))
    refine ⟨_, by rwa [length_map], ?_⟩
    rw [Palette.findPaletteColorIndex, length_map]
    exact if_pos ⟨histogramBinIndex_lt (visibleColor_le hcolor), hlt⟩

/-! ### Exact palettes -/

theorem collectPaletteColors_mem {colors collected pixelColors : List Color}
    (hcollect : collectPaletteColors limit colors pixelColors = some collected) (hln : colors.length ≤ limit)
    (color : Color) :
    collected.length ≤ limit ∧ (color ∈ collected ↔ color ∈ colors ∨ color ∈ pixelColors) := by
  induction pixelColors generalizing colors with
  | nil =>
    cases hcollect
    exact ⟨hln, by simp⟩
  | cons pixelColor rest ih =>
    rw [collectPaletteColors] at hcollect
    split_ifs at hcollect with hm hlimit
    · obtain ⟨hcollected, hiff⟩ := ih hcollect hln
      refine ⟨hcollected, hiff.trans ?_⟩
      rw [mem_cons]
      exact ⟨.imp_right .inr, by rintro (h | rfl | h) <;> tauto⟩
    · obtain ⟨hcollected, hiff⟩ := ih hcollect (by rw [length_append, length_singleton]; omega)
      refine ⟨hcollected, hiff.trans ?_⟩
      rw [mem_append, mem_singleton, mem_cons, or_assoc]

theorem prepareSixelPalette_maps {palette : Palette} (hlimit : 0 < limit)
    (hprepare : prepareSixelPalette rgbaBytes back limit = .ok palette) :
    palette.colors.length ≤ limit ∧ palette.Maps rgbaBytes back := by
  unfold prepareSixelPalette at hprepare
  split at hprepare
  · obtain ⟨quantized, hquantized, hmaps⟩ := prepareQuantized_maps rgbaBytes back hlimit
    cases hprepare.symm.trans hquantized
    exact hmaps
  · next colors hcollect =>
    have hcollected := collectPaletteColors_mem hcollect (Nat.zero_le _)
    cases hinsert : insertPaletteIndices some (fun _ => none) colors.zipIdx with
    | error => rw [hinsert] at hprepare; cases hprepare
    | ok mapping =>
      rw [hinsert] at hprepare
      cases hprepare
      refine ⟨(hcollected default).1, ?_, ?_⟩
      · intro color hcolor
        exact visibleColor_le (((hcollected color).2.1 hcolor).resolve_left not_mem_nil)
      · intro color hcolor
        obtain ⟨index, hg⟩ := getElem?_of_mem ((hcollected color).2.2 (.inr hcolor))
        obtain ⟨paletteIndex, hlt, hmapped⟩ := insertPaletteIndices_get
          (fun value => ∃ paletteIndex < colors.length, value = some paletteIndex) hinsert
          (fun entry he => ⟨entry.2, (List.getElem?_eq_some_iff.1 (mem_zipIdx_iff_getElem?.1 he)).1, rfl⟩)
          (.inr ⟨(color, index), mem_zipIdx_iff_getElem?.2 hg, rfl⟩)
        exact ⟨paletteIndex, hlt, congrArg (Option.elim · _ _) hmapped⟩

theorem prepareSixelPalette_ok (hlimit : 0 < limit) (hsmall : limit ≤ u16Max + 1) :
    ∃ palette, prepareSixelPalette rgbaBytes back limit = .ok palette := by
  unfold prepareSixelPalette
  split
  · obtain ⟨palette, hpal, -⟩ := prepareQuantized_maps rgbaBytes back hlimit
    exact ⟨palette, hpal⟩
  · next colors hcollect =>
    have hcollected := (collectPaletteColors_mem hcollect (Nat.zero_le _) default).1
    obtain ⟨mapping, hmapping⟩ := insertPaletteIndices_ok some (fun _ => none)
      fun entry (he : entry ∈ colors.zipIdx) => by
        have hlt := (List.getElem?_eq_some_iff.1 (mem_zipIdx_iff_getElem?.1 he)).1
        omega
    exact ⟨_, by rw [hmapping]; rfl⟩

/-! ### Bands -/

theorem chunkPixels_drop_four : ∀ rgbaBytes : List UInt8, chunkPixels (rgbaBytes.drop 4) = (chunkPixels rgbaBytes).tail
  | [] | [_] | [_, _] | [_, _, _] | _ :: _ :: _ :: _ :: _ => rfl

theorem chunkPixels_drop (rgbaBytes : List UInt8) (count : Nat) :
    chunkPixels (rgbaBytes.drop (count * 4)) = (chunkPixels rgbaBytes).drop count := by
  induction count with
  | zero => rw [Nat.zero_mul, drop_zero, drop_zero]
  | succ count ih => rw [Nat.succ_mul, ← drop_drop, chunkPixels_drop_four, ih, tail_drop]

theorem chunkPixels_length (rgbaBytes : List UInt8) : (chunkPixels rgbaBytes).length = rgbaBytes.length / 4 := by
  fun_induction chunkPixels with
  | case1 red green blue alpha rest ih => simp only [length_cons, ih]; omega
  | case2 rgbaBytes hshort =>
    have : rgbaBytes.length < 4 := by
      by_contra hlong
      match rgbaBytes with
      | red :: green :: blue :: alpha :: rest => exact hshort red green blue alpha rest rfl
      | [] | [_] | [_, _] | [_, _, _] => simp at hlong
    rw [length_nil]
    omega

variable {palette : Palette} {image : DecodedImage} {widthPixels start : Nat}

theorem appendBandPixel_ok (hmaps : palette.Maps image.rgbaBytes back) {pos : Nat × Nat}
    (hpos : (start + pos.1) * widthPixels + pos.2 < image.rgbaBytes.length / 4) {entryOf : List (List BandEntry)}
    (hln : entryOf.length = palette.colors.length) :
    ∃ appended, appendBandPixel image widthPixels start back palette entryOf
      pos = .ok appended ∧ appended.length = palette.colors.length := by
  rw [← chunkPixels_length] at hpos
  obtain ⟨pixel, hg⟩ : ∃ pixel, (chunkPixels image.rgbaBytes)[_]? = some pixel :=
    ⟨_, getElem?_eq_getElem hpos⟩
  simp only [appendBandPixel, chunkPixels_drop, head?_drop, hg]
  cases hblend : blendPixelToSixelPercentage pixel back with
  | none => exact ⟨entryOf, rfl, hln⟩
  | some color =>
    obtain ⟨index, hlt, hfi⟩ := hmaps.mapped color (mem_filterMap.2 ⟨_, mem_of_getElem? hg, hblend⟩)
    refine ⟨entryOf.modify index (· ++ [⟨pos.2, 1 <<< UInt8.ofNat pos.1⟩]), ?_, (length_modify _ _ _).trans hln⟩
    simp only [hfi]
    exact if_pos (hlt.trans_eq hln.symm)

theorem buildSixelBand_ok (hmaps : palette.Maps image.rgbaBytes back)
    (hby : image.rgbaBytes.length = image.pixelWidth * image.pixelHeight * 4) {bandHeight : Nat}
    (hrows : start + bandHeight ≤ image.pixelHeight) :
    ∃ entryOf, buildSixelBand image image.pixelWidth start bandHeight back palette = .ok entryOf := by
  dsimp only [buildSixelBand]
  have hposs : ∀ pos ∈ (range bandHeight).flatMap fun rowOffset =>
      (range image.pixelWidth).map (rowOffset, ·),
      (start + pos.1) * image.pixelWidth + pos.2 < image.rgbaBytes.length / 4 := by
    simp only [mem_flatMap, mem_map, mem_range]
    rintro pos ⟨rowOffset, hro, col, hcol, rfl⟩
    have hb : (start + rowOffset + 1) * image.pixelWidth ≤
        image.pixelHeight * image.pixelWidth := Nat.mul_le_mul_right _ (by omega)
    rw [Nat.succ_mul] at hb
    rw [hby, Nat.mul_div_cancel _ (by decide), Nat.mul_comm image.pixelWidth]
    change (start + rowOffset) * _ + col < _
    omega
  have hinit : (replicate palette.colors.length ([] : List BandEntry)).length = palette.colors.length :=
      length_replicate
  generalize (range bandHeight).flatMap _ = positions at hposs
  generalize replicate palette.colors.length ([] : List BandEntry) = entryOf at hinit
  induction positions generalizing entryOf with
  | nil => exact ⟨_, rfl⟩
  | cons pos positions ih =>
    obtain ⟨appended, happend, hln⟩ := appendBandPixel_ok hmaps (hposs pos mem_cons_self) hinit
    rw [foldlM_cons, happend]
    exact ih (fun other ho => hposs other (mem_cons_of_mem _ ho)) appended hln

/-! ### The palette of an image -/

/-- **Every visible pixel has a palette color**: the median cut ends with boxes that share out the bins at every turn,
and a palette of the image maps every pixel that is not fully transparent, so no band of the image meets a color without
an index. -/
theorem preparedPalette_maps (rgbaBytes : List UInt8) (back : Fin 3 → UInt8) (limit : Nat)
    (hvisible : ∃ pixelBytes ∈ chunkPixels rgbaBytes, pixelBytes 3 ≠ 0) (hlimit : 2 ≤ limit) :
    (∀ samples, samples = listHistogramSamples (fillHistogramBins (listVisibleColors rgbaBytes back)) →
      (∀ boxes, ReflTransGen (fun before after => splitTurn limit before = some after)
          [buildColorBox (finRange samples.length)] boxes →
        CutsBins (listVisibleColors rgbaBytes back) limit boxes) ∧
      ReflTransGen (fun before after => splitTurn limit before = some after) [buildColorBox (finRange samples.length)]
        (cutColorBoxes limit [buildColorBox (finRange samples.length)]) ∧
      splitTurn limit (cutColorBoxes limit [buildColorBox (finRange samples.length)]) = none) ∧
    (∃ palette, prepareQuantizedSixelPalette rgbaBytes back limit = .ok palette ∧
      palette.colors.length ≤ limit ∧ palette.Maps rgbaBytes back) ∧
    (limit ≤ u16Max + 1 → ∃ palette, prepareSixelPalette rgbaBytes back limit = .ok palette) ∧
    ∀ palette, prepareSixelPalette rgbaBytes back limit = .ok palette →
      palette.colors.length ≤ limit ∧ palette.Maps rgbaBytes back ∧
      ∀ image : DecodedImage, image.rgbaBytes = rgbaBytes →
        rgbaBytes.length = image.pixelWidth * image.pixelHeight * 4 →
        ∀ start height, start + height ≤ image.pixelHeight →
          ∃ entryOf, buildSixelBand image image.pixelWidth start height back palette = .ok entryOf := by
  have hpos : 0 < limit := by omega
  refine ⟨?_, prepareQuantized_maps rgbaBytes back hpos, prepareSixelPalette_ok hpos, fun palette hprepare => ?_⟩
  · intro samples hsamples
    have hbins := hsamples ▸ map_histogramBinIndex (listVisibleColors rgbaBytes back)
    have hnonempty : samples ≠ [] := by
      obtain ⟨pixelBytes, hpixel, halpha⟩ := hvisible
      have hcolor : _ ∈ listVisibleColors rgbaBytes back := mem_filterMap.2 ⟨pixelBytes, hpixel, if_neg halpha⟩
      intro hnil
      rw [hnil, map_nil] at hbins
      have hbin := filter_eq_nil_iff.1 hbins.symm _ (mem_range.2 (histogramBinIndex_lt (visibleColor_le hcolor)))
      exact hbin (decide_eq_true ⟨_, hcolor, rfl⟩)
    refine ⟨fun boxes hrun => ?_, cutColorBoxes_run _⟩
    have hparts := (Partitions.start hnonempty hpos).run hrun
    refine ⟨hparts.nonempty, ?_, hparts.length_le⟩
    have hmap : (finRange samples.length).map (samples[·].histogramBinIndex) = samples.map (·.histogramBinIndex) := by
      conv_rhs => rw [← map_get_finRange samples, List.map_map]
      rfl
    rw [← hbins, ← map_flatMap, ← hmap]
    exact hparts.perm.map _
  · obtain ⟨hlength, hmaps⟩ := prepareSixelPalette_maps hpos hprepare
    refine ⟨hlength, hmaps, ?_⟩
    rintro image rfl hbytes start height hrows
    exact buildSixelBand_ok hmaps hbytes hrows

/-- A red, a green and a blue pixel. -/
def threeColorBytes : List UInt8 := [255, 0, 0, 255, 0, 255, 0, 255, 0, 0, 255, 255]

/-- With a limit of two colors the box of the three is cut once. -/
theorem preparedPalette_maps_threeColors :
    listVisibleColors threeColorBytes (fun _ => 0) = [![100, 0, 0], ![0, 100, 0], ![0, 0, 100]] ∧
      ∃ palette, prepareSixelPalette threeColorBytes (fun _ => 0) 2 = .ok palette ∧ palette.colors.length ≤ 2 ∧
        palette.Maps threeColorBytes fun _ => 0 := by
  obtain ⟨-, -, hok, hmaps⟩ := preparedPalette_maps threeColorBytes (fun _ => 0) 2
    ⟨_, mem_cons_self, by decide⟩ (by decide)
  obtain ⟨palette, hpalette⟩ := hok (by decide)
  obtain ⟨hlength, hmapped, -⟩ := hmaps palette hpalette
  exact ⟨by decide +kernel, palette, hpalette, hlength, hmapped⟩

end Koshi.Sixel
