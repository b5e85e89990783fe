import Mathlib.Tactic
import Koshi.Terminal.RowEncoding

/-!
# The style table of an encoded row

The key of a style names it, an index the table hands out keeps naming its style while the table grows, and a
style entry reads back as the style it was written for.
-/

namespace Koshi.Terminal

open Base Koshi.Core List ByteReader

variable (color : Color) (style : Style)

/-! ### Style keys -/

theorem computeColorKey_eq : computeColorKey color = match color with
    | .default => 0
    | .indexed paletteIndex => 2 ^ 24 + paletteIndex.toNat
    | .rgb red green blue => 2 ^ 25 + red.toNat * 2 ^ 16 + green.toNat * 2 ^ 8 + blue.toNat := by
  cases color with
  | default => rfl
  | indexed paletteIndex =>
    have hlt : paletteIndex.toNat < 2 ^ 24 := by have := paletteIndex.toNat_lt; omega
    simp only [computeColorKey]
    rw [show (0x01000000 : Nat) = 2 ^ 24 * 1 from rfl, ← Nat.two_pow_add_eq_or_of_lt hlt, Nat.mul_one]
  | rgb red green blue =>
    have hred := red.toNat_lt
    have hgreen := green.toNat_lt
    have hblue := blue.toNat_lt
    simp only [computeColorKey, Nat.shiftLeft_eq]
    rw [show (0x02000000 : Nat) = 2 ^ 24 * 2 from rfl,
      ← Nat.two_pow_add_eq_or_of_lt (show red.toNat * 2 ^ 16 < 2 ^ 24 by omega),
      show 2 ^ 24 * 2 + red.toNat * 2 ^ 16 = 2 ^ 16 * (2 ^ 9 + red.toNat) by omega,
      ← Nat.two_pow_add_eq_or_of_lt (show green.toNat * 2 ^ 8 < 2 ^ 16 by omega),
      show 2 ^ 16 * (2 ^ 9 + red.toNat) + green.toNat * 2 ^ 8 =
        2 ^ 8 * (2 ^ 17 + red.toNat * 2 ^ 8 + green.toNat) by omega,
      ← Nat.two_pow_add_eq_or_of_lt (show blue.toNat < 2 ^ 8 by omega)]
    omega

theorem computeColorKey_lt : computeColorKey color < 2 ^ 26 := by
  rw [computeColorKey_eq]
  cases color with
  | default => norm_num
  | indexed paletteIndex =>
    have := paletteIndex.toNat_lt
    simp only
    omega
  | rgb red green blue =>
    have hred := red.toNat_lt
    have hgreen := green.toNat_lt
    have hblue := blue.toNat_lt
    simp only
    omega

theorem colorKey_injective : Function.Injective computeColorKey := by
  intro fst snd hkeys
  rw [computeColorKey_eq, computeColorKey_eq] at hkeys
  cases fst <;> cases snd
  case default.default => rfl
  case indexed.indexed p q =>
    rw [UInt8.toNat_inj.1 (Nat.add_left_cancel hkeys)]
  case rgb.rgb r g b r' g' b' =>
    have := g.toNat_lt
    have := b.toNat_lt
    have := g'.toNat_lt
    have := b'.toNat_lt
    simp only at hkeys
    rw [UInt8.toNat_inj.1 (show r.toNat = r'.toNat by omega), UInt8.toNat_inj.1 (show g.toNat = g'.toNat by omega),
      UInt8.toNat_inj.1 (show b.toNat = b'.toNat by omega)]
  case indexed.rgb p r g b =>
    have := p.toNat_lt
    simp only at hkeys
    omega
  case rgb.indexed r g b p =>
    have := p.toNat_lt
    simp only at hkeys
    omega
  all_goals
    simp only at hkeys
    omega

theorem underlineKey_injective : Function.Injective computeUnderlineColorKey := by
  rintro (_ | first) (_ | second) hkeys
  · rfl
  · simp only [computeUnderlineColorKey] at hkeys
    omega
  · simp only [computeUnderlineColorKey] at hkeys
    omega
  · rw [colorKey_injective (Nat.add_left_cancel hkeys)]

theorem computeStyleKey_eq :
    computeStyleKey style = computeColorKey style.foregroundColor + computeColorKey style.backgroundColor * 2 ^ 32 +
      style.attributes.attributeWord * 2 ^ 64 + computeUnderlineColorKey style.underlineColor * 2 ^ 80 := by
  have hfore := computeColorKey_lt style.foregroundColor
  have hback := computeColorKey_lt style.backgroundColor
  have hword := style.attributes.attributeWord_lt
  simp only [computeStyleKey, Nat.shiftLeft_eq]
  rw [Nat.or_comm (computeColorKey _), Nat.mul_comm _ (2 ^ 32),
    ← Nat.two_pow_add_eq_or_of_lt (show computeColorKey style.foregroundColor < 2 ^ 32 by omega),
    Nat.or_comm _ (_ * 2 ^ 64), Nat.mul_comm _ (2 ^ 64),
    ← Nat.two_pow_add_eq_or_of_lt (show _ < 2 ^ 64 by omega),
    Nat.or_comm _ (_ * 2 ^ 80), Nat.mul_comm _ (2 ^ 80),
    ← Nat.two_pow_add_eq_or_of_lt (show _ < 2 ^ 80 by omega)]
  omega

theorem styleKey_injective : Function.Injective computeStyleKey := by
  intro fst snd hkeys
  rw [computeStyleKey_eq, computeStyleKey_eq] at hkeys
  have := computeColorKey_lt fst.foregroundColor
  have := computeColorKey_lt fst.backgroundColor
  have := fst.attributes.attributeWord_lt
  have := computeColorKey_lt snd.foregroundColor
  have := computeColorKey_lt snd.backgroundColor
  have := snd.attributes.attributeWord_lt
  have hfore : fst.foregroundColor = snd.foregroundColor := colorKey_injective (by omega)
  have hback : fst.backgroundColor = snd.backgroundColor := colorKey_injective (by omega)
  have hword : fst.attributes.attributeWord = snd.attributes.attributeWord := by omega
  have hunderline : fst.underlineColor = snd.underlineColor :=
    underlineKey_injective (by omega)
  obtain ⟨firstForeground, firstBackground, ⟨firstWord, firstDefined⟩, firstUnderline⟩ := fst
  obtain ⟨secondForeground, secondBackground, ⟨secondWord, secondDefined⟩, secondUnderline⟩ := snd
  simp only at hfore hback hword hunderline
  subst hfore hback hword hunderline
  rfl

/-! ### Indexes into the table -/

structure RowStyleTable.Valid (table : RowStyleTable) : Prop where
  keys : table.styleKeys = table.styles.map computeStyleKey
  indexes : ∀ styleKey styleIndex : Nat, table.styleIndexByKey[styleKey]? = some styleIndex →
    table.styleKeys[styleIndex]? = some styleKey

theorem RowStyleTable.valid_empty : RowStyleTable.empty.Valid where
  keys := rfl
  indexes := by simp [RowStyleTable.empty]

theorem foldl_insert_zipIdx_indexes (styleKeys : List Nat) (newKeys : List Nat) (start : Nat)
    (styleIndexByKey : Std.HashMap Nat Nat)
    (hnew : ∀ i key : Nat, newKeys[i]? = some key → styleKeys[start + i]? = some key)
    (hmap : ∀ key i : Nat, styleIndexByKey[key]? = some i → styleKeys[i]? = some key) (key i : Nat)
    (hfo : ((newKeys.zipIdx start).foldl (fun indexes (existingStyleKey, existingStyleIndex) =>
      indexes.insert existingStyleKey existingStyleIndex) styleIndexByKey)[key]? = some i) :
    styleKeys[i]? = some key := by
  induction newKeys generalizing start styleIndexByKey with
  | nil => exact hmap key i hfo
  | cons newKey newKeys ih =>
    rw [zipIdx_cons, foldl_cons] at hfo
    refine ih (start + 1) _ ?_ ?_ hfo
    · intro j other ho
      have := hnew (j + 1) other (by simpa using ho)
      rwa [show start + 1 + j = start + (j + 1) by omega]
    · intro other j ho
      rw [Std.HashMap.getElem?_insert] at ho
      split at ho
      · next heq =>
        have hkey : newKey = other := by simpa using heq
        have hidx : start = j := by simpa using ho
        subst hkey hidx
        exact hnew 0 newKey rfl
      · exact hmap other j ho

theorem RowStyleTable.Valid.findOrAddStyle {table : RowStyleTable} (hv : table.Valid) (style : Style) :
    (table.findOrAddStyle style).2.Valid ∧
      (table.findOrAddStyle style).2.styles[(table.findOrAddStyle style).1]? = some style ∧
      table.styles <+: (table.findOrAddStyle style).2.styles ∧
      (table.findOrAddStyle style).2.styles.length ≤ table.styles.length + 1 := by
  -- a found index holds the key of `style`, and the key names the style
  have hfoundKey : ∀ si : Nat, table.styleKeys[si]? = some (computeStyleKey style) →
      table.styles[si]? = some style := by
    intro si hkey
    rw [hv.keys, List.getElem?_map, Option.map_eq_some_iff] at hkey
    obtain ⟨found, hfo, heq⟩ := hkey
    rwa [← styleKey_injective heq]
  unfold RowStyleTable.findOrAddStyle
  simp only
  split
  · next si hfo =>
    refine ⟨hv, hfoundKey si ?_, prefix_refl _, Nat.le_succ _⟩
    split at hfo
    · obtain ⟨hlt, heq, -⟩ := List.findIdx?_eq_some_iff_getElem.1 hfo
      rw [List.getElem?_eq_getElem hlt]
      simpa using heq
    · exact hv.indexes _ _ hfo
  · refine ⟨⟨?_, ?_⟩, by simp, prefix_append _ _, by simp⟩
    · simp [hv.keys]
    · have hlen : table.styleKeys.length = table.styles.length := by simp [hv.keys]
      have hold : ∀ key i : Nat, table.styleIndexByKey[key]? = some i →
          (table.styleKeys ++ [computeStyleKey style])[i]? = some key := by
        intro key i hkey
        have hi := hv.indexes key i hkey
        have hlt : i < table.styleKeys.length := by
          by_contra hge
          rw [List.getElem?_eq_none (by omega)] at hi
          simp at hi
        rw [List.getElem?_append_left hlt, hi]
      intro key i hkey
      simp only at hkey ⊢
      split at hkey
      · refine foldl_insert_zipIdx_indexes _ _ 0 _ ?_ hold key i hkey
        intro j other ho
        rwa [Nat.zero_add]
      · split at hkey
        · rw [Std.HashMap.getElem?_insert] at hkey
          split at hkey
          · next heq =>
            have hs : computeStyleKey style = key := by simpa using heq
            have hidx : table.styles.length = i := by simpa using hkey
            rw [← hidx, ← hs, ← hlen]
            simp
          · exact hold key i hkey
        · exact hold key i hkey

/-! ### Readers undo writers -/

theorem ByteReader.readVarint_writeVarint {value : Nat} (hvalue : value < 2 ^ 64) (tail : List UInt8) :
    readVarint (writeVarint value ++ tail) = .ok (value, tail) := by
  simp only [readVarint, readVarint_writeVarint_append hvalue]

theorem ByteReader.readBoundedVarint_writeVarint (fieldName : String) {value maxValue : Nat} (hvalue : value < 2 ^ 64)
    (hmax : value ≤ maxValue) (tail : List UInt8) :
    readBoundedVarint fieldName maxValue (writeVarint value ++ tail) = .ok (value, tail) := by
  rw [readBoundedVarint, readVarint_writeVarint hvalue]
  simp [bind, Except.bind, Nat.not_lt.2 hmax]

theorem ByteReader.readBytes_append (readBytes tail : List UInt8) :
    ByteReader.readBytes readBytes.length (readBytes ++ tail) = .ok (readBytes, tail) := by
  simp [ByteReader.readBytes]

variable (tail : List UInt8)

theorem ByteReader.readColor_writeColor : readColor (writeColor color ++ tail) = .ok (color, tail) := by
  cases color with
  | default =>
    rw [readColor, writeColor, readVarint_writeVarint (by norm_num)]
    rfl
  | indexed paletteIndex =>
    rw [readColor, writeColor, append_assoc, readVarint_writeVarint (by norm_num)]
    simp [bind, Except.bind, readBytes]
  | rgb red green blue =>
    rw [readColor, writeColor, append_assoc, readVarint_writeVarint (by norm_num)]
    simp [bind, Except.bind, readBytes]

variable (underlineColor : Option Color)

theorem ByteReader.readUnderline_writeUnderline :
    readUnderlineColor (writeUnderlineColor underlineColor ++ tail) = .ok (underlineColor, tail) := by
  cases underlineColor with
  | none =>
    rw [readUnderlineColor, writeUnderlineColor, readVarint_writeVarint (by norm_num)]
    rfl
  | some underlineColor =>
    rw [readUnderlineColor, writeUnderlineColor, append_assoc, readVarint_writeVarint (by norm_num)]
    simp [bind, Except.bind, readColor_writeColor]

theorem ByteReader.readRowEnd_writeVarint (rowEnd : RowEnd) (tail : List UInt8) :
    readRowEnd (writeVarint (computeRowEndCode rowEnd) ++ tail) = .ok (rowEnd, tail) := by
  have hcode : computeRowEndCode rowEnd < 2 ^ 64 := by cases rowEnd <;> norm_num [computeRowEndCode]
  rw [readRowEnd, readVarint_writeVarint hcode]
  cases rowEnd <;> rfl

def writeStyleFields (style : Style) : List UInt8 :=
  writeColor style.foregroundColor ++ writeColor style.backgroundColor ++
    writeVarint style.attributes.attributeWord ++ writeUnderlineColor style.underlineColor

theorem writeColor_length_le : (writeColor color).length ≤ 13 := by
  cases color <;> simp only [writeColor, length_append, length_cons, length_nil]
  · have := writeVarint_length_le 0
    omega
  · have := writeVarint_length_le 1
    omega
  · have := writeVarint_length_le 2
    omega

theorem writeUnderline_length_le : (writeUnderlineColor underlineColor).length ≤ 23 := by
  cases underlineColor with
  | none =>
    have := writeVarint_length_le 0
    simp only [writeUnderlineColor]
    omega
  | some underlineColor =>
    have := writeVarint_length_le 1
    have := writeColor_length_le underlineColor
    simp only [writeUnderlineColor, length_append]
    omega

theorem writeStyleFields_length_le : (writeStyleFields style).length ≤ 59 := by
  have := writeColor_length_le style.foregroundColor
  have := writeColor_length_le style.backgroundColor
  have := writeVarint_length_le style.attributes.attributeWord
  have := writeUnderline_length_le style.underlineColor
  simp only [writeStyleFields, length_append]
  omega

theorem writeStyleEntry_eq :
    writeStyleEntry style = writeVarint (writeStyleFields style).length ++ writeStyleFields style := by
  have := writeStyleFields_length_le style
  rw [writeVarint_eq_singleton (by omega)]
  rfl

theorem readStyleFields_writeStyleFields : readStyleFields (writeStyleFields style) = .ok style := by
  have hword : style.attributes.attributeWord < 2 ^ 64 := by have := style.attributes.attributeWord_lt; omega
  have hwrap : asU16 style.attributes.attributeWord = style.attributes.attributeWord := by
    have := style.attributes.attributeWord_lt
    unfold asU16 u16Max
    omega
  have hunderline := readUnderline_writeUnderline [] style.underlineColor
  rw [append_nil] at hunderline
  simp only [readStyleFields, writeStyleFields, append_assoc, readColor_writeColor,
    readVarint_writeVarint hword, hunderline, bind, Except.bind, hwrap,
    AttributeFlags.fromAttributeWord_attributeWord]

theorem readStyleEntry_writeStyleEntry : readStyleEntry (writeStyleEntry style ++ tail) = .ok (style, tail) := by
  have := writeStyleFields_length_le style
  rw [writeStyleEntry_eq, append_assoc, readStyleEntry, readVarint_writeVarint (by omega)]
  simp only [bind, Except.bind, ByteReader.readBytes_append, readStyleFields_writeStyleFields]

theorem readStyleEntries_flatMap (styles : List Style) (tail : List UInt8) :
    readStyleEntries styles.length (styles.flatMap writeStyleEntry ++ tail) = .ok (styles, tail) := by
  induction styles with
  | nil => rfl
  | cons style styles ih =>
    rw [length_cons, flatMap_cons, append_assoc, readStyleEntries, readStyleEntry_writeStyleEntry]
    simp only [bind, Except.bind, ih]

theorem flatMap_writeStyleEntry_length (styles : List Style) :
    styles.length ≤ (styles.flatMap writeStyleEntry).length ∧
      (styles.flatMap writeStyleEntry).length ≤ 60 * styles.length := by
  induction styles with
  | nil => simp
  | cons style styles ih =>
    have hfields := writeStyleFields_length_le style
    have he : (writeStyleEntry style).length = (writeStyleFields style).length + 1 := by
      simp [writeStyleEntry, writeStyleFields]
    rw [flatMap_cons, length_append, length_cons, he]
    omega

end Koshi.Terminal
