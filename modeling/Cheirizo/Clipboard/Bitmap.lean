import Cheirizo.Clipboard.Descriptors
import Cheirizo.Clipboard.Image
import Cheirizo.Lib.Buffer
import Cheirizo.Lib.Fill

/-!
# Bitmaps there and back

What `create_dib_from_image` and `create_dibv5_from_image` of
`src/rdp/channels/clipboard/core/image.rs` write, the parsers of that file read. And `dib_to_bmp`
puts a file header in front of a bitmap, with an offset of the pixels that is right for a bitmap
header of 40 bytes; the parser accepts longer ones.

## Main definitions

* `storedRow` — where a row of the image is in the data
* `PointsAtPixels` — what the header of a file is to say

## Main results

* `readPixels_eq` — rows that are all there
* `bitmap_roundTrip` — the round trip
* `pointsAtPixels_iff` — when the offset is right
-/

namespace Cheirizo

namespace Clipboard

open FileDescriptor Unicode

/-! ### Rows -/

/-- The row of the data that holds a row of the image. -/
def storedRow (height : ℕ) (topDown : Bool) (y : ℕ) : ℕ := if topDown then y else height - 1 - y

theorem storedRow_lt {height y : ℕ} (h : y < height) (topDown : Bool) :
    storedRow height topDown y < height := by
  rw [storedRow]
  split_ifs <;> omega

/-- If all pixels are there, they are read row by row. -/
theorem readPixels_eq {width height : UInt32} (topDown : Bool) (pixelAt : ℕ → ℕ → Option Pixel)
    {pixel : ℕ → ℕ → Pixel}
    (h : ∀ y < height.toNat, ∀ x < width.toNat,
      pixelAt (storedRow height.toNat topDown y) x = some (pixel y x)) :
    (readPixels width height topDown pixelAt).length = width.toNat * height.toNat ∧
      ∀ y < height.toNat, ∀ x < width.toNat,
        (readPixels width height topDown pixelAt)[y * width.toNat + x]? = some (pixel y x) := by
  have hrows : readPixels width height topDown pixelAt = (List.range height.toNat).flatMap fun y =>
      (List.range width.toNat).map (pixel y) := by
    refine List.flatMap_congr fun y hy => ?_
    rw [← List.filterMap_eq_map]
    exact List.filterMap_congr fun x hx => h y (List.mem_range.mp hy) x (List.mem_range.mp hx)
  have hrow : ∀ y < height.toNat, ((List.range width.toNat).map (pixel y)).length = width.toNat :=
    fun y _ => by rw [List.length_map, List.length_range]
  obtain ⟨hlength, hcells⟩ := flatMap_range_rows hrow (pixel 0 0)
  rw [hrows]
  refine ⟨hlength, fun y hy x hx => ?_⟩
  have hlt : y * width.toNat + x < width.toNat * height.toNat := by
    rw [Nat.mul_comm width.toNat]
    exact Buffer.raster_lt hy hx
  have hcell := hcells _ hlt
  rw [Buffer.raster_div hx, Buffer.raster_mod hx,
    List.getD_eq_getElem _ _ (by rw [hlength]; exact hlt),
    List.getD_eq_getElem _ _ (by rw [List.length_map, List.length_range]; exact hx),
    List.getElem_map, List.getElem_range] at hcell
  rw [List.getElem?_eq_getElem (by rw [hlength]; exact hlt), hcell]

theorem fromRaw_of_length {width height : UInt32} {color : ColorType} {pixels : List Pixel}
    (h : pixels.length = width.toNat * height.toNat) :
    DynamicImage.fromRaw width height color pixels =
      some { width, height, color, pixels, size_eq := h } :=
  dif_pos h

/-! ### Pixels that were written -/

theorem drop_flatMap_bgraBytes (pixels : List Pixel) (k : ℕ) :
    (pixels.flatMap bgraBytes).drop (k * 4) = (pixels.drop k).flatMap bgraBytes := by
  induction k generalizing pixels with
  | zero => rfl
  | succ k ih =>
    cases pixels with
    | nil => rw [List.drop_nil, List.flatMap_nil, List.drop_nil]
    | cons p pixels =>
      rw [Nat.succ_mul, List.flatMap_cons, List.drop_succ_cons, ← ih]
      rfl

theorem length_flatMap_bgraBytes (pixels : List Pixel) :
    (pixels.flatMap bgraBytes).length = pixels.length * 4 := by
  induction pixels with
  | nil => rfl
  | cons p pixels ih =>
    rw [List.flatMap_cons, List.length_append, ih, List.length_cons, Nat.succ_mul, Nat.add_comm]
    rfl

/-- The bytes at the place of a pixel are that pixel's. -/
theorem drop_flatMap_getElem {pixels : List Pixel} {k : ℕ} (hk : k < pixels.length) :
    (pixels.flatMap bgraBytes).drop (k * 4) =
      bgraBytes pixels[k] ++ (pixels.drop (k + 1)).flatMap bgraBytes := by
  rw [drop_flatMap_bgraBytes, List.drop_eq_getElem_cons hk, List.flatMap_cons]

/-- The pixels of an image, if each is read from where it was written. -/
theorem readPixels_image {image : DynamicImage} {pixelAt : ℕ → ℕ → Option Pixel}
    (h : ∀ k (hk : k < image.pixels.length), pixelAt (k / image.width.toNat)
      (k % image.width.toNat) = some image.pixels[k]) :
    readPixels image.width image.height true pixelAt = image.pixels := by
  have hsize := image.size_eq
  have hread : ∀ y < image.height.toNat, ∀ x < image.width.toNat,
      pixelAt (storedRow image.height.toNat true y) x =
        some (image.pixels.getD (y * image.width.toNat + x) ⟨0, 0, 0, 0⟩) := by
    intro y hy x hx
    have hk : y * image.width.toNat + x < image.pixels.length := by
      rw [hsize, Nat.mul_comm image.width.toNat]
      exact Buffer.raster_lt hy hx
    have hpixel := h _ hk
    rw [Buffer.raster_div hx, Buffer.raster_mod hx] at hpixel
    rw [List.getD_eq_getElem _ _ hk]
    exact hpixel
  obtain ⟨hlength, hcells⟩ := readPixels_eq true pixelAt hread
  refine ext_getD hlength hsize ⟨0, 0, 0, 0⟩ fun k hk => ?_
  have hpos : 0 < image.width.toNat :=
    Nat.pos_of_mul_pos_right (Nat.lt_of_le_of_lt (Nat.zero_le k) hk)
  have hcell := hcells (k / image.width.toNat) (Nat.div_lt_of_lt_mul hk) (k % image.width.toNat)
    (Nat.mod_lt k hpos)
  rw [Nat.mul_comm, Nat.div_add_mod] at hcell
  rw [List.getD_eq_getElem?_getD, hcell, Option.getD_some]

/-- The size of an image fits, if its sides are positive numbers of 32 bits with a sign. -/
theorem size_lt {image : DynamicImage} (hwidth : image.width.toNat < 2 ^ 31)
    (hheight : image.height.toNat < 2 ^ 31) :
    image.width.toNat * image.height.toNat * 4 < 2 ^ 64 := by
  have hle : image.width.toNat * image.height.toNat ≤ (2 ^ 31 - 1) * (2 ^ 31 - 1) :=
    Nat.mul_le_mul (by omega) (by omega)
  omega

section Written

variable {image : DynamicImage} (hwidth : image.width.toNat < 2 ^ 31)
  (hheight : image.height.toNat < 2 ^ 31)

include hwidth hheight

theorem convert32bitDib_flatMap :
    convert32bitDib (image.pixels.flatMap bgraBytes) image.width image.height true =
      .ok { image with color := .rgba8 } := by
  have hfits : ¬ (image.pixels.flatMap bgraBytes).length <
      image.width.toNat * image.height.toNat * 4 % 2 ^ 64 := by
    rw [length_flatMap_bgraBytes, image.size_eq, Nat.mod_eq_of_lt (size_lt hwidth hheight)]
    exact Nat.lt_irrefl _
  rw [convert32bitDib, if_neg hfits]
  dsimp only
  rw [readPixels_image, fromRaw_of_length image.size_eq]
  intro k hk
  have hplace : k / image.width.toNat * image.width.toNat * 4 + k % image.width.toNat * 4 =
      k * 4 := by
    rw [← Nat.add_mul, Nat.div_add_mod']
  rw [hplace, drop_flatMap_getElem hk]
  rfl

end Written

/-! ### Channels -/

theorem and_byteMask (n s : ℕ) : (n &&& 255 * 2 ^ s) >>> s = n / 2 ^ s % 256 := by
  have hmask : (255 * 2 ^ s) >>> s = 2 ^ 8 - 1 := by
    rw [Nat.shiftRight_eq_div_pow, Nat.mul_div_cancel _ (Nat.two_pow_pos s)]
    rfl
  rw [Nat.shiftRight_and_distrib, hmask, Nat.and_two_pow_sub_one_eq_mod, Nat.shiftRight_eq_div_pow]

/-- A mask of one byte takes that byte. -/
theorem channel_byteMask {mask : UInt32} {s : ℕ} (hs : s < 32) (hmask : mask.toNat = 255 * 2 ^ s)
    (hshift : trailingZeros mask = s) (pixel : UInt32) :
    channel pixel mask = UInt8.ofNat (pixel.toNat / 2 ^ s) := by
  have hamount : (UInt32.ofNat s).toNat = s := UInt32.toNat_ofNat_of_lt' (by
    show s < 4294967296
    omega)
  rw [← UInt8.toNat_inj, channel, hshift, UInt32.toNat_toUInt8, UInt32.toNat_shiftRight,
    UInt32.toNat_and, hmask, hamount, Nat.mod_eq_of_lt hs, and_byteMask, UInt8.toNat_ofNat']
  exact Nat.mod_mod _ _

/-- The masks of a bitmap whose pixels are blue, green, red and alpha. -/
def bgraMasks : ChannelMasks := ⟨0x00FF0000, 0x0000FF00, 0x000000FF, 0xFF000000⟩

/-- A pixel is read back from its four bytes. -/
theorem channels_bgraBytes (p : Pixel) :
    (let pixel := UInt32.ofNat (leToNat (bgraBytes p))
    (⟨channel pixel bgraMasks.red, channel pixel bgraMasks.green, channel pixel bgraMasks.blue,
      if bgraMasks.alpha ≠ 0 then channel pixel bgraMasks.alpha else 255⟩ : Pixel)) = p := by
  have hblue := p.blue.toNat_lt
  have hgreen := p.green.toNat_lt
  have hred := p.red.toNat_lt
  have halpha := p.alpha.toNat_lt
  have hnumber : leToNat (bgraBytes p) =
      p.blue.toNat + 256 * (p.green.toNat + 256 * (p.red.toNat + 256 * p.alpha.toNat)) := rfl
  have hpixel : (UInt32.ofNat (leToNat (bgraBytes p))).toNat = leToNat (bgraBytes p) :=
    UInt32.toNat_ofNat_of_lt' (by
      show _ < 4294967296
      omega)
  have hbyte : ∀ {n : ℕ} {b : UInt8}, n % 256 = b.toNat → UInt8.ofNat n = b := by
    intro n b hn
    rw [← UInt8.toNat_inj, UInt8.toNat_ofNat', hn]
  have hne : bgraMasks.alpha ≠ 0 := by decide
  dsimp only
  rw [if_pos hne, channel_byteMask (s := 16) (by decide) rfl (by decide),
    channel_byteMask (s := 8) (by decide) rfl (by decide),
    channel_byteMask (s := 0) (by decide) rfl (by decide),
    channel_byteMask (s := 24) (by decide) rfl (by decide), hpixel, hnumber,
    hbyte (b := p.red) (by omega), hbyte (b := p.green) (by omega), hbyte (b := p.blue) (by omega),
    hbyte (b := p.alpha) (by omega)]

theorem convert32bitDibv5_flatMap {image : DynamicImage} (hwidth : image.width.toNat < 2 ^ 31)
    (hheight : image.height.toNat < 2 ^ 31) :
    convert32bitDibv5 (image.pixels.flatMap bgraBytes) image.width image.height true bgraMasks =
      .ok { image with color := .rgba8 } := by
  have hlength := length_flatMap_bgraBytes image.pixels
  have hfits : ¬ (image.pixels.flatMap bgraBytes).length <
      image.width.toNat * image.height.toNat * 4 % 2 ^ 64 := by
    rw [hlength, image.size_eq, Nat.mod_eq_of_lt (size_lt hwidth hheight)]
    exact Nat.lt_irrefl _
  rw [convert32bitDibv5, if_neg hfits]
  dsimp only
  rw [readPixels_image, fromRaw_of_length image.size_eq]
  intro k hk
  have hplace : k / image.width.toNat * image.width.toNat * 4 + k % image.width.toNat * 4 =
      k * 4 := by
    rw [← Nat.add_mul, Nat.div_add_mod']
  have hread : readLe (image.pixels.flatMap bgraBytes) (k * 4) 4 =
      leToNat (bgraBytes image.pixels[k]) := by
    rw [readLe, drop_flatMap_getElem hk]
    rfl
  rw [hplace, if_pos (by omega), hread]
  exact congrArg some (channels_bgraBytes image.pixels[k])

/-! ### The round trip -/

/-- A field of a header, where it was written. -/
theorem unsignedAbs_clamp {n : UInt32} (h : n.toNat < 2 ^ 31) :
    unsignedAbs (leToNat (natToLe 4 (clampDimension n))) = n := by
  have hclamp : clampDimension n = n.toNat := Nat.min_eq_left (by omega)
  have hmod : n.toNat % 256 ^ 4 = n.toNat := Nat.mod_eq_of_lt (by omega)
  rw [leToNat_natToLe, hclamp, hmod, unsignedAbs, if_pos h, UInt32.ofNat_toNat]

theorem unsignedAbs_negate {n : UInt32} (hpos : 0 < n.toNat) (h : n.toNat < 2 ^ 31) :
    unsignedAbs (leToNat (natToLe 4 (negateDimension n))) = n ∧
      2 ^ 31 ≤ leToNat (natToLe 4 (negateDimension n)) := by
  have hclamp : clampDimension n = n.toNat := Nat.min_eq_left (by omega)
  have hnegate : negateDimension n = 2 ^ 32 - n.toNat := by
    rw [negateDimension, hclamp, Nat.mod_eq_of_lt (by omega)]
  have hmod : (2 ^ 32 - n.toNat) % 256 ^ 4 = 2 ^ 32 - n.toNat := Nat.mod_eq_of_lt (by omega)
  have hback : 2 ^ 32 - (2 ^ 32 - n.toNat) = n.toNat := by omega
  rw [leToNat_natToLe, hnegate, hmod, unsignedAbs, if_neg (by omega), hback, UInt32.ofNat_toNat]
  exact ⟨rfl, by omega⟩

theorem parseDibToImage_createDib {image : DynamicImage}
    (hwidth : 0 < image.width.toNat ∧ image.width.toNat < 2 ^ 31)
    (hheight : 0 < image.height.toNat ∧ image.height.toNat < 2 ^ 31) :
    parseDibToImage (createDibFromImage image) = .ok { image with color := .rgba8 } := by
  have hsize : readLe (createDibFromImage image) 0 4 = 40 := rfl
  have hcolumns : readLe (createDibFromImage image) 4 4 =
      leToNat (natToLe 4 (clampDimension image.width)) := rfl
  have hrows : readLe (createDibFromImage image) 8 4 =
      leToNat (natToLe 4 (negateDimension image.height)) := rfl
  have hbits : readLe (createDibFromImage image) 14 2 = 32 := rfl
  have hdrop : (createDibFromImage image).drop 40 = image.pixels.flatMap bgraBytes :=
    List.drop_left' rfl
  have hlength : 40 < (createDibFromImage image).length := by
    have hpixels := Nat.mul_pos hwidth.1 hheight.1
    have hdropped := congrArg List.length hdrop
    rw [List.length_drop, length_flatMap_bgraBytes, image.size_eq] at hdropped
    omega
  obtain ⟨habs, htopDown⟩ := unsignedAbs_negate hheight.1 hheight.2
  rw [parseDibToImage, if_neg (by omega), hsize, if_neg (by omega), if_neg (by omega), hcolumns,
    hrows, hbits, hdrop, unsignedAbs_clamp hwidth.2, habs, decide_eq_true htopDown]
  exact convert32bitDib_flatMap hwidth.2 hheight.2

/-- The fields of the long header. -/
theorem createDibv5_fields (image : DynamicImage) :
    readLe (createDibv5FromImage image) 0 4 = leToNat (natToLe 4 124) ∧
      readLe (createDibv5FromImage image) 4 4 =
        leToNat (natToLe 4 (clampDimension image.width)) ∧
      readLe (createDibv5FromImage image) 8 4 =
        leToNat (natToLe 4 (negateDimension image.height)) ∧
      readLe (createDibv5FromImage image) 14 2 = leToNat (natToLe 2 32) ∧
      readLe (createDibv5FromImage image) 16 4 = leToNat (natToLe 4 3) := by
  simp only [createDibv5FromImage, List.append_assoc]
  exact ⟨rfl, rfl, rfl, rfl, rfl⟩

/-- The pixels are behind it. -/
theorem drop_createDibv5 (image : DynamicImage) :
    (createDibv5FromImage image).drop 124 = image.pixels.flatMap bgraBytes := by
  simp only [createDibv5FromImage, List.append_assoc]
  rfl

theorem createDibv5_masks (image : DynamicImage) :
    (⟨UInt32.ofNat (readLe (createDibv5FromImage image) 40 4),
      UInt32.ofNat (readLe (createDibv5FromImage image) 44 4),
      UInt32.ofNat (readLe (createDibv5FromImage image) 48 4),
      UInt32.ofNat (readLe (createDibv5FromImage image) 52 4)⟩ : ChannelMasks) = bgraMasks := by
  have hfields : readLe (createDibv5FromImage image) 40 4 = leToNat (natToLe 4 0x00FF0000) ∧
      readLe (createDibv5FromImage image) 44 4 = leToNat (natToLe 4 0x0000FF00) ∧
      readLe (createDibv5FromImage image) 48 4 = leToNat (natToLe 4 0x000000FF) ∧
      readLe (createDibv5FromImage image) 52 4 = leToNat (natToLe 4 0xFF000000) := by
    simp only [createDibv5FromImage, List.append_assoc]
    exact ⟨rfl, rfl, rfl, rfl⟩
  obtain ⟨hred, hgreen, hblue, halpha⟩ := hfields
  rw [hred, hgreen, hblue, halpha, leToNat_natToLe, leToNat_natToLe, leToNat_natToLe,
    leToNat_natToLe]
  rfl

theorem parseDibv5ToImage_createDibv5 {image : DynamicImage}
    (hwidth : image.width.toNat < 2 ^ 31)
    (hheight : 0 < image.height.toNat ∧ image.height.toNat < 2 ^ 31) :
    parseDibv5ToImage (createDibv5FromImage image) = .ok { image with color := .rgba8 } := by
  obtain ⟨hsize, hcolumns, hrows, hbits, hcompression⟩ := createDibv5_fields image
  have hlength : 124 ≤ (createDibv5FromImage image).length := by
    simp only [createDibv5FromImage, List.length_append, length_natToLe, List.length_replicate]
    omega
  obtain ⟨habs, htopDown⟩ := unsignedAbs_negate hheight.1 hheight.2
  rw [parseDibv5ToImage, if_neg (by omega), hsize, if_neg (by decide), if_pos (by decide),
    parseFullDibv5, if_neg (by omega)]
  dsimp only
  rw [hcolumns, hrows, hbits, hcompression, drop_createDibv5, if_pos (by decide),
    if_pos (by decide), createDibv5_masks, unsignedAbs_clamp hwidth, habs,
    decide_eq_true htopDown]
  exact convert32bitDibv5_flatMap hwidth hheight.2

/-- **The round trip.** An image whose sides are positive signed numbers of 32 bits comes back from
either kind of bitmap with all of its pixels, and with alpha. -/
theorem bitmap_roundTrip {image : DynamicImage}
    (hwidth : 1 ≤ image.width.toNat ∧ image.width.toNat ≤ 2 ^ 31 - 1)
    (hheight : 1 ≤ image.height.toNat ∧ image.height.toNat ≤ 2 ^ 31 - 1) :
    parseDibToImage (createDibFromImage image) = .ok { image with color := .rgba8 } ∧
      parseDibv5ToImage (createDibv5FromImage image) = .ok { image with color := .rgba8 } :=
  ⟨parseDibToImage_createDib ⟨hwidth.1, by omega⟩ ⟨hheight.1, by omega⟩,
    parseDibv5ToImage_createDibv5 (by omega) ⟨hheight.1, by omega⟩⟩

/-- Two pixels, one of them transparent. -/
def twoPixels : DynamicImage where
  width := 2
  height := 1
  color := .rgba8
  pixels := [⟨1, 2, 3, 255⟩, ⟨4, 5, 6, 0⟩]
  size_eq := rfl

theorem twoPixels_roundTrip :
    parseDibToImage (createDibFromImage twoPixels) = .ok twoPixels ∧
      parseDibv5ToImage (createDibv5FromImage twoPixels) = .ok twoPixels :=
  bitmap_roundTrip (by decide) (by decide)

/-! ### Files -/

/-- The header of the file that `dib_to_bmp` builds says where the pixels are that the parser reads,
and how long the file is; what follows it is the bitmap. -/
def PointsAtPixels (data : List UInt8) : Prop :=
  ∀ file, dibToBmp data = .ok file →
    readLe file 10 4 = 14 + readLe data 0 4 ∧ readLe file 2 4 = file.length ∧ file.drop 14 = data

theorem dibToBmp_eq_ok {data file : List UInt8} (h : dibToBmp data = .ok file) :
    14 + data.length < 2 ^ 32 ∧ readLe file 10 4 = 54 ∧ readLe file 2 4 = file.length ∧
      file.drop 14 = data := by
  rw [dibToBmp] at h
  split_ifs at h with hsmall hlarge
  obtain rfl := Except.ok.inj h
  refine ⟨Nat.not_le.mp hlarge, rfl, ?_, rfl⟩
  have hsize : leToNat (natToLe 4 (14 + data.length)) = 14 + data.length := by
    rw [leToNat_natToLe, Nat.mod_eq_of_lt (by omega)]
  refine (show _ = leToNat (natToLe 4 (14 + data.length)) from rfl).trans (hsize.trans ?_)
  rw [List.length_append]
  rfl

theorem exists_dibToBmp {data : List UInt8} (hsmall : 40 ≤ data.length)
    (hlarge : 14 + data.length < 2 ^ 32) : ∃ file, dibToBmp data = .ok file :=
  ⟨_, by rw [dibToBmp, if_neg (Nat.not_lt.mpr hsmall), if_neg (Nat.not_le.mpr hlarge)]⟩

/-- **When the offset is right**: of the bitmaps that the parser accepts, for those with a header of
40 bytes, and for those that are too large for a file. -/
theorem pointsAtPixels_iff {data : List UInt8} {image : DynamicImage}
    (h : parseDibToImage data = .ok image) :
    PointsAtPixels data ↔ readLe data 0 4 = 40 ∨ 2 ^ 32 ≤ 14 + data.length := by
  constructor
  · intro hpoints
    by_contra hnot
    obtain ⟨hsize, hlength⟩ : readLe data 0 4 ≠ 40 ∧ 14 + data.length < 2 ^ 32 := by
      simpa only [not_or, Nat.not_le] using hnot
    have hsmall : ¬ data.length < 40 := by
      intro hsmall
      rw [parseDibToImage, if_pos hsmall] at h
      cases h
    obtain ⟨file, hfile⟩ := exists_dibToBmp (Nat.not_lt.mp hsmall) hlength
    have hoffset := (dibToBmp_eq_ok hfile).2.1
    have hpixels := (hpoints file hfile).1
    omega
  · rintro (hsize | hlarge) file hfile
    · obtain ⟨-, hoffset, hlength, hdata⟩ := dibToBmp_eq_ok hfile
      exact ⟨by rw [hoffset, hsize], hlength, hdata⟩
    · exact absurd (dibToBmp_eq_ok hfile).1 (Nat.not_lt.mpr hlarge)

theorem pointsAtPixels_dib : PointsAtPixels (createDibFromImage twoPixels) :=
  have hparse : parseDibToImage (createDibFromImage twoPixels) = .ok twoPixels :=
    parseDibToImage_createDib (by decide) (by decide)
  (pointsAtPixels_iff hparse).mpr (Or.inl rfl)

/-- A bitmap with a long header, as it is written by this very file. -/
theorem offset_inside_header :
    ¬ (∀ data image, parseDibToImage data = .ok image → PointsAtPixels data) ∧
      parseDibToImage (createDibv5FromImage twoPixels) = .ok twoPixels ∧
      14 + readLe (createDibv5FromImage twoPixels) 0 4 = 138 ∧
      ∃ file, dibToBmp (createDibv5FromImage twoPixels) = .ok file ∧ readLe file 10 4 = 54 := by
  have hparse : parseDibToImage (createDibv5FromImage twoPixels) = .ok twoPixels := by
    decide +kernel
  have hsize : 14 + readLe (createDibv5FromImage twoPixels) 0 4 = 138 := by decide +kernel
  obtain ⟨file, hfile⟩ : ∃ file, dibToBmp (createDibv5FromImage twoPixels) = .ok file :=
    exists_dibToBmp (by decide +kernel) (by decide +kernel)
  have hoffset := (dibToBmp_eq_ok hfile).2.1
  refine ⟨fun hall => ?_, hparse, hsize, file, hfile, hoffset⟩
  have hpoints := (hall _ _ hparse file hfile).1
  omega

end Clipboard

end Cheirizo
