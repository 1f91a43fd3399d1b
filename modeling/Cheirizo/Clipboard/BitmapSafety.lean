import Cheirizo.Clipboard.Bitmap

/-!
# Bitmaps from untrusted data

The bitmap parsers of `src/rdp/channels/clipboard/core/image.rs`, with every operation checked: a
product or a sum that does not fit its type, a shift by 32 or more, an access out of bounds. A check
fails for three kinds of headers, and for no others: the largest two dimensions at 32 bits a pixel,
a row of 24-bit pixels of almost `2 ^ 32` bytes or more, and a colour mask that is zero. Where no
check fails, the parsers of the other modules do the same, and an image that they return has the
declared size and its pixels from the declared area.

## Conventions

A checked operation has no value where the source panics or leaves the range of its type, and a
parser has none if one of its operations has none. This is apart from the errors that a parser
returns: an image, an error and a check that fails are three outcomes.

## Main definitions

* `parseDibToImage?`, `parseDibv5ToImage?` — the parsers with checks
* `TakenFrom`, `Shows` — where the pixels of an image come from
* `DibFault`, `Dibv5Fault` — the headers for which a check fails

## Main results

* `parseDibToImage?_eq`, `parseDibv5ToImage?_eq` — when no check fails
* `bitmap_safe_iff` — the bitmaps that are parsed safely
-/

namespace Cheirizo

namespace Clipboard

open FileDescriptor Unicode

/-! ### Checked operations -/

/-- A number of 64 bits, or an overflow. -/
def usize? (n : ℕ) : Option ℕ := if n < 2 ^ 64 then some n else none

/-- A number of 32 bits, or an overflow. -/
def u32? (n : ℕ) : Option ℕ := if n < 2 ^ 32 then some n else none

/-- A difference that is not negative. -/
def sub? (a b : ℕ) : Option ℕ := if b ≤ a then some (a - b) else none

/-- A colour channel, if the shift is by less than 32. -/
def channel? (pixel mask : UInt32) : Option UInt8 :=
  if trailingZeros mask < 32 then some (channel pixel mask) else none

/-- The rows of an image, each from an offset of its own. -/
def readPixels? (width height : UInt32) (topDown : Bool) (rowOffset? : ℕ → Option ℕ)
    (pixelAt? : ℕ → ℕ → Option (Option Pixel)) : Option (List Pixel) := do
  let rows ← (List.range height.toNat).mapM fun y => do
    let row ← if topDown then some y else sub? (← sub? height.toNat 1) y
    let offset ← rowOffset? row
    let pixels ← (List.range width.toNat).mapM fun x => pixelAt? offset x
    return pixels.filterMap id
  return rows.flatten

/-- The offset of a row of pixels of four bytes. -/
def rowOffset32? (width : UInt32) (row : ℕ) : Option ℕ := do
  usize? ((← usize? (row * width.toNat)) * 4)

/-- A pixel of four bytes, or nothing where the row ends too early. -/
def pixel32? (data : List UInt8) (rowOffset x : ℕ) : Option (Option Pixel) := do
  let offset ← usize? (rowOffset + (← usize? (x * 4)))
  if (← usize? (offset + 3)) < data.length then
    return some ⟨← data[offset + 2]?, ← data[offset + 1]?, ← data[offset]?, ← data[offset + 3]?⟩
  else return none

/-- A pixel of three bytes, or nothing where the row ends too early. -/
def pixel24? (data : List UInt8) (rowOffset x : ℕ) : Option (Option Pixel) := do
  let offset ← usize? (rowOffset + (← usize? (x * 3)))
  if (← usize? (offset + 2)) < data.length then
    return some ⟨← data[offset + 2]?, ← data[offset + 1]?, ← data[offset]?, 255⟩
  else return none

/-- A pixel whose channels are cut out by masks. -/
def maskedPixel? (data : List UInt8) (masks : ChannelMasks) (rowOffset x : ℕ) :
    Option (Option Pixel) := do
  let offset ← usize? (rowOffset + (← usize? (x * 4)))
  if (← usize? (offset + 3)) < data.length then
    let pixel := UInt32.ofNat (← readLe? data offset 4)
    let red ← channel? pixel masks.red
    let green ← channel? pixel masks.green
    let blue ← channel? pixel masks.blue
    let alpha ← if masks.alpha ≠ 0 then channel? pixel masks.alpha else some 255
    return some ⟨red, green, blue, alpha⟩
  else return none

/-! ### Checked parsers -/

/-- An image of the pixels that were read. -/
def imageOf (what : String) (width height : UInt32) (color : ColorType) (pixels : List Pixel) :
    Except CoreError DynamicImage :=
  match DynamicImage.fromRaw width height color pixels with
  | some image => .ok image
  | none => .error (.imageDecode ("Failed to create image from " ++ what))

/-- The conversion with every index and product checked. -/
def convert32bitDib? (pixelData : List UInt8) (width height : UInt32) (topDown : Bool) :
    Option (Except CoreError DynamicImage) := do
  let expected ← usize? ((← usize? (width.toNat * height.toNat)) * 4)
  if pixelData.length < expected then
    return .error (insufficientPixels "Insufficient pixel data: " pixelData.length expected)
  else
    let pixels ← readPixels? width height topDown (rowOffset32? width) (pixel32? pixelData)
    return imageOf "DIB" width height .rgba8 pixels

/-- The products are checked in 32 bits, as they are made. -/
def convert24bitDib? (pixelData : List UInt8) (width height : UInt32) (topDown : Bool) :
    Option (Except CoreError DynamicImage) := do
  let rowSize ← u32? (((← u32? (width.toNat * 3)) + 3) / 4 * 4)
  let expected ← usize? (rowSize * height.toNat)
  if pixelData.length < expected then
    return .error (insufficientPixels "Insufficient pixel data: " pixelData.length expected)
  else
    let _capacity ← usize? ((← usize? (width.toNat * height.toNat)) * 3)
    let pixels ← readPixels? width height topDown (fun row => usize? (row * rowSize))
      (pixel24? pixelData)
    return imageOf "DIB" width height .rgb8 pixels

/-- The same with masks. -/
def convert32bitDibv5? (pixelData : List UInt8) (width height : UInt32) (topDown : Bool)
    (masks : ChannelMasks) : Option (Except CoreError DynamicImage) := do
  let expected ← usize? ((← usize? (width.toNat * height.toNat)) * 4)
  if pixelData.length < expected then
    return .error (insufficientPixels "Insufficient DIBV5 pixel data: " pixelData.length expected)
  else
    let pixels ← readPixels? width height topDown (rowOffset32? width)
      (maskedPixel? pixelData masks)
    return imageOf "DIBV5" width height .rgba8 pixels

/-- `data[offset..]`, which is in bounds or panics. -/
def tail? (data : List UInt8) (offset : ℕ) : Option (List UInt8) :=
  if offset ≤ data.length then some (data.drop offset) else none

/-- The parser with every read and conversion checked. -/
def parseDibToImage? (data : List UInt8) : Option (Except CoreError DynamicImage) :=
  if data.length < 40 then some (.error (.imageDecode "DIB too small"))
  else do
    let biSize ← readLe? data 0 4
    if biSize < 40 then return .error (.imageDecode "Invalid DIB header size")
    else
      let width := unsignedAbs (← readLe? data 4 4)
      let heightRaw ← readLe? data 8 4
      let height := unsignedAbs heightRaw
      let topDown : Bool := 2 ^ 31 ≤ heightRaw
      let bitCount ← readLe? data 14 2
      if data.length ≤ biSize then return .error (.imageDecode "DIB header larger than data")
      else
        let pixelData ← tail? data biSize
        if bitCount = 32 then convert32bitDib? pixelData width height topDown
        else if bitCount = 24 then convert24bitDib? pixelData width height topDown
        else return .error (.imageDecode ("Unsupported DIB bit depth: " ++ toString bitCount))

/-- The same for a header of version 5. -/
def parseFullDibv5? (data : List UInt8) : Option (Except CoreError DynamicImage) :=
  if data.length < 124 then some (.error (.imageDecode "DIBV5 data too small for header"))
  else do
    let width := unsignedAbs (← readLe? data 4 4)
    let heightRaw ← readLe? data 8 4
    let height := unsignedAbs heightRaw
    let topDown : Bool := 2 ^ 31 ≤ heightRaw
    let bitCount ← readLe? data 14 2
    let compression ← readLe? data 16 4
    let masks : ChannelMasks ←
      if compression = 3 then do
        let red ← readLe? data 40 4
        let green ← readLe? data 44 4
        let blue ← readLe? data 48 4
        let alpha ← readLe? data 52 4
        some ⟨UInt32.ofNat red, UInt32.ofNat green, UInt32.ofNat blue, UInt32.ofNat alpha⟩
      else some bgraMasks
    let pixelData ← tail? data 124
    if bitCount = 32 then convert32bitDibv5? pixelData width height topDown masks
    else if bitCount = 24 then convert24bitDib? pixelData width height topDown
    else return .error (.imageDecode ("Unsupported DIBV5 bit depth: " ++ toString bitCount))

/-- The same for either header. -/
def parseDibv5ToImage? (data : List UInt8) : Option (Except CoreError DynamicImage) :=
  if data.length < 4 then some (.error (.imageDecode "DIBV5 too small"))
  else do
    let headerSize ← readLe? data 0 4
    if headerSize = 40 then parseDibToImage? data
    else if headerSize = 124 then parseFullDibv5? data
    else return .error (.imageDecode ("Invalid DIBV5 header size: " ++ toString headerSize ++
      " (expected 40 or 124)"))

/-! ### The header -/

/-- The width that a header names, without its sign. -/
def declaredWidth (data : List UInt8) : UInt32 := unsignedAbs (readLe data 4 4)

/-- The height that a header names, without its sign. -/
def declaredHeight (data : List UInt8) : UInt32 := unsignedAbs (readLe data 8 4)

/-- A negative height says that the rows begin at the top. -/
def declaredTopDown (data : List UInt8) : Bool := 2 ^ 31 ≤ readLe data 8 4

/-- The masks that a long header declares, or those of blue, green, red and alpha. -/
def declaredMasks (data : List UInt8) : ChannelMasks :=
  if readLe data 16 4 = 3 then
    ⟨UInt32.ofNat (readLe data 40 4), UInt32.ofNat (readLe data 44 4),
      UInt32.ofNat (readLe data 48 4), UInt32.ofNat (readLe data 52 4)⟩
  else bgraMasks

/-- The size of the image or of its rows does not fit. -/
def SizeFault (data : List UInt8) : Prop :=
  (readLe data 14 2 = 32 ∧ (declaredWidth data).toNat = 2 ^ 31 ∧
      (declaredHeight data).toNat = 2 ^ 31) ∨
    readLe data 14 2 = 24 ∧ 1431655764 < (declaredWidth data).toNat

/-- A pixel is there, and its red, green or blue mask is zero. -/
def MaskFault (data : List UInt8) : Prop :=
  readLe data 14 2 = 32 ∧ readLe data 16 4 = 3 ∧
    (readLe data 40 4 = 0 ∨ readLe data 44 4 = 0 ∨ readLe data 48 4 = 0) ∧
    0 < (declaredWidth data).toNat ∧ 0 < (declaredHeight data).toNat ∧
    124 + (declaredWidth data).toNat * (declaredHeight data).toNat * 4 ≤ data.length

/-- A short header that is complete, of which some size does not fit. -/
def DibFault (data : List UInt8) : Prop :=
  40 ≤ data.length ∧ 40 ≤ readLe data 0 4 ∧ readLe data 0 4 < data.length ∧ SizeFault data

/-- What is wrong with a bitmap under the name of the newer format: the fault of whichever header it
has. -/
def Dibv5Fault (data : List UInt8) : Prop :=
  readLe data 0 4 = 40 ∧ DibFault data ∨
    readLe data 0 4 = 124 ∧ 124 ≤ data.length ∧ (SizeFault data ∨ MaskFault data)

/-! ### Checks that do not fail -/

/-- A number that fits its type. -/
theorem usize?_eq {n : ℕ} (h : n < 2 ^ 64) : usize? n = some n := if_pos h

theorem mapM_eq_some {α β : Type} {f : α → Option β} {g : α → β} {xs : List α}
    (h : ∀ x ∈ xs, f x = some (g x)) : xs.mapM f = some (xs.map g) := by
  induction xs with
  | nil => rfl
  | cons x xs ih =>
    rw [List.mapM_cons, h x List.mem_cons_self, ih fun y hy => h y (List.mem_cons_of_mem x hy)]
    rfl

theorem mapM_eq_none {α β : Type} {f : α → Option β} {x : α} {xs : List α} (hx : x ∈ xs)
    (h : f x = none) : xs.mapM f = none := by
  induction xs with
  | nil => exact absurd hx List.not_mem_nil
  | cons y ys ih =>
    rw [List.mapM_cons]
    obtain rfl | hx := List.mem_cons.mp hx
    · rw [h]
      rfl
    · rw [ih hx]
      cases f y <;> rfl

section Rows

variable {width height : UInt32} {topDown : Bool} {rowOffset? : ℕ → Option ℕ}
  {pixelAt? : ℕ → ℕ → Option (Option Pixel)}

/-- The row is in range, so that the subtraction for a bottom-up bitmap cannot fail. -/
theorem row?_bind {β : Type} {y : ℕ} (hy : y < height.toNat) (f : ℕ → Option β) : (do
    let row ← if topDown then some y else sub? (← sub? height.toNat 1) y
    f row) = f (storedRow height.toNat topDown y) := by
  cases topDown with
  | true => rfl
  | false =>
    have hlast : sub? height.toNat 1 = some (height.toNat - 1) := if_pos (by omega)
    have hrow : sub? (height.toNat - 1) y = some (storedRow height.toNat false y) :=
      if_pos (by omega)
    simp only [hlast, hrow, Option.bind_eq_bind, Option.bind_some, Bool.false_eq_true, if_false]

/-- Where no pixel fails, the pixels are those that are read without checks. -/
theorem readPixels?_eq {offset : ℕ → ℕ} {pixelAt : ℕ → ℕ → Option Pixel}
    (hoffset : ∀ row < height.toNat, rowOffset? row = some (offset row))
    (hpixel : ∀ row < height.toNat, ∀ x < width.toNat,
      pixelAt? (offset row) x = some (pixelAt row x)) :
    readPixels? width height topDown rowOffset? pixelAt? =
      some (readPixels width height topDown pixelAt) := by
  have hrows : ∀ y ∈ List.range height.toNat, (do
      let row ← if topDown then some y else sub? (← sub? height.toNat 1) y
      let offset ← rowOffset? row
      let pixels ← (List.range width.toNat).mapM fun x => pixelAt? offset x
      return pixels.filterMap id) =
        some ((List.range width.toNat).filterMap
          (pixelAt (storedRow height.toNat topDown y))) := by
    intro y hy
    have hlt := storedRow_lt (List.mem_range.mp hy) topDown
    have hpixels := mapM_eq_some (fun x (hx : x ∈ List.range width.toNat) =>
      hpixel _ hlt x (List.mem_range.mp hx))
    refine (row?_bind (List.mem_range.mp hy) _).trans ?_
    rw [hoffset _ hlt, Option.bind_eq_bind, Option.bind_some, hpixels, Option.bind_eq_bind,
      Option.bind_some, List.filterMap_map]
    rfl
  rw [readPixels?, mapM_eq_some hrows]
  rfl

/-- A check that fails for the first pixel of each row. -/
theorem readPixels?_eq_none {offset : ℕ → ℕ}
    (hoffset : ∀ row < height.toNat, rowOffset? row = some (offset row))
    (hpixel : ∀ row < height.toNat, pixelAt? (offset row) 0 = none) (hwidth : 0 < width.toNat)
    (hheight : 0 < height.toNat) :
    readPixels? width height topDown rowOffset? pixelAt? = none := by
  have hfirst : (do
      let row ← if topDown then some 0 else sub? (← sub? height.toNat 1) 0
      let offset ← rowOffset? row
      let pixels ← (List.range width.toNat).mapM fun x => pixelAt? offset x
      return pixels.filterMap id) = none := by
    have hlt := storedRow_lt hheight topDown
    have hpixels := mapM_eq_none (List.mem_range.mpr hwidth) (hpixel _ hlt)
    refine (row?_bind hheight _).trans ?_
    rw [hoffset _ hlt, Option.bind_eq_bind, Option.bind_some, hpixels]
    rfl
  rw [readPixels?, mapM_eq_none (List.mem_range.mpr hheight) hfirst]
  rfl

end Rows

/-! ### Pixels -/

section Pixels

variable {data : List UInt8} {rowOffset x : ℕ}

/-- The offset of a pixel, and its last byte. -/
theorem offset?_eq {bytes last : ℕ} (h : rowOffset + x * bytes + last < 2 ^ 64) :
    usize? (x * bytes) = some (x * bytes) ∧
      usize? (rowOffset + x * bytes) = some (rowOffset + x * bytes) ∧
      usize? (rowOffset + x * bytes + last) = some (rowOffset + x * bytes + last) :=
  ⟨usize?_eq (by omega), usize?_eq (by omega), usize?_eq h⟩

/-- What stands at an offset, and is in bounds or not. -/
theorem getElem?_offset (data : List UInt8) (offset : ℕ) :
    data[offset]? = (data.drop offset)[0]? ∧ ∀ i, data[offset + i]? = (data.drop offset)[i]? :=
  ⟨by rw [List.getElem?_drop, Nat.add_zero], fun i => List.getElem?_drop.symm⟩

/-- A pixel is read in whole or not at all. -/
theorem pixel32?_eq (h : rowOffset + x * 4 + 3 < 2 ^ 64) :
    pixel32? data rowOffset x = some (match data.drop (rowOffset + x * 4) with
      | b :: g :: r :: a :: _ => some ⟨r, g, b, a⟩
      | _ => none) := by
  obtain ⟨hcolumn, hoffset, hlast⟩ := offset?_eq h
  obtain ⟨hfirst, hbytes⟩ := getElem?_offset data (rowOffset + x * 4)
  have hlength := List.length_drop (l := data) (i := rowOffset + x * 4)
  simp only [pixel32?, hcolumn, hoffset, hlast, Option.bind_eq_bind, Option.bind_some, hfirst,
    hbytes]
  generalize data.drop (rowOffset + x * 4) = tail at hlength ⊢
  match tail with
  | b :: g :: r :: a :: rest =>
    rw [if_pos (by simp only [List.length_cons] at hlength; omega)]
    rfl
  | [] | [_] | [_, _] | [_, _, _] =>
    rw [if_neg (by simp only [List.length_cons, List.length_nil] at hlength; omega)]
    rfl

/-- A pixel is read in whole or not at all. -/
theorem pixel24?_eq (h : rowOffset + x * 3 + 2 < 2 ^ 64) :
    pixel24? data rowOffset x = some (match data.drop (rowOffset + x * 3) with
      | b :: g :: r :: _ => some ⟨r, g, b, 255⟩
      | _ => none) := by
  obtain ⟨hcolumn, hoffset, hlast⟩ := offset?_eq h
  obtain ⟨hfirst, hbytes⟩ := getElem?_offset data (rowOffset + x * 3)
  have hlength := List.length_drop (l := data) (i := rowOffset + x * 3)
  simp only [pixel24?, hcolumn, hoffset, hlast, Option.bind_eq_bind, Option.bind_some, hfirst,
    hbytes]
  generalize data.drop (rowOffset + x * 3) = tail at hlength ⊢
  match tail with
  | b :: g :: r :: rest =>
    rw [if_pos (by simp only [List.length_cons] at hlength; omega)]
    rfl
  | [] | [_] | [_, _] =>
    rw [if_neg (by simp only [List.length_cons, List.length_nil] at hlength; omega)]
    rfl

/-- Only for the mask zero the shift is by all the bits. -/
theorem trailingZeros_lt_iff (mask : UInt32) : trailingZeros mask < 32 ↔ mask ≠ 0 := by
  have hlt := mask.toNat_lt
  rw [trailingZeros]
  constructor
  · rintro hlt rfl
    exact absurd hlt (by decide)
  · intro hne
    cases hfind : (List.range 32).find? fun i => mask.toNat.testBit i with
    | some i => exact List.mem_range.mp (List.mem_of_find?_eq_some hfind)
    | none =>
      refine absurd (UInt32.toNat_inj.mp ?_) hne
      refine Nat.eq_of_testBit_eq fun i => ?_
      rw [UInt32.toNat_zero, Nat.zero_testBit]
      by_cases hi : i < 32
      · simpa using List.find?_eq_none.mp hfind i (List.mem_range.mpr hi)
      · exact Nat.testBit_lt_two_pow (Nat.lt_of_lt_of_le hlt (Nat.pow_le_pow_right (by decide)
          (Nat.not_lt.mp hi)))

/-- A channel fails exactly if its mask is zero. -/
theorem channel?_eq (pixel mask : UInt32) :
    channel? pixel mask = if mask ≠ 0 then some (channel pixel mask) else none :=
  if_congr (trailingZeros_lt_iff mask) rfl rfl

/-- The colour masks of which a shift fails if one is zero. -/
def ChannelMasks.Complete (masks : ChannelMasks) : Prop :=
  masks.red ≠ 0 ∧ masks.green ≠ 0 ∧ masks.blue ≠ 0

/-- The channels of a packed pixel. -/
def maskedPixel (masks : ChannelMasks) (pixel : UInt32) : Pixel :=
  ⟨channel pixel masks.red, channel pixel masks.green, channel pixel masks.blue,
    if masks.alpha ≠ 0 then channel pixel masks.alpha else 255⟩

/-- With complete masks a pixel does not fail. -/
theorem maskedPixel?_eq {masks : ChannelMasks} (hmasks : masks.Complete)
    (h : rowOffset + x * 4 + 3 < 2 ^ 64) :
    maskedPixel? data masks rowOffset x = some (if rowOffset + x * 4 + 3 < data.length then
      some (maskedPixel masks (UInt32.ofNat (readLe data (rowOffset + x * 4) 4))) else none) := by
  obtain ⟨hcolumn, hoffset, hlast⟩ := offset?_eq h
  obtain ⟨hred, hgreen, hblue⟩ := hmasks
  simp only [maskedPixel?, hcolumn, hoffset, hlast, Option.bind_eq_bind, Option.bind_some]
  split_ifs with hin halpha
  · rw [readLe?_eq (by omega), Option.bind_some, channel?_eq, if_pos hred, Option.bind_some,
      channel?_eq, if_pos hgreen, Option.bind_some, channel?_eq, if_pos hblue, Option.bind_some,
      channel?_eq, if_pos halpha, Option.bind_some, maskedPixel, if_pos halpha]
    rfl
  · rw [readLe?_eq (by omega), Option.bind_some, channel?_eq, if_pos hred, Option.bind_some,
      channel?_eq, if_pos hgreen, Option.bind_some, channel?_eq, if_pos hblue, Option.bind_some,
      maskedPixel, if_neg halpha]
    rfl
  · rfl

/-- Without them every pixel in range does. -/
theorem maskedPixel?_eq_none {masks : ChannelMasks} (hmasks : ¬ masks.Complete)
    (h : rowOffset + x * 4 + 3 < 2 ^ 64) (hin : rowOffset + x * 4 + 3 < data.length) :
    maskedPixel? data masks rowOffset x = none := by
  obtain ⟨hcolumn, hoffset, hlast⟩ := offset?_eq h
  simp only [maskedPixel?, hcolumn, hoffset, hlast, Option.bind_eq_bind, Option.bind_some,
    if_pos hin, readLe?_eq (show rowOffset + x * 4 + 4 ≤ data.length by omega), channel?_eq]
  by_cases hred : masks.red ≠ 0
  · by_cases hgreen : masks.green ≠ 0
    · have hblue : ¬ masks.blue ≠ 0 := fun hblue => hmasks ⟨hred, hgreen, hblue⟩
      rw [if_pos hred, if_pos hgreen, if_neg hblue]
      rfl
    · rw [if_pos hred, if_neg hgreen]
      rfl
  · rw [if_neg hred]
    rfl

end Pixels

/-! ### Conversions -/

section Conversions

variable {data : List UInt8} {width height : UInt32} {topDown : Bool}

/-- The size of a dimension is at most `2 ^ 31`, which is that of the least signed number. -/
theorem unsignedAbs_le {n : ℕ} (h : n < 2 ^ 32) : (unsignedAbs n).toNat ≤ 2 ^ 31 := by
  rw [unsignedAbs]
  split_ifs with hsmall
  · rw [UInt32.toNat_ofNat_of_lt' (by show n < 4294967296; omega)]
    omega
  · rw [UInt32.toNat_ofNat_of_lt' (by show 2 ^ 32 - n < 4294967296; omega)]
    omega

/-- The sizes of an image of pixels of four bytes. -/
theorem size32_lt (hwidth : width.toNat ≤ 2 ^ 31) (hheight : height.toNat ≤ 2 ^ 31)
    (h : ¬ (width.toNat = 2 ^ 31 ∧ height.toNat = 2 ^ 31)) :
    width.toNat * height.toNat * 4 < 2 ^ 64 := by
  by_cases hw : width.toNat = 2 ^ 31
  · have hle : width.toNat * height.toNat ≤ 2 ^ 31 * (2 ^ 31 - 1) :=
      Nat.mul_le_mul hwidth (by omega)
    omega
  · have hle : width.toNat * height.toNat ≤ (2 ^ 31 - 1) * 2 ^ 31 :=
      Nat.mul_le_mul (by omega) hheight
    omega

/-- The expected length is computed without overflow if it fits. -/
theorem expected32?_eq (h : width.toNat * height.toNat * 4 < 2 ^ 64) :
    usize? (width.toNat * height.toNat) = some (width.toNat * height.toNat) ∧
      usize? (width.toNat * height.toNat * 4) = some (width.toNat * height.toNat * 4) :=
  ⟨usize?_eq (by omega), usize?_eq h⟩

/-- A pixel of four bytes is where it is, in 64 bits. -/
theorem rowOffset32?_eq (hwidth : width.toNat ≤ 2 ^ 31) (hheight : height.toNat ≤ 2 ^ 31) {row : ℕ}
    (hrow : row < height.toNat) :
    rowOffset32? width row = some (row * width.toNat * 4) ∧
      ∀ x < width.toNat, row * width.toNat * 4 + x * 4 + 3 < 2 ^ 64 := by
  have hle : row * width.toNat ≤ (2 ^ 31 - 1) * 2 ^ 31 := Nat.mul_le_mul (by omega) hwidth
  refine ⟨?_, fun x hx => by omega⟩
  rw [rowOffset32?, usize?_eq (by omega), Option.bind_eq_bind, Option.bind_some,
    usize?_eq (by omega)]

/-- Only the largest two dimensions together are too much. -/
theorem convert32bitDib?_eq (hwidth : width.toNat ≤ 2 ^ 31) (hheight : height.toNat ≤ 2 ^ 31)
    (h : ¬ (width.toNat = 2 ^ 31 ∧ height.toNat = 2 ^ 31)) :
    convert32bitDib? data width height topDown =
      some (convert32bitDib data width height topDown) := by
  have hsize := size32_lt hwidth hheight h
  obtain ⟨hcount, hexpected⟩ := expected32?_eq hsize
  have hpixels : readPixels? width height topDown (rowOffset32? width) (pixel32? data) = _ :=
    readPixels?_eq (fun row hrow => (rowOffset32?_eq hwidth hheight hrow).1)
      (fun row hrow x hx => pixel32?_eq ((rowOffset32?_eq hwidth hheight hrow).2 x hx))
  simp only [convert32bitDib?, hcount, hexpected, Option.bind_eq_bind, Option.bind_some, hpixels]
  rw [convert32bitDib, Nat.mod_eq_of_lt hsize]
  split_ifs <;> rfl

theorem convert32bitDib?_eq_none (hwidth : width.toNat = 2 ^ 31) (hheight : height.toNat = 2 ^ 31) :
    convert32bitDib? data width height topDown = none := by
  rw [convert32bitDib?, hwidth, hheight]
  rfl

/-- The size of a row, if it fits. -/
theorem rowSize_eq (hwidth : width.toNat ≤ 1431655764) :
    (width.toNat * 3 % 2 ^ 32 + 3) / 4 * 4 % 2 ^ 32 = (width.toNat * 3 + 3) / 4 * 4 := by
  rw [Nat.mod_eq_of_lt (show width.toNat * 3 < 2 ^ 32 by omega), Nat.mod_eq_of_lt (by omega)]

/-- Only the width matters: a row is rounded up to four bytes in 32 bits. -/
theorem convert24bitDib?_eq (hwidth : width.toNat ≤ 1431655764) (hheight : height.toNat ≤ 2 ^ 31) :
    convert24bitDib? data width height topDown =
      some (convert24bitDib data width height topDown) := by
  have hrow : u32? (width.toNat * 3) = some (width.toNat * 3) := if_pos (by omega)
  have hrowSize : u32? ((width.toNat * 3 + 3) / 4 * 4) = some ((width.toNat * 3 + 3) / 4 * 4) :=
    if_pos (by omega)
  have hmodel := rowSize_eq hwidth
  have hfits : (width.toNat * 3 + 3) / 4 * 4 ≤ 2 ^ 32 := by omega
  rw [convert24bitDib?, convert24bitDib]
  simp only [hmodel, hrow, hrowSize, Option.bind_eq_bind, Option.bind_some]
  generalize (width.toNat * 3 + 3) / 4 * 4 = rowSize at hfits ⊢
  have hexpected : rowSize * height.toNat ≤ 2 ^ 32 * 2 ^ 31 := Nat.mul_le_mul hfits hheight
  have hcount : width.toNat * height.toNat ≤ 1431655764 * 2 ^ 31 := Nat.mul_le_mul hwidth hheight
  have hrows : ∀ row < height.toNat, row * rowSize ≤ 2 ^ 31 * 2 ^ 32 :=
    fun row hrow => Nat.mul_le_mul (by omega) hfits
  have hpixels : readPixels? width height topDown (fun row => usize? (row * rowSize))
      (pixel24? data) = _ :=
    readPixels?_eq (fun row hrow => usize?_eq (by have := hrows row hrow; omega))
      (fun row hrow x hx => pixel24?_eq (by have := hrows row hrow; omega))
  rw [usize?_eq (by omega), Option.bind_some, usize?_eq (by omega), Option.bind_some,
    usize?_eq (by omega), Option.bind_some, hpixels, Option.bind_some]
  split_ifs <;> rfl

theorem convert24bitDib?_eq_none (hwidth : 1431655764 < width.toNat) :
    convert24bitDib? data width height topDown = none := by
  have hlt := width.toNat_lt
  rw [convert24bitDib?]
  by_cases hproduct : width.toNat * 3 < 2 ^ 32
  · have hrow : u32? (width.toNat * 3) = some (width.toNat * 3) := if_pos hproduct
    have hrounded : u32? ((width.toNat * 3 + 3) / 4 * 4) = none := if_neg (by omega)
    rw [hrow, Option.bind_eq_bind, Option.bind_some, hrounded]
    rfl
  · have hrow : u32? (width.toNat * 3) = none := if_neg hproduct
    rw [hrow]
    rfl

/-- In addition to the dimensions, the masks have to be complete, unless no pixel is read. -/
theorem convert32bitDibv5?_eq {masks : ChannelMasks} (hwidth : width.toNat ≤ 2 ^ 31)
    (hheight : height.toNat ≤ 2 ^ 31) (h : ¬ (width.toNat = 2 ^ 31 ∧ height.toNat = 2 ^ 31))
    (hmasks : masks.Complete ∨ ¬ (0 < width.toNat ∧ 0 < height.toNat ∧
      width.toNat * height.toNat * 4 ≤ data.length)) :
    convert32bitDibv5? data width height topDown masks =
      some (convert32bitDibv5 data width height topDown masks) := by
  have hsize := size32_lt hwidth hheight h
  obtain ⟨hcount, hexpected⟩ := expected32?_eq hsize
  simp only [convert32bitDibv5?, hcount, hexpected, Option.bind_eq_bind, Option.bind_some]
  rw [convert32bitDibv5, Nat.mod_eq_of_lt hsize]
  by_cases hshort : data.length < width.toNat * height.toNat * 4
  · rw [if_pos hshort, if_pos hshort]
    rfl
  · have hpixel : ∀ row < height.toNat, ∀ x < width.toNat,
        maskedPixel? data masks (row * width.toNat * 4) x =
          some (if row * width.toNat * 4 + x * 4 + 3 < data.length then
            some (maskedPixel masks
              (UInt32.ofNat (readLe data (row * width.toNat * 4 + x * 4) 4)))
            else none) := by
      intro row hrow x hx
      obtain hmasks | hnone := hmasks
      · exact maskedPixel?_eq hmasks ((rowOffset32?_eq hwidth hheight hrow).2 x hx)
      · exact absurd ⟨Nat.lt_of_le_of_lt (Nat.zero_le x) hx,
          Nat.lt_of_le_of_lt (Nat.zero_le row) hrow, Nat.not_lt.mp hshort⟩ hnone
    have hpixels : readPixels? width height topDown (rowOffset32? width)
        (maskedPixel? data masks) = _ :=
      readPixels?_eq (fun row hrow => (rowOffset32?_eq hwidth hheight hrow).1) hpixel
    rw [if_neg hshort, if_neg hshort, hpixels]
    rfl

theorem convert32bitDibv5?_eq_none {masks : ChannelMasks} (hwidth : width.toNat ≤ 2 ^ 31)
    (hheight : height.toNat ≤ 2 ^ 31)
    (h : width.toNat = 2 ^ 31 ∧ height.toNat = 2 ^ 31 ∨ ¬ masks.Complete ∧ 0 < width.toNat ∧
      0 < height.toNat ∧ width.toNat * height.toNat * 4 ≤ data.length) :
    convert32bitDibv5? data width height topDown masks = none := by
  by_cases hhuge : width.toNat = 2 ^ 31 ∧ height.toNat = 2 ^ 31
  · rw [convert32bitDibv5?, hhuge.1, hhuge.2]
    rfl
  · obtain ⟨hmasks, hcolumns, hrows, hdata⟩ := h.resolve_left hhuge
    obtain ⟨hcount, hexpected⟩ := expected32?_eq (size32_lt hwidth hheight hhuge)
    have hpixel : ∀ row < height.toNat,
        maskedPixel? data masks (row * width.toNat * 4) 0 = none := by
      intro row hrow
      have hfits := (rowOffset32?_eq hwidth hheight hrow).2 0 hcolumns
      have hend : row * width.toNat * 4 + 4 ≤ width.toNat * height.toNat * 4 := by
        have hplace := Buffer.raster_lt hrow hcolumns
        rw [Nat.mul_comm height.toNat] at hplace
        omega
      exact maskedPixel?_eq_none hmasks hfits (by omega)
    have hpixels : readPixels? width height topDown (rowOffset32? width)
        (maskedPixel? data masks) = none :=
      readPixels?_eq_none (fun row hrow => (rowOffset32?_eq hwidth hheight hrow).1) hpixel
        hcolumns hrows
    simp only [convert32bitDibv5?, hcount, hexpected, Option.bind_eq_bind, Option.bind_some,
      if_neg (Nat.not_lt.mpr hdata), hpixels]
    rfl

end Conversions

/-! ### Parsers -/

theorem leToNat_lt (bs : List UInt8) : leToNat bs < 256 ^ bs.length := by
  induction bs with
  | nil => exact Nat.one_pos
  | cons b bs ih =>
    have hb := b.toNat_lt
    rw [leToNat, List.length_cons, Nat.pow_succ]
    omega

theorem readLe_lt (data : List UInt8) (offset : ℕ) : readLe data offset 4 < 2 ^ 32 := by
  have hlength : ((data.drop offset).take 4).length ≤ 4 := List.length_take_le _ _
  exact Nat.lt_of_lt_of_le (leToNat_lt _) (Nat.pow_le_pow_right (by decide) hlength)

section Parsers

variable {data : List UInt8}

/-- The width is the size of a signed number. -/
theorem declaredWidth_le (data : List UInt8) : (declaredWidth data).toNat ≤ 2 ^ 31 :=
  unsignedAbs_le (readLe_lt data 4)

theorem declaredHeight_le (data : List UInt8) : (declaredHeight data).toNat ≤ 2 ^ 31 :=
  unsignedAbs_le (readLe_lt data 8)

theorem tail?_eq {offset : ℕ} (h : offset ≤ data.length) :
    tail? data offset = some (data.drop offset) :=
  if_pos h

/-- The parser, by what the header declares. -/
theorem parseDibToImage_eq (hlength : 40 ≤ data.length) (hsize : 40 ≤ readLe data 0 4)
    (hdata : readLe data 0 4 < data.length) : parseDibToImage data =
      if readLe data 14 2 = 32 then
        convert32bitDib (data.drop (readLe data 0 4)) (declaredWidth data) (declaredHeight data)
          (declaredTopDown data)
      else if readLe data 14 2 = 24 then
        convert24bitDib (data.drop (readLe data 0 4)) (declaredWidth data) (declaredHeight data)
          (declaredTopDown data)
      else
        .error (.imageDecode ("Unsupported DIB bit depth: " ++ toString (readLe data 14 2))) := by
  rw [parseDibToImage, if_neg (Nat.not_lt.mpr hlength), if_neg (Nat.not_lt.mpr hsize),
    if_neg (Nat.not_le.mpr hdata)]
  rfl

/-- Once its header is accepted, a bitmap is parsed by its depth. -/
theorem parseDibToImage?_checked (hlength : 40 ≤ data.length) (hsize : 40 ≤ readLe data 0 4)
    (hdata : readLe data 0 4 < data.length) : parseDibToImage? data =
      if readLe data 14 2 = 32 then
        convert32bitDib? (data.drop (readLe data 0 4)) (declaredWidth data) (declaredHeight data)
          (declaredTopDown data)
      else if readLe data 14 2 = 24 then
        convert24bitDib? (data.drop (readLe data 0 4)) (declaredWidth data) (declaredHeight data)
          (declaredTopDown data)
      else some (.error
        (.imageDecode ("Unsupported DIB bit depth: " ++ toString (readLe data 14 2)))) := by
  rw [parseDibToImage?, if_neg (Nat.not_lt.mpr hlength)]
  simp only [readLe?_eq (show 0 + 4 ≤ data.length by omega),
    readLe?_eq (show 4 + 4 ≤ data.length by omega), readLe?_eq (show 8 + 4 ≤ data.length by omega),
    readLe?_eq (show 14 + 2 ≤ data.length by omega), tail?_eq hdata.le, Option.bind_eq_bind,
    Option.bind_some, if_neg (Nat.not_lt.mpr hsize), if_neg (Nat.not_le.mpr hdata)]
  rfl

/-- Without a fault the parser does what it does without checks. -/
theorem parseDibToImage?_eq (h : ¬ DibFault data) :
    parseDibToImage? data = some (parseDibToImage data) := by
  by_cases hlength : data.length < 40
  · rw [parseDibToImage?, parseDibToImage, if_pos hlength, if_pos hlength]
  · by_cases hsize : readLe data 0 4 < 40
    · rw [parseDibToImage?, parseDibToImage, if_neg hlength, if_neg hlength, if_pos hsize,
        readLe?_eq (by omega), Option.bind_eq_bind, Option.bind_some, if_pos hsize]
      rfl
    · by_cases hdata : data.length ≤ readLe data 0 4
      · rw [parseDibToImage?, parseDibToImage, if_neg hlength, if_neg hlength, if_neg hsize,
          if_pos hdata]
        simp only [readLe?_eq (show 0 + 4 ≤ data.length by omega),
          readLe?_eq (show 4 + 4 ≤ data.length by omega),
          readLe?_eq (show 8 + 4 ≤ data.length by omega),
          readLe?_eq (show 14 + 2 ≤ data.length by omega), Option.bind_eq_bind, Option.bind_some,
          if_neg hsize, if_pos hdata]
        rfl
      · rw [Nat.not_lt] at hlength hsize
        rw [Nat.not_le] at hdata
        have hfits : ¬ SizeFault data := fun hfault => h ⟨hlength, hsize, hdata, hfault⟩
        rw [parseDibToImage?_checked hlength hsize hdata, parseDibToImage_eq hlength hsize hdata]
        split_ifs with h32 h24
        · exact convert32bitDib?_eq (declaredWidth_le data) (declaredHeight_le data)
            fun hhuge => hfits (Or.inl ⟨h32, hhuge⟩)
        · exact convert24bitDib?_eq (Nat.not_lt.mp fun hwide => hfits (Or.inr ⟨h24, hwide⟩))
            (declaredHeight_le data)
        · rfl

/-- With a fault a check fails. -/
theorem parseDibToImage?_eq_none (h : DibFault data) : parseDibToImage? data = none := by
  obtain ⟨hlength, hsize, hdata, ⟨hbits, hwidth, hheight⟩ | ⟨hbits, hwidth⟩⟩ := h
  · rw [parseDibToImage?_checked hlength hsize hdata, if_pos hbits]
    exact convert32bitDib?_eq_none hwidth hheight
  · rw [parseDibToImage?_checked hlength hsize hdata, if_neg (by omega), if_pos hbits]
    exact convert24bitDib?_eq_none hwidth

/-- The parser of a whole V5 header, by the depth. -/
theorem parseFullDibv5_eq (hlength : 124 ≤ data.length) : parseFullDibv5 data =
      if readLe data 14 2 = 32 then
        convert32bitDibv5 (data.drop 124) (declaredWidth data) (declaredHeight data)
          (declaredTopDown data) (declaredMasks data)
      else if readLe data 14 2 = 24 then
        convert24bitDib (data.drop 124) (declaredWidth data) (declaredHeight data)
          (declaredTopDown data)
      else .error
        (.imageDecode ("Unsupported DIBV5 bit depth: " ++ toString (readLe data 14 2))) := by
  rw [parseFullDibv5, if_neg (Nat.not_lt.mpr hlength)]
  rfl

theorem parseFullDibv5?_checked (hlength : 124 ≤ data.length) : parseFullDibv5? data =
      if readLe data 14 2 = 32 then
        convert32bitDibv5? (data.drop 124) (declaredWidth data) (declaredHeight data)
          (declaredTopDown data) (declaredMasks data)
      else if readLe data 14 2 = 24 then
        convert24bitDib? (data.drop 124) (declaredWidth data) (declaredHeight data)
          (declaredTopDown data)
      else some (.error
        (.imageDecode ("Unsupported DIBV5 bit depth: " ++ toString (readLe data 14 2)))) := by
  rw [parseFullDibv5?, if_neg (Nat.not_lt.mpr hlength)]
  simp only [readLe?_eq (show 4 + 4 ≤ data.length by omega),
    readLe?_eq (show 8 + 4 ≤ data.length by omega), readLe?_eq (show 14 + 2 ≤ data.length by omega),
    readLe?_eq (show 16 + 4 ≤ data.length by omega), tail?_eq hlength, Option.bind_eq_bind,
    Option.bind_some]
  by_cases hmasks : readLe data 16 4 = 3
  · simp only [declaredMasks, if_pos hmasks, readLe?_eq (show 40 + 4 ≤ data.length by omega),
      readLe?_eq (show 44 + 4 ≤ data.length by omega),
      readLe?_eq (show 48 + 4 ≤ data.length by omega),
      readLe?_eq (show 52 + 4 ≤ data.length by omega), Option.bind_some]
    rfl
  · simp only [declaredMasks, if_neg hmasks]
    rfl

/-- Masks are read from the header only if it says so; the others are complete. -/
theorem complete_declaredMasks : (declaredMasks data).Complete ↔ ¬ (readLe data 16 4 = 3 ∧
    (readLe data 40 4 = 0 ∨ readLe data 44 4 = 0 ∨ readLe data 48 4 = 0)) := by
  have hzero : ∀ offset, UInt32.ofNat (readLe data offset 4) ≠ 0 ↔ readLe data offset 4 ≠ 0 := by
    intro offset
    rw [ne_eq, ← UInt32.toNat_inj, UInt32.toNat_ofNat_of_lt' (readLe_lt data offset)]
    rfl
  rw [declaredMasks]
  split_ifs with hmasks
  · rw [ChannelMasks.Complete, hzero, hzero, hzero, and_iff_right hmasks, not_or, not_or]
  · exact iff_of_true ⟨by decide, by decide, by decide⟩ fun h => hmasks h.1

/-- Without a fault the parser does what it does without checks. -/
theorem parseFullDibv5?_eq (h : ¬ (124 ≤ data.length ∧ (SizeFault data ∨ MaskFault data))) :
    parseFullDibv5? data = some (parseFullDibv5 data) := by
  by_cases hlength : data.length < 124
  · rw [parseFullDibv5?, parseFullDibv5, if_pos hlength, if_pos hlength]
  · rw [Nat.not_lt] at hlength
    obtain ⟨hsize, hmask⟩ : ¬ SizeFault data ∧ ¬ MaskFault data :=
      not_or.mp fun hfault => h ⟨hlength, hfault⟩
    rw [parseFullDibv5?_checked hlength, parseFullDibv5_eq hlength]
    split_ifs with h32 h24
    · refine convert32bitDibv5?_eq (declaredWidth_le data) (declaredHeight_le data)
        (fun hhuge => hsize (Or.inl ⟨h32, hhuge⟩)) ?_
      rw [complete_declaredMasks, List.length_drop, ← not_and_or]
      rintro ⟨⟨hmasks, hzero⟩, hwidth, hheight, hdata⟩
      exact hmask ⟨h32, hmasks, hzero, hwidth, hheight, by omega⟩
    · exact convert24bitDib?_eq (Nat.not_lt.mp fun hwide => hsize (Or.inr ⟨h24, hwide⟩))
        (declaredHeight_le data)
    · rfl

theorem parseFullDibv5?_eq_none (hlength : 124 ≤ data.length)
    (h : SizeFault data ∨ MaskFault data) : parseFullDibv5? data = none := by
  rw [parseFullDibv5?_checked hlength]
  obtain (⟨hbits, hhuge⟩ | ⟨hbits, hwide⟩) | ⟨hbits, hmasks, hzero, hwidth, hheight, hdata⟩ := h
  · rw [if_pos hbits]
    exact convert32bitDibv5?_eq_none (declaredWidth_le data) (declaredHeight_le data) (Or.inl hhuge)
  · rw [if_neg (by omega), if_pos hbits]
    exact convert24bitDib?_eq_none hwide
  · rw [if_pos hbits]
    refine convert32bitDibv5?_eq_none (declaredWidth_le data) (declaredHeight_le data)
      (Or.inr ⟨?_, hwidth, hheight, by rw [List.length_drop]; omega⟩)
    exact fun hcomplete => complete_declaredMasks.mp hcomplete ⟨hmasks, hzero⟩

/-- The same of the parser that chooses by the length of the header. -/
theorem parseDibv5ToImage?_eq (h : ¬ Dibv5Fault data) :
    parseDibv5ToImage? data = some (parseDibv5ToImage data) := by
  rw [Dibv5Fault, not_or] at h
  rw [parseDibv5ToImage?, parseDibv5ToImage]
  split_ifs with hsmall h40 h124
  · rfl
  · rw [readLe?_eq (by omega), Option.bind_eq_bind, Option.bind_some, if_pos h40]
    exact parseDibToImage?_eq fun hfault => h.1 ⟨h40, hfault⟩
  · rw [readLe?_eq (by omega), Option.bind_eq_bind, Option.bind_some, if_neg h40, if_pos h124]
    exact parseFullDibv5?_eq fun hfault => h.2 ⟨h124, hfault⟩
  · rw [readLe?_eq (by omega), Option.bind_eq_bind, Option.bind_some, if_neg h40, if_neg h124]
    rfl

theorem parseDibv5ToImage?_eq_none (h : Dibv5Fault data) : parseDibv5ToImage? data = none := by
  obtain ⟨h40, hfault⟩ | ⟨h124, hlength, hfault⟩ := h
  · have hlength := hfault.1
    rw [parseDibv5ToImage?, if_neg (by omega), readLe?_eq (by omega), Option.bind_eq_bind,
      Option.bind_some, if_pos h40]
    exact parseDibToImage?_eq_none hfault
  · rw [parseDibv5ToImage?, if_neg (by omega), readLe?_eq (by omega), Option.bind_eq_bind,
      Option.bind_some, if_neg (by omega), if_pos h124]
    exact parseFullDibv5?_eq_none hlength hfault

end Parsers

/-! ### Where the pixels come from -/

/-- A number of 32 bits with a sign. -/
def signed32 (n : ℕ) : ℤ := if n < 2 ^ 31 then n else n - 2 ^ 32

/-- The size is the absolute value of the signed number. -/
theorem unsignedAbs_eq {n : ℕ} (h : n < 2 ^ 32) :
    ((unsignedAbs n).toNat : ℤ) = |signed32 n| ∧ (2 ^ 31 ≤ n ↔ signed32 n < 0) := by
  rw [unsignedAbs, signed32]
  split_ifs with hsmall
  · rw [UInt32.toNat_ofNat_of_lt' (by show n < 4294967296; omega), abs_of_nonneg (by omega)]
    exact ⟨rfl, by omega⟩
  · rw [UInt32.toNat_ofNat_of_lt' (by show 2 ^ 32 - n < 4294967296; omega),
      abs_of_neg (by omega)]
    exact ⟨by omega, by omega⟩

/-- A pixel as four bytes store it. -/
def decodeBgra : List UInt8 → Pixel
  | [b, g, r, a] => ⟨r, g, b, a⟩
  | _ => ⟨0, 0, 0, 0⟩

/-- A pixel as three bytes store it. It hides what is behind it. -/
def decodeBgr : List UInt8 → Pixel
  | [b, g, r] => ⟨r, g, b, 255⟩
  | _ => ⟨0, 0, 0, 0⟩

/-- A pixel as the masks find it. -/
def decodeMasked (masks : ChannelMasks) (bytes : List UInt8) : Pixel :=
  maskedPixel masks (UInt32.ofNat (leToNat bytes))

/-- The pixels of an image are in an area, in rows of `stride` bytes that may be padded, and from
the bottom unless told otherwise. -/
structure TakenFrom (image : DynamicImage) (area : List UInt8) (stride bytes : ℕ) (topDown : Bool)
    (decode : List UInt8 → Pixel) : Prop where
  row_fits : image.width.toNat * bytes ≤ stride
  area_holds : stride * image.height.toNat ≤ area.length
  pixel_eq : ∀ y < image.height.toNat, ∀ x < image.width.toNat,
    image.pixels[y * image.width.toNat + x]? = some (decode
      ((area.drop (storedRow image.height.toNat topDown y * stride + x * bytes)).take bytes))

/-- An image is what a header declares and an area holds. -/
structure Shows (image : DynamicImage) (data area : List UInt8) (decode : List UInt8 → Pixel) :
    Prop where
  width_eq : (image.width.toNat : ℤ) = |signed32 (readLe data 4 4)|
  height_eq : (image.height.toNat : ℤ) = |signed32 (readLe data 8 4)|
  pixels : readLe data 14 2 = 32 ∧ TakenFrom image area (image.width.toNat * 4) 4
      (signed32 (readLe data 8 4) < 0) decode ∨
    readLe data 14 2 = 24 ∧ TakenFrom image area ((image.width.toNat * 3 + 3) / 4 * 4) 3
      (signed32 (readLe data 8 4) < 0) decodeBgr

section Taken

variable {area : List UInt8} {width height : UInt32} {topDown : Bool} {image : DynamicImage}
  {color : ColorType} {stride bytes : ℕ} {decode : List UInt8 → Pixel}
  {pixelAt : ℕ → ℕ → Option Pixel}

/-- An image of pixels that are all read from an area. -/
theorem takenFrom_of_imageOf (what : String)
    (h : imageOf what width height color (readPixels width height topDown pixelAt) = .ok image)
    (hrow : width.toNat * bytes ≤ stride) (harea : stride * height.toNat ≤ area.length)
    (hpixel : ∀ row < height.toNat, ∀ x < width.toNat,
      row * stride + x * bytes + bytes ≤ area.length →
        pixelAt row x = some (decode ((area.drop (row * stride + x * bytes)).take bytes))) :
    image.width = width ∧ image.height = height ∧
      TakenFrom image area stride bytes topDown decode := by
  have hinside : ∀ row < height.toNat, ∀ x < width.toNat,
      row * stride + x * bytes + bytes ≤ area.length := by
    intro row hlt x hx
    have hcolumn : x * bytes + bytes ≤ width.toNat * bytes := Buffer.raster_le hx
    have hlast : row * stride + stride ≤ height.toNat * stride := Buffer.raster_le hlt
    rw [Nat.mul_comm height.toNat] at hlast
    omega
  obtain ⟨hlength, hcells⟩ := readPixels_eq topDown pixelAt
    fun y hy x hx => hpixel _ (storedRow_lt hy topDown) x hx
      (hinside _ (storedRow_lt hy topDown) x hx)
  rw [imageOf, fromRaw_of_length hlength] at h
  obtain rfl := Except.ok.inj h
  exact ⟨rfl, rfl, hrow, harea, hcells⟩

/-- An image has the declared size, and each pixel comes from its place in the area. -/
theorem convert32bitDib_taken (hsize : width.toNat * height.toNat * 4 < 2 ^ 64)
    (h : convert32bitDib area width height topDown = .ok image) :
    image.width = width ∧ image.height = height ∧
      TakenFrom image area (width.toNat * 4) 4 topDown decodeBgra := by
  rw [convert32bitDib, Nat.mod_eq_of_lt hsize] at h
  split_ifs at h with hshort
  refine takenFrom_of_imageOf "DIB" h le_rfl ?_ fun row _ x _ hin => ?_
  · rw [Nat.mul_right_comm]
    exact Nat.not_lt.mp hshort
  · rw [← Nat.mul_assoc] at hin ⊢
    have hlength := List.length_drop (l := area) (i := row * width.toNat * 4 + x * 4)
    generalize area.drop (row * width.toNat * 4 + x * 4) = tail at hlength ⊢
    obtain _ | ⟨b, _ | ⟨g, _ | ⟨r, _ | ⟨a, rest⟩⟩⟩⟩ := tail
    case cons.cons.cons.cons => rfl
    all_goals
      simp only [List.length_cons, List.length_nil] at hlength
      omega

/-- The same with three bytes a pixel and rows that are rounded up. -/
theorem convert24bitDib_taken (hwidth : width.toNat ≤ 1431655764)
    (h : convert24bitDib area width height topDown = .ok image) :
    image.width = width ∧ image.height = height ∧
      TakenFrom image area ((width.toNat * 3 + 3) / 4 * 4) 3 topDown decodeBgr := by
  have hmodel := rowSize_eq hwidth
  rw [convert24bitDib] at h
  simp only [hmodel] at h
  have hpadded : width.toNat * 3 ≤ (width.toNat * 3 + 3) / 4 * 4 := by omega
  generalize (width.toNat * 3 + 3) / 4 * 4 = rowSize at h hpadded ⊢
  split_ifs at h with hshort
  refine takenFrom_of_imageOf "DIB" h hpadded (Nat.not_lt.mp hshort)
    fun row _ x _ hin => ?_
  have hlength := List.length_drop (l := area) (i := row * rowSize + x * 3)
  generalize area.drop (row * rowSize + x * 3) = tail at hlength ⊢
  obtain _ | ⟨b, _ | ⟨g, _ | ⟨r, rest⟩⟩⟩ := tail
  case cons.cons.cons => rfl
  all_goals
    simp only [List.length_cons, List.length_nil] at hlength
    omega

/-- The same with channels that are taken out by masks. -/
theorem convert32bitDibv5_taken {masks : ChannelMasks}
    (hsize : width.toNat * height.toNat * 4 < 2 ^ 64)
    (h : convert32bitDibv5 area width height topDown masks = .ok image) :
    image.width = width ∧ image.height = height ∧
      TakenFrom image area (width.toNat * 4) 4 topDown (decodeMasked masks) := by
  rw [convert32bitDibv5, Nat.mod_eq_of_lt hsize] at h
  by_cases hshort : area.length < width.toNat * height.toNat * 4
  · rw [if_pos hshort] at h
    cases h
  · rw [if_neg hshort] at h
    refine takenFrom_of_imageOf "DIBV5" h le_rfl ?_ fun row _ x _ hin => ?_
    · rw [Nat.mul_right_comm]
      exact Nat.not_lt.mp hshort
    · rw [← Nat.mul_assoc] at hin ⊢
      exact if_pos (show row * width.toNat * 4 + x * 4 + 3 < area.length by omega)

end Taken

/-! ### Safety -/

/-- No check fails, and an image is what the header declares. -/
def SafeDib (data : List UInt8) : Prop :=
  parseDibToImage? data = some (parseDibToImage data) ∧
    ∀ image, parseDibToImage data = .ok image →
      Shows image data (data.drop (readLe data 0 4)) decodeBgra

/-- No check fails, and an image is what the header declares, be it short or long. -/
def SafeDibv5 (data : List UInt8) : Prop :=
  parseDibv5ToImage? data = some (parseDibv5ToImage data) ∧
    ∀ image, parseDibv5ToImage data = .ok image →
      Shows image data (data.drop (readLe data 0 4))
        (if readLe data 0 4 = 40 then decodeBgra else decodeMasked (declaredMasks data))

section Safety

variable {data area : List UInt8} {image : DynamicImage} {decode : List UInt8 → Pixel}

/-- The declared size is that of the header's numbers. -/
theorem shows_of_declared (hwidth : image.width = declaredWidth data)
    (hheight : image.height = declaredHeight data)
    (hpixels : readLe data 14 2 = 32 ∧ TakenFrom image area (image.width.toNat * 4) 4
        (declaredTopDown data) decode ∨
      readLe data 14 2 = 24 ∧ TakenFrom image area ((image.width.toNat * 3 + 3) / 4 * 4) 3
        (declaredTopDown data) decodeBgr) :
    Shows image data area decode := by
  have htopDown : declaredTopDown data = decide (signed32 (readLe data 8 4) < 0) :=
    decide_eq_decide.mpr (unsignedAbs_eq (readLe_lt data 8)).2
  rw [htopDown] at hpixels
  refine ⟨?_, ?_, hpixels⟩
  · rw [hwidth]
    exact (unsignedAbs_eq (readLe_lt data 4)).1
  · rw [hheight]
    exact (unsignedAbs_eq (readLe_lt data 8)).1

/-- Without a fault of the size, 32 bits a pixel fit. -/
theorem size_of_sizeFault (h : ¬ SizeFault data) (hbits : readLe data 14 2 = 32) :
    (declaredWidth data).toNat * (declaredHeight data).toNat * 4 < 2 ^ 64 :=
  size32_lt (declaredWidth_le data) (declaredHeight_le data) fun hhuge => h (Or.inl ⟨hbits, hhuge⟩)

/-- What the parser of short headers returns. -/
theorem shows_of_parseDib (hfault : ¬ DibFault data) (h : parseDibToImage data = .ok image) :
    Shows image data (data.drop (readLe data 0 4)) decodeBgra := by
  have hcomplete : 40 ≤ data.length ∧ 40 ≤ readLe data 0 4 ∧ readLe data 0 4 < data.length := by
    rw [parseDibToImage] at h
    split_ifs at h with hlength hsize hdata
    exact ⟨by omega, by omega, by omega⟩
  obtain ⟨hlength, hsize, hdata⟩ := hcomplete
  have hfits : ¬ SizeFault data := fun hsizes => hfault ⟨hlength, hsize, hdata, hsizes⟩
  rw [parseDibToImage_eq hlength hsize hdata] at h
  split_ifs at h with h32 h24
  · obtain ⟨hwidth, hheight, htaken⟩ := convert32bitDib_taken (size_of_sizeFault hfits h32) h
    exact shows_of_declared hwidth hheight (Or.inl ⟨h32, hwidth ▸ htaken⟩)
  · obtain ⟨hwidth, hheight, htaken⟩ := convert24bitDib_taken
      (Nat.not_lt.mp fun hwide => hfits (Or.inr ⟨h24, hwide⟩)) h
    exact shows_of_declared hwidth hheight (Or.inr ⟨h24, hwidth ▸ htaken⟩)

theorem length_of_parseFullDibv5 (h : parseFullDibv5 data = .ok image) : 124 ≤ data.length := by
  by_contra hshort
  rw [parseFullDibv5, if_pos (Nat.not_le.mp hshort)] at h
  cases h

/-- What the parser of long headers returns. -/
theorem shows_of_parseFullDibv5 (hfault : ¬ SizeFault data) (h : parseFullDibv5 data = .ok image) :
    Shows image data (data.drop 124) (decodeMasked (declaredMasks data)) := by
  rw [parseFullDibv5_eq (length_of_parseFullDibv5 h)] at h
  split_ifs at h with h32 h24
  · obtain ⟨hwidth, hheight, htaken⟩ := convert32bitDibv5_taken (size_of_sizeFault hfault h32) h
    exact shows_of_declared hwidth hheight (Or.inl ⟨h32, hwidth ▸ htaken⟩)
  · obtain ⟨hwidth, hheight, htaken⟩ := convert24bitDib_taken
      (Nat.not_lt.mp fun hwide => hfault (Or.inr ⟨h24, hwide⟩)) h
    exact shows_of_declared hwidth hheight (Or.inr ⟨h24, hwidth ▸ htaken⟩)

end Safety

/-- **The bitmaps that are parsed safely**: all but those of which a size does not fit, and those
whose red, green or blue mask is zero. -/
theorem bitmap_safe_iff (data : List UInt8) :
    (SafeDib data ↔ ¬ DibFault data) ∧ (SafeDibv5 data ↔ ¬ Dibv5Fault data) := by
  constructor
  · constructor
    · rintro ⟨hchecked, -⟩ hfault
      rw [parseDibToImage?_eq_none hfault] at hchecked
      cases hchecked
    · exact fun hfault => ⟨parseDibToImage?_eq hfault, fun image => shows_of_parseDib hfault⟩
  · constructor
    · rintro ⟨hchecked, -⟩ hfault
      rw [parseDibv5ToImage?_eq_none hfault] at hchecked
      cases hchecked
    · intro hfault
      refine ⟨parseDibv5ToImage?_eq hfault, fun image himage => ?_⟩
      rw [Dibv5Fault, not_or] at hfault
      rw [parseDibv5ToImage] at himage
      split_ifs at himage with hsmall h40 h124
      · rw [if_pos h40]
        exact shows_of_parseDib (fun hdib => hfault.1 ⟨h40, hdib⟩) himage
      · have hlength := length_of_parseFullDibv5 himage
        rw [if_neg h40, h124]
        exact shows_of_parseFullDibv5 (fun hsizes => hfault.2 ⟨h124, hlength, Or.inl hsizes⟩) himage

/-- A bitmap of one pixel without a mask for red. -/
def zeroMaskDibv5 : List UInt8 :=
  natToLe 4 124 ++ natToLe 4 1 ++ natToLe 4 1 ++ natToLe 2 1 ++ natToLe 2 32 ++ natToLe 4 3 ++
    List.replicate 24 0 ++ natToLe 4 0x0000FF00 ++ natToLe 4 0x000000FF ++ List.replicate 72 0 ++
    [1, 2, 3, 4]

/-- A bitmap with rows that are too wide. -/
def wideDib : List UInt8 :=
  natToLe 4 40 ++ natToLe 4 1431655765 ++ natToLe 4 1 ++ natToLe 2 1 ++ natToLe 2 24 ++
    List.replicate 25 0

/-- A shift by 32, and a product that overflows. -/
theorem parsers_fault :
    ¬ (∀ data, SafeDib data) ∧ ¬ (∀ data, SafeDibv5 data) ∧
      parseDibToImage? wideDib = none ∧ parseDibv5ToImage? zeroMaskDibv5 = none := by
  have hwide : parseDibToImage? wideDib = none := by decide +kernel
  have hmask : parseDibv5ToImage? zeroMaskDibv5 = none := by decide +kernel
  refine ⟨fun hall => ?_, fun hall => ?_, hwide, hmask⟩
  · have hchecked := (hall wideDib).1
    rw [hwide] at hchecked
    cases hchecked
  · have hchecked := (hall zeroMaskDibv5).1
    rw [hmask] at hchecked
    cases hchecked

end Clipboard

end Cheirizo
