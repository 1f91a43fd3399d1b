import Cheirizo.Clipboard.Files
import Mathlib.Tactic.Ring

/-!
# Device-independent bitmaps

`src/rdp/channels/clipboard/core/image.rs`: conversion between DIB or DIBV5 payloads and encoded
images. Decoding and encoding PNG and JPEG is the work of an image library and enters as the
parameter `ImageCodec`; everything between the library and the wire is defined here.

Sizes are computed as the release build computes them: 32-bit and 64-bit products wrap, and a shift
amount is taken modulo the width.

## Main definitions

* `createDibFromImage`, `createDibv5FromImage` — headers and pixels sent to a client
* `parseDibToImage`, `parseDibv5ToImage` — payloads received from a client
* `pngToDib`, `dibToPng`, `dibToBmp`, … — the conversions the orchestrator uses
-/

namespace Cheirizo

namespace Clipboard

open Unicode FileDescriptor

/-- An RGBA pixel; an opaque one for images without alpha. -/
structure Pixel where
  red : UInt8
  green : UInt8
  blue : UInt8
  alpha : UInt8
  deriving DecidableEq, Repr

/-- The two kinds of pixels that decoded pictures have. -/
inductive ColorType where
  | rgb8
  | rgba8
  deriving DecidableEq, Repr

/-- A decoded image, in rows from the top. -/
structure DynamicImage where
  width : UInt32
  height : UInt32
  color : ColorType
  pixels : List Pixel
  size_eq : pixels.length = width.toNat * height.toNat
  deriving DecidableEq, Repr

/-- The image library: it decodes to RGBA and encodes what it can, or says why not. -/
structure ImageCodec where
  decodePng : List UInt8 → Except String DynamicImage
  decodeJpeg : List UInt8 → Except String DynamicImage
  encodePng : DynamicImage → Except String (List UInt8)
  encodeJpeg : DynamicImage → Except String (List UInt8)

/-- An image from a raw buffer, if the buffer holds all of its pixels. -/
def DynamicImage.fromRaw (width height : UInt32) (color : ColorType) (pixels : List Pixel) :
    Option DynamicImage :=
  if h : pixels.length = width.toNat * height.toNat then
    some { width, height, color, pixels, size_eq := h }
  else none

/-! ### Writing bitmaps -/

/-- A dimension as a signed 32-bit field. -/
def clampDimension (n : UInt32) : ℕ := min n.toNat (2 ^ 31 - 1)

/-- The negated dimension in two's complement, for rows from the top. -/
def negateDimension (n : UInt32) : ℕ := (2 ^ 32 - clampDimension n) % 2 ^ 32

/-- Multiplication of 32-bit numbers that stops at the largest. -/
def saturatingMul (a b : ℕ) : ℕ := min (a * b) (2 ^ 32 - 1)

/-- The number of bytes as the header has it, at most the largest number of 32 bits. -/
def imageSize (image : DynamicImage) : ℕ :=
  saturatingMul (saturatingMul image.width.toNat image.height.toNat) 4

/-- A pixel as bitmaps store it. -/
def bgraBytes (p : Pixel) : List UInt8 := [p.blue, p.green, p.red, p.alpha]

/-- A bitmap with the smallest header. Its height is negative, since the rows are stored from the
top. -/
def createDibFromImage (image : DynamicImage) : List UInt8 :=
  natToLe 4 40 ++ natToLe 4 (clampDimension image.width) ++
    natToLe 4 (negateDimension image.height) ++ natToLe 2 1 ++ natToLe 2 32 ++ natToLe 4 0 ++
    natToLe 4 (imageSize image) ++ List.replicate 16 0 ++ image.pixels.flatMap bgraBytes

/-- A bitmap with the header of version 5, which names the channels. -/
def createDibv5FromImage (image : DynamicImage) : List UInt8 :=
  natToLe 4 124 ++ natToLe 4 (clampDimension image.width) ++
    natToLe 4 (negateDimension image.height) ++ natToLe 2 1 ++ natToLe 2 32 ++ natToLe 4 3 ++
    natToLe 4 (imageSize image) ++ List.replicate 16 0 ++
    -- Channel masks, then the sRGB colour space.
    natToLe 4 0x00FF0000 ++ natToLe 4 0x0000FF00 ++ natToLe 4 0x000000FF ++ natToLe 4 0xFF000000 ++
    natToLe 4 0x73524742 ++ List.replicate 48 0 ++
    -- Rendering intent, and no colour profile.
    natToLe 4 2 ++ List.replicate 12 0 ++ image.pixels.flatMap bgraBytes

/-! ### Reading bitmaps -/

/-- The magnitude of a signed 32-bit field. -/
def unsignedAbs (n : ℕ) : UInt32 := UInt32.ofNat (if n < 2 ^ 31 then n else 2 ^ 32 - n)

/-- The error of a bitmap that ends too early. -/
def insufficientPixels (what : String) (actual expected : ℕ) : CoreError :=
  .imageDecode (what ++ toString actual ++ " < " ++ toString expected)

/-- Read the pixels at `offset row column`, rows in stored or reversed order; a pixel that is not
there is left out. -/
def readPixels (width height : UInt32) (topDown : Bool) (pixelAt : ℕ → ℕ → Option Pixel) :
    List Pixel :=
  (List.range height.toNat).flatMap fun y =>
    let row := if topDown then y else height.toNat - 1 - y
    (List.range width.toNat).filterMap fun x => pixelAt row x

/-- The pixels of a bitmap in four bytes each. -/
def convert32bitDib (pixelData : List UInt8) (width height : UInt32) (topDown : Bool) :
    Except CoreError DynamicImage :=
  let expected := width.toNat * height.toNat * 4 % 2 ^ 64
  if pixelData.length < expected then
    .error (insufficientPixels "Insufficient pixel data: " pixelData.length expected)
  else
    let pixels := readPixels width height topDown fun row x =>
      match pixelData.drop (row * width.toNat * 4 + x * 4) with
      | b :: g :: r :: a :: _ => some ⟨r, g, b, a⟩
      | _ => none
    match DynamicImage.fromRaw width height .rgba8 pixels with
    | some image => .ok image
    | none => .error (.imageDecode "Failed to create image from DIB")

/-- The pixels of a bitmap in three bytes each. The products are made in 32 bits. -/
def convert24bitDib (pixelData : List UInt8) (width height : UInt32) (topDown : Bool) :
    Except CoreError DynamicImage :=
  -- Rows are aligned to four bytes.
  let rowSize := (width.toNat * 3 % 2 ^ 32 + 3) / 4 * 4 % 2 ^ 32
  let expected := rowSize * height.toNat
  if pixelData.length < expected then
    .error (insufficientPixels "Insufficient pixel data: " pixelData.length expected)
  else
    let pixels := readPixels width height topDown fun row x =>
      match pixelData.drop (row * rowSize + x * 3) with
      | b :: g :: r :: _ => some ⟨r, g, b, 255⟩
      | _ => none
    match DynamicImage.fromRaw width height .rgb8 pixels with
    | some image => .ok image
    | none => .error (.imageDecode "Failed to create image from DIB")

/-- The header names its own length, and what follows it are pixels. -/
def parseDibToImage (data : List UInt8) : Except CoreError DynamicImage :=
  if data.length < 40 then .error (.imageDecode "DIB too small")
  else if readLe data 0 4 < 40 then .error (.imageDecode "Invalid DIB header size")
  else if data.length ≤ readLe data 0 4 then .error (.imageDecode "DIB header larger than data")
  else
    let width := unsignedAbs (readLe data 4 4)
    let height := unsignedAbs (readLe data 8 4)
    let topDown : Bool := 2 ^ 31 ≤ readLe data 8 4
    let bitCount := readLe data 14 2
    let pixelData := data.drop (readLe data 0 4)
    if bitCount = 32 then convert32bitDib pixelData width height topDown
    else if bitCount = 24 then convert24bitDib pixelData width height topDown
    else .error (.imageDecode ("Unsupported DIB bit depth: " ++ toString bitCount))

/-- The number of trailing zero bits; 32 for zero. -/
def trailingZeros (mask : UInt32) : ℕ :=
  ((List.range 32).find? fun i => mask.toNat.testBit i).getD 32

/-- One colour channel of a packed pixel. -/
def channel (pixel mask : UInt32) : UInt8 :=
  ((pixel &&& mask) >>> UInt32.ofNat (trailingZeros mask)).toUInt8

/-- Channel masks of a packed pixel. -/
structure ChannelMasks where
  red : UInt32
  green : UInt32
  blue : UInt32
  alpha : UInt32

/-- The same with channels where the header says they are. -/
def convert32bitDibv5 (pixelData : List UInt8) (width height : UInt32) (topDown : Bool)
    (masks : ChannelMasks) : Except CoreError DynamicImage :=
  let expected := width.toNat * height.toNat * 4 % 2 ^ 64
  if pixelData.length < expected then
    .error (insufficientPixels "Insufficient DIBV5 pixel data: " pixelData.length expected)
  else
    let pixels := readPixels width height topDown fun row x =>
      let offset := row * width.toNat * 4 + x * 4
      if offset + 3 < pixelData.length then
        let pixel := UInt32.ofNat (readLe pixelData offset 4)
        some ⟨channel pixel masks.red, channel pixel masks.green, channel pixel masks.blue,
          if masks.alpha ≠ 0 then channel pixel masks.alpha else 255⟩
      else none
    match DynamicImage.fromRaw width height .rgba8 pixels with
    | some image => .ok image
    | none => .error (.imageDecode "Failed to create image from DIBV5")

/-- A header of version 5 has a fixed length. -/
def parseFullDibv5 (data : List UInt8) : Except CoreError DynamicImage :=
  if data.length < 124 then .error (.imageDecode "DIBV5 data too small for header")
  else
    let width := unsignedAbs (readLe data 4 4)
    let height := unsignedAbs (readLe data 8 4)
    let topDown : Bool := 2 ^ 31 ≤ readLe data 8 4
    let bitCount := readLe data 14 2
    let mask := fun offset => UInt32.ofNat (readLe data offset 4)
    let masks : ChannelMasks :=
      if readLe data 16 4 = 3 then ⟨mask 40, mask 44, mask 48, mask 52⟩
      else ⟨0x00FF0000, 0x0000FF00, 0x000000FF, 0xFF000000⟩
    let pixelData := data.drop 124
    if bitCount = 32 then convert32bitDibv5 pixelData width height topDown masks
    else if bitCount = 24 then convert24bitDib pixelData width height topDown
    else .error (.imageDecode ("Unsupported DIBV5 bit depth: " ++ toString bitCount))

/-- Clients send either header under the name of the newer format. -/
def parseDibv5ToImage (data : List UInt8) : Except CoreError DynamicImage :=
  if data.length < 4 then .error (.imageDecode "DIBV5 too small")
  else if readLe data 0 4 = 40 then parseDibToImage data
  else if readLe data 0 4 = 124 then parseFullDibv5 data
  else .error (.imageDecode ("Invalid DIBV5 header size: " ++ toString (readLe data 0 4) ++
    " (expected 40 or 124)"))

/-! ### Conversions -/

variable (codec : ImageCodec)

/-- Decode with the library, then write a bitmap. -/
def decodeTo (decode : List UInt8 → Except String DynamicImage)
    (create : DynamicImage → List UInt8) (data : List UInt8) : Except CoreError (List UInt8) :=
  match decode data with
  | .ok image => .ok (create image)
  | .error e => .error (.imageDecode e)

/-- Parse a bitmap, then encode with the library. -/
def encodeFrom (parse : List UInt8 → Except CoreError DynamicImage)
    (encode : DynamicImage → Except String (List UInt8)) (data : List UInt8) :
    Except CoreError (List UInt8) :=
  match parse data with
  | .error e => .error e
  | .ok image =>
    match encode image with
    | .ok bytes => .ok bytes
    | .error e => .error (.imageEncode e)

/-- A PNG file as a bitmap. -/
def pngToDib : List UInt8 → Except CoreError (List UInt8) :=
  decodeTo codec.decodePng createDibFromImage

/-- A JPEG file as a bitmap. -/
def jpegToDib : List UInt8 → Except CoreError (List UInt8) :=
  decodeTo codec.decodeJpeg createDibFromImage

/-- A PNG file as a bitmap with the header of version 5. -/
def pngToDibv5 : List UInt8 → Except CoreError (List UInt8) :=
  decodeTo codec.decodePng createDibv5FromImage

/-- A JPEG file as a bitmap with the header of version 5. -/
def jpegToDibv5 : List UInt8 → Except CoreError (List UInt8) :=
  decodeTo codec.decodeJpeg createDibv5FromImage

/-- A bitmap as a PNG file. -/
def dibToPng : List UInt8 → Except CoreError (List UInt8) :=
  encodeFrom parseDibToImage codec.encodePng

/-- A bitmap as a JPEG file. -/
def dibToJpeg : List UInt8 → Except CoreError (List UInt8) :=
  encodeFrom parseDibToImage codec.encodeJpeg

/-- A bitmap with either header as a PNG file. -/
def dibv5ToPng : List UInt8 → Except CoreError (List UInt8) :=
  encodeFrom parseDibv5ToImage codec.encodePng

/-- A bitmap with either header as a JPEG file. -/
def dibv5ToJpeg : List UInt8 → Except CoreError (List UInt8) :=
  encodeFrom parseDibv5ToImage codec.encodeJpeg

/-- Only the file header is taken off. Where it says the pixels begin is not looked at. -/
def bmpToDib (data : List UInt8) : Except CoreError (List UInt8) :=
  if data.length < 14 then .error (.imageDecode "BMP file too small")
  else if data.take 2 ≠ [0x42, 0x4D] then .error (.imageDecode "Invalid BMP signature")
  else .ok (data.drop 14)

/-- The pixels are said to begin behind the smallest header. -/
def dibToBmp (data : List UInt8) : Except CoreError (List UInt8) :=
  if data.length < 40 then .error (.imageDecode "DIB too small")
  else if 2 ^ 32 ≤ 14 + data.length then .error (.imageDecode "DIB too large")
  else
    .ok ([0x42, 0x4D] ++ natToLe 4 (14 + data.length) ++ natToLe 2 0 ++ natToLe 2 0 ++
      natToLe 4 54 ++ data)

end Clipboard

end Cheirizo
