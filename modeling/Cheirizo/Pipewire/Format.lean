import Cheirizo.Lib.Buffer
import Mathlib.Data.UInt

/-!
# Captured frames and their pixel formats

`desktop/pipewire/format.rs` and the frame of `desktop/pipewire/frame.rs`. A captured frame is a
buffer of rows, a stride apart, in one of ten formats. `convertFormat` copies it into another buffer
in the same format, or turns it into BGRA.

## Where the code stops

Every access to a buffer is checked, and a function answers `none` where the code panics. Positions
are computed in 32 bits and wrap around; `u32` says where.

## Main definitions

* `PixelFormat`, `VideoFrame` — the data
* `yuvToRgb` — the colour of a sample
* `convertFormat` — the conversion
-/

namespace Cheirizo

namespace Pipewire

open Buffer

/-! ### Frames -/

/-- The formats a frame is captured in. -/
inductive PixelFormat where
  | bgra
  | bgrx
  | rgba
  | rgbx
  | rgb
  | bgr
  | gray8
  | nv12
  | yuy2
  | i420
  deriving DecidableEq, Repr

namespace PixelFormat

/-- Of the packed formats, and of the first plane of the others. -/
def bytesPerPixel : PixelFormat → ℕ
  | bgra | bgrx | rgba | rgbx => 4
  | rgb | bgr => 3
  | gray8 => 1
  | nv12 | i420 => 1
  | yuy2 => 2

/-- The name of a format in messages. -/
def name : PixelFormat → String
  | bgra => "BGRA"
  | bgrx => "BGRx"
  | rgba => "RGBA"
  | rgbx => "RGBx"
  | rgb => "RGB"
  | bgr => "BGR"
  | gray8 => "GRAY8"
  | nv12 => "NV12"
  | yuy2 => "YUY2"
  | i420 => "I420"

theorem bytesPerPixel_pos (format : PixelFormat) : 0 < format.bytesPerPixel := by
  cases format <;> decide

end PixelFormat

/-- A part of the screen that changed. -/
structure FfiDamageRegion where
  x : Int32
  y : Int32
  width : UInt32
  height : UInt32
  deriving DecidableEq, Repr

/-- The flag of a frame whose contents are not to be trusted. -/
def CORRUPTED : UInt32 := (1 : UInt32) <<< 3

/-- The flag of a frame that is missing a part. -/
def INCOMPLETE : UInt32 := (1 : UInt32) <<< 4

/-- A captured frame. -/
structure VideoFrame where
  width : UInt32
  height : UInt32
  stride : UInt32
  format : PixelFormat
  data : List UInt8
  damageRegions : List FfiDamageRegion
  flags : UInt32
  deriving DecidableEq, Repr

/-- There is a picture, and nothing is wrong with it. -/
def VideoFrame.isValid (frame : VideoFrame) : Bool :=
  frame.data ≠ [] && frame.flags &&& CORRUPTED = 0 && frame.flags &&& INCOMPLETE = 0

/-! ### Colours -/

/-- The four bytes of a pixel. -/
structure Bgra where
  b : UInt8
  g : UInt8
  r : UInt8
  a : UInt8
  deriving DecidableEq, Repr

/-- The number in the range that is nearest. -/
def clamp (val min max : Int32) : Int32 :=
  if val < min then min else if max < val then max else val

/-- The lowest byte of a value. -/
def asU8 (val : Int32) : UInt8 := val.toUInt32.toUInt8

/-- A colour from its brightness and the two differences, in whole numbers. -/
def yuvToRgb (y u v : Int32) : UInt8 × UInt8 × UInt8 :=
  let c := y - 16
  let d := u - 128
  let e := v - 128
  let r := (298 * c + 409 * e + 128) >>> 8
  let g := (298 * c - 100 * d - 208 * e + 128) >>> 8
  let b := (298 * c + 516 * d + 128) >>> 8
  (asU8 (clamp r 0 255), asU8 (clamp g 0 255), asU8 (clamp b 0 255))

/-- A byte as a 32-bit value. -/
def asI32 (byte : UInt8) : Int32 := byte.toUInt32.toInt32

/-- An opaque pixel of the colour of three samples. -/
def yuvPixel (y u v : UInt8) : Bgra :=
  let (r, g, b) := yuvToRgb (asI32 y) (asI32 u) (asI32 v)
  ⟨b, g, r, 255⟩

/-! ### Conversions -/

/-- The value of a computation in 32 bits. -/
def u32 (n : ℕ) : ℕ := n % 2 ^ 32

theorem u32_eq {n : ℕ} (h : n < 2 ^ 32) : u32 n = n :=
  Nat.mod_eq_of_lt h

/-- Write a pixel, byte by byte. -/
def putBgra (dst : List UInt8) (dstIdx : ℕ) (pixel : Bgra) : Option (List UInt8) := do
  let dst ← put dst dstIdx pixel.b
  let dst ← put dst (dstIdx + 1) pixel.g
  let dst ← put dst (dstIdx + 2) pixel.r
  put dst (dstIdx + 3) pixel.a

/-- The loop over the rows of two buffers. The body gets the rest of the source from the row on and
where the row starts in the destination. -/
def forRows (src dst : List UInt8) (height srcStride dstStride : ℕ)
    (body : List UInt8 → ℕ → List UInt8 → Option (List UInt8)) : Option (List UInt8) :=
  (List.range height).foldlM (fun dst y => do
    let srcRow ← suffix src (u32 (y * srcStride))
    let _ ← suffix dst (u32 (y * dstStride))
    body srcRow (u32 (y * dstStride)) dst) dst

/-- The loop over packed pixels of some bytes each. `pixel` gets the byte of a channel. -/
def convertPacked (bytes : ℕ) (pixel : (ℕ → Option UInt8) → Option Bgra) (src dst : List UInt8)
    (width height srcStride dstStride : ℕ) : Option (List UInt8) :=
  forRows src dst height srcStride dstStride fun srcRow dstOffset dst =>
    (List.range width).foldlM (fun dst x => do
      let colour ← pixel fun channel => srcRow[x * bytes + channel]?
      putBgra dst (dstOffset + x * 4) colour) dst

/-- Three bytes to four. The pixels are opaque. -/
def convertRgbToBgra (src dst : List UInt8) (width height srcStride dstStride : ℕ) :
    Option (List UInt8) :=
  convertPacked 3 (fun byte => do return ⟨← byte 2, ← byte 1, ← byte 0, 255⟩) src dst width height
    srcStride dstStride

/-- Red and blue change places. -/
def convertRgbaToBgra (src dst : List UInt8) (width height srcStride dstStride : ℕ) :
    Option (List UInt8) :=
  convertPacked 4 (fun byte => do return ⟨← byte 2, ← byte 1, ← byte 0, ← byte 3⟩) src dst width
    height srcStride dstStride

/-- Three bytes to four. The pixels are opaque. -/
def convertBgrToBgra (src dst : List UInt8) (width height srcStride dstStride : ℕ) :
    Option (List UInt8) :=
  convertPacked 3 (fun byte => do return ⟨← byte 0, ← byte 1, ← byte 2, 255⟩) src dst width height
    srcStride dstStride

/-- The strides are not asked for. -/
def convertNv12ToBgra (src dst : List UInt8) (width height : ℕ) : Option (List UInt8) := do
  let yPlane ← slice src 0 (u32 (width * height))
  let uvPlane ← suffix src (u32 (width * height))
  (List.range height).foldlM (fun dst y =>
    (List.range width).foldlM (fun dst x => do
      let yVal ← yPlane[u32 (y * width + x)]?
      let uvX := x / 2
      let uvY := y / 2
      let uvIdx := u32 (uvY * width + uvX * 2)
      let uVal ← uvPlane[uvIdx]?
      let vVal ← uvPlane[uvIdx + 1]?
      let c := asI32 yVal - 16
      let d := asI32 uVal - 128
      let e := asI32 vVal - 128
      let r := (298 * c + 409 * e + 128) >>> 8
      let g := (298 * c - 100 * d - 208 * e + 128) >>> 8
      let b := (298 * c + 516 * d + 128) >>> 8
      putBgra dst (u32 ((y * width + x) * 4))
        ⟨asU8 (clamp b 0 255), asU8 (clamp g 0 255), asU8 (clamp r 0 255), 255⟩) dst) dst

/-- Two pixels share two samples. Four bytes are read even if there is only one pixel left. -/
def convertYuy2ToBgra (src dst : List UInt8) (width height srcStride dstStride : ℕ) :
    Option (List UInt8) :=
  forRows src dst height srcStride dstStride fun srcRow dstOffset dst =>
    (List.range' 0 ((width + 1) / 2) 2).foldlM (fun dst x => do
      let y0 ← srcRow[x * 2]?
      let u ← srcRow[x * 2 + 1]?
      let y1 ← srcRow[x * 2 + 2]?
      let v ← srcRow[x * 2 + 3]?
      let dst ← putBgra dst (dstOffset + x * 4) (yuvPixel y0 u v)
      if x + 1 < width then putBgra dst (dstOffset + (x + 1) * 4) (yuvPixel y1 u v)
      else some dst) dst

/-- The strides are not asked for. -/
def convertI420ToBgra (src dst : List UInt8) (width height : ℕ) : Option (List UInt8) := do
  let yPlaneSize := u32 (width * height)
  let uvPlaneSize := yPlaneSize / 4
  let yPlane ← slice src 0 yPlaneSize
  let uPlane ← slice src yPlaneSize (yPlaneSize + uvPlaneSize)
  let vPlane ← suffix src (yPlaneSize + uvPlaneSize)
  (List.range height).foldlM (fun dst y =>
    (List.range width).foldlM (fun dst x => do
      let yVal ← yPlane[u32 (y * width + x)]?
      let uvX := x / 2
      let uvY := y / 2
      let uvIdx := u32 (u32 (uvY * width) / 2 + uvX)
      let uVal ← uPlane[uvIdx]?
      let vVal ← vPlane[uvIdx]?
      putBgra dst (u32 ((y * width + x) * 4)) (yuvPixel yVal uVal vVal)) dst) dst

/-- Why there is no conversion. -/
inductive PipeWireError where
  | formatConversionFailed (message : String)
  deriving DecidableEq, Repr

/-- The copy where nothing is to be converted: all at once, or the first plane row by row. -/
def copySame (src dst : List UInt8) (rowBytes height stride : ℕ) : Option (List UInt8) :=
  if rowBytes = stride then copyInto dst 0 src
  else
    (List.range height).foldlM (fun dst y => do
      let row ← slice src (u32 (y * stride)) (u32 (y * stride) + rowBytes)
      copyInto dst (u32 (y * stride)) row) dst

/-- Rows of one format and one stride are copied. Of the others only conversions to BGRA are
known. -/
def convertFormat (src dst : List UInt8) (srcFormat dstFormat : PixelFormat)
    (width height srcStride dstStride : UInt32) : Option (Except PipeWireError (List UInt8)) :=
  let w := width.toNat
  let h := height.toNat
  let ss := srcStride.toNat
  let ds := dstStride.toNat
  if srcFormat = dstFormat ∧ srcStride = dstStride then
    (copySame src dst (u32 (w * srcFormat.bytesPerPixel)) h ss).map .ok
  else
    match srcFormat, dstFormat with
    | .rgb, .bgra => (convertRgbToBgra src dst w h ss ds).map .ok
    | .rgba, .bgra => (convertRgbaToBgra src dst w h ss ds).map .ok
    | .bgr, .bgra => (convertBgrToBgra src dst w h ss ds).map .ok
    | .nv12, .bgra => (convertNv12ToBgra src dst w h).map .ok
    | .yuy2, .bgra => (convertYuy2ToBgra src dst w h ss ds).map .ok
    | .i420, .bgra => (convertI420ToBgra src dst w h).map .ok
    | _, _ => some (.error (.formatConversionFailed
        s!"Unsupported conversion: {srcFormat.name} -> {dstFormat.name}"))

end Pipewire

end Cheirizo
