import Cheirizo.Pipewire.Format

/-!
# Reshaping frames

`rdp/server/display_handler.rs`. A captured frame is brought into another shape before it is
encoded: the padding between its rows is dropped, its right and bottom edges are repeated up to a
multiple of what the encoder takes, or it is turned upside down. Each time the pixels are copied one
by one or row by row, and each has to arrive where it belongs.

## Main definitions

* `compactFrame`, `padFrameToAligned`, `flipFrameVertical`, `rotateFrame180` — the copies
* `WellSized` — the frames they are meant for

## Main results

* `copyFrameWithTransform_spec`, `compactFrame_spec`, `padFrameToAligned_spec` — where pixels go
* `reshaping_keeps_pixels` — no pixel is lost or misplaced
-/

namespace Cheirizo

namespace Server

open Buffer Pipewire

/-! ### The copies -/

/-- Tight rows of the pixels at `srcXy`. -/
def copyPixels (data : List UInt8) (width height srcStride bytesPerPixel : ℕ)
    (srcXy : ℕ → ℕ → ℕ × ℕ) : Option (List UInt8) :=
  let dstStride := width * bytesPerPixel
  (List.range height).foldlM (fun dst y =>
    (List.range width).foldlM (fun dst x => do
      let (srcX, srcY) := srcXy x y
      let srcOffset := srcY * srcStride + srcX * bytesPerPixel
      let dstOffset := y * dstStride + x * bytesPerPixel
      let pixel ← slice data srcOffset (srcOffset + bytesPerPixel)
      copyInto dst dstOffset pixel) dst) (List.replicate (dstStride * height) 0)

/-- A frame too small for its geometry stays as it is. -/
def copyFrameWithTransform (frame : VideoFrame) (srcXy : ℕ → ℕ → ℕ → ℕ → ℕ × ℕ) :
    Option VideoFrame :=
  let bytesPerPixel := frame.format.bytesPerPixel
  let width := frame.width.toNat
  let height := frame.height.toNat
  let srcStride := frame.stride.toNat
  let dstStride := width * bytesPerPixel
  if width = 0 ∨ height = 0 ∨ bytesPerPixel = 0 then some frame
  else
    let requiredSrcLen := srcStride * (height - 1) + dstStride
    if frame.data.length < requiredSrcLen then some frame
    else do
      let transformed ← copyPixels frame.data width height srcStride bytesPerPixel
        fun x y => srcXy x y width height
      return {
        frame with
        stride := .ofNat dstStride
        data := transformed
        damageRegions := [] }

/-- The rows in the other order. -/
def flipFrameVertical (frame : VideoFrame) : Option VideoFrame :=
  copyFrameWithTransform frame fun x y _ height => (x, height - 1 - y)

/-- The rows in the other order, and the pixels of each. -/
def rotateFrame180 (frame : VideoFrame) : Option VideoFrame :=
  copyFrameWithTransform frame fun x y width height => (width - 1 - x, height - 1 - y)

/-- The row of a frame of four bytes per pixel, and its last pixel up to the aligned width. -/
def padRow (data : List UInt8) (width alignedWidth srcStride dstStride y : ℕ)
    (padded : List UInt8) : Option (List UInt8) := do
  let srcOffset := u32 (y * srcStride)
  let dstOffset := u32 (y * dstStride)
  let row ← slice data srcOffset (srcOffset + srcStride)
  let padded ← copyInto padded dstOffset row
  if width < alignedWidth then
    let lastPixelSrc := srcOffset + u32 (srcStride + 2 ^ 32 - 4)
    (List.range' width (alignedWidth - width)).foldlM (fun padded x => do
      let pixel ← slice data lastPixelSrc (lastPixelSrc + 4)
      copyInto padded (u32 (y * dstStride + x * 4)) pixel) padded
  else some padded

/-- The last row again, up to the aligned height. -/
def padBottom (height alignedHeight dstStride : ℕ) (padded : List UInt8) : Option (List UInt8) :=
  if height < alignedHeight then do
    let lastRowOffset := u32 ((height + 2 ^ 32 - 1) * dstStride)
    let lastRow ← slice padded lastRowOffset (lastRowOffset + dstStride)
    (List.range' height (alignedHeight - height)).foldlM (fun padded y =>
      copyInto padded (u32 (y * dstStride)) lastRow) padded
  else some padded

/-- The rows are made longer by their last pixel, and the last row is repeated. -/
def padFrameToAligned (data : List UInt8) (width height alignedWidth alignedHeight : UInt32) :
    Option (List UInt8) := do
  let srcStride := u32 (width.toNat * 4)
  let dstStride := u32 (alignedWidth.toNat * 4)
  let padded := List.replicate (u32 (alignedWidth.toNat * alignedHeight.toNat * 4)) 0
  let padded ← (List.range height.toNat).foldlM (fun padded y =>
    padRow data width.toNat alignedWidth.toNat srcStride dstStride y padded) padded
  padBottom height.toNat alignedHeight.toNat dstStride padded

/-- The rows of a buffer without what is between them. -/
def compactRows (data : List UInt8) (height stride rowBytes : ℕ) : Option (List UInt8) :=
  (List.range height).foldlM (fun compact y => do
    let srcOffset := u32 (y * stride)
    let row ← slice data srcOffset (srcOffset + rowBytes)
    copyInto compact (u32 (y * rowBytes)) row) (List.replicate (u32 (rowBytes * height)) 0)

/-- The rows without what is behind them. -/
def compactFrame (frame : VideoFrame) : Option VideoFrame :=
  let rowBytes := min (frame.width.toNat * frame.format.bytesPerPixel) (2 ^ 32 - 1)
  let height := frame.height.toNat
  let stride := frame.stride.toNat
  if stride = rowBytes then some frame
  else
    let requiredLen := (height - 1) * stride + rowBytes
    if frame.data.length < requiredLen then some frame
    else do
      let compact ← compactRows frame.data height stride rowBytes
      return { frame with stride := .ofNat rowBytes, data := compact, damageRegions := [] }

/-! ### Where pixels go -/

/-- A frame with pixels, whose rows do not overlap and are all there, small enough for positions in
32 bits. -/
structure WellSized (frame : VideoFrame) : Prop where
  width_pos : 0 < frame.width.toNat
  height_pos : 0 < frame.height.toNat
  row_le : frame.width.toNat * frame.format.bytesPerPixel ≤ frame.stride.toNat
  data_le : (frame.height.toNat - 1) * frame.stride.toNat +
    frame.width.toNat * frame.format.bytesPerPixel ≤ frame.data.length
  small : (frame.height.toNat - 1) * frame.stride.toNat +
    frame.width.toNat * frame.format.bytesPerPixel < 2 ^ 32

/-- The pixel of a frame. -/
def pixelOf (frame : VideoFrame) (x y : ℕ) : List UInt8 :=
  pixelAt frame.data frame.stride.toNat frame.format.bytesPerPixel x y

/-- A frame with tight rows, whose pixels are those of another one at `src`. -/
structure TightCopy (frame out : VideoFrame) (src : ℕ → ℕ → ℕ × ℕ) : Prop where
  width_eq : out.width = frame.width
  height_eq : out.height = frame.height
  format_eq : out.format = frame.format
  stride_eq : out.stride.toNat = frame.width.toNat * frame.format.bytesPerPixel
  data_le : frame.height.toNat * (frame.width.toNat * frame.format.bytesPerPixel) ≤ out.data.length
  pixel_eq : ∀ x < frame.width.toNat, ∀ y < frame.height.toNat,
    pixelOf out x y = pixelOf frame (src x y).1 (src x y).2

/-! ### Cells -/

/-- The cells of a picture put together from the pixels of a buffer at `src`. -/
def copiedCell (data : List UInt8) (ss b : ℕ) (src : ℕ → ℕ → ℕ × ℕ) (k y : ℕ) : UInt8 :=
  data.getD ((src (k / b) y).2 * ss + ((src (k / b) y).1 * b + k % b)) 0

section Cells

variable {data l : List UInt8} {s ss b : ℕ} (src : ℕ → ℕ → ℕ × ℕ) (x y : ℕ)

theorem copiedCell_eq {c : ℕ} (hc : c < b)
    (hin : (src x y).2 * ss + (src x y).1 * b + b ≤ data.length) :
    data[(src x y).2 * ss + ((src x y).1 * b + c)]? =
      some (copiedCell data ss b src (x * b + c) y) := by
  rw [copiedCell, raster_div hc, raster_mod hc, List.getD_eq_getElem _ _ (by omega),
    List.getElem?_eq_getElem]

/-- A pixel with the cells of a copied one is copied. -/
theorem pixelAt_of_cells (hin : (src x y).2 * ss + (src x y).1 * b + b ≤ data.length)
    (hl : ∀ c < b, l[y * s + (x * b + c)]? = some (copiedCell data ss b src (x * b + c) y)) :
    pixelAt l s b x y = pixelAt data ss b (src x y).1 (src x y).2 := by
  refine pixelAt_congr fun c hc => ?_
  rw [hl c hc, copiedCell_eq src x y hc hin]

end Cells

theorem copyPixels_spec {data : List UInt8} {w h ss b : ℕ} (src : ℕ → ℕ → ℕ × ℕ)
    (hin : ∀ x < w, ∀ y < h, (src x y).2 * ss + (src x y).1 * b + b ≤ data.length) :
    ∃ l, copyPixels data w h ss b src = some l ∧ l.length = w * b * h ∧
      ∀ x < w, ∀ y < h,
        pixelAt l (w * b) b x y = pixelAt data ss b (src x y).1 (src x y).2 := by
  have hturn : ∀ y < h, ∀ x < w, Writes (w * b * h)
      (fun dst => do
        let (srcX, srcY) := src x y
        let srcOffset := srcY * ss + srcX * b
        let dstOffset := y * (w * b) + x * b
        let pixel ← slice data srcOffset (srcOffset + b)
        copyInto dst dstOffset pixel)
      (fun i => ∃ c < b, i = y * (w * b) + (x * b + c))
      (rowVal (w * b) (copiedCell data ss b src)) := by
    intro y hy x hx
    obtain ⟨pixel, hpixel, rfl, hcells⟩ := exists_slice (hin x hx y hy)
    have hfits : y * (w * pixel.length) + (x * pixel.length + pixel.length) ≤
        w * pixel.length * h := by
      rw [Nat.mul_comm _ h]
      exact (Nat.add_le_add_left (raster_le hx) _).trans (raster_le hy)
    refine (writes_copyInto_row (raster_le hx) hfits fun c hc => ?_).of_eq fun dst _ => ?_
    · have hcell := copiedCell_eq src x y hc (hin x hx y hy)
      rw [← Nat.add_assoc, ← hcells c hc, List.getElem?_eq_getElem hc] at hcell
      exact (Option.some_inj.mp hcell).symm
    · show (slice data _ _ >>= _) = _
      rw [hpixel]
      rfl
  obtain ⟨l, hl, hlength, hcells⟩ := (writes_raster hturn).eq_some
    (l := List.replicate (w * b * h) 0) List.length_replicate
  refine ⟨l, hl, hlength, fun x hx y hy => ?_⟩
  refine pixelAt_of_cells src x y (hin x hx y hy) fun c hc => ?_
  rw [hcells _ ⟨y, hy, x, hx, c, hc, rfl⟩, rowVal_apply (raster_lt hx hc)]

/-! ### Frames -/

section Frames

variable {frame : VideoFrame}

namespace WellSized

/-- All of a frame's pixels are there. -/
theorem pixel_le (h : WellSized frame) {x y : ℕ} (hx : x < frame.width.toNat)
    (hy : y < frame.height.toNat) :
    y * frame.stride.toNat + x * frame.format.bytesPerPixel + frame.format.bytesPerPixel ≤
      frame.data.length :=
  calc y * frame.stride.toNat + x * frame.format.bytesPerPixel + frame.format.bytesPerPixel
      ≤ (frame.height.toNat - 1) * frame.stride.toNat +
          frame.width.toNat * frame.format.bytesPerPixel := by
        rw [Nat.add_assoc]
        exact Nat.add_le_add (Nat.mul_le_mul_right _ (Nat.le_sub_one_of_lt hy)) (raster_le hx)
    _ ≤ frame.data.length := h.data_le

/-- Tight rows take no more room than those of the frame. -/
theorem tight_le (h : WellSized frame) :
    frame.height.toNat * (frame.width.toNat * frame.format.bytesPerPixel) ≤
      (frame.height.toNat - 1) * frame.stride.toNat +
        frame.width.toNat * frame.format.bytesPerPixel := by
  obtain ⟨n, hn⟩ := Nat.exists_eq_add_of_lt h.height_pos
  rw [hn, Nat.zero_add, Nat.add_sub_cancel, Nat.succ_mul]
  exact Nat.add_le_add_right (Nat.mul_le_mul_left n h.row_le) _

theorem row_lt (h : WellSized frame) :
    frame.width.toNat * frame.format.bytesPerPixel < 2 ^ 32 :=
  Nat.lt_of_le_of_lt (Nat.le_add_left _ _) h.small

end WellSized

/-- The pixels of a transformed frame come from where the transformation looks. -/
theorem copyFrameWithTransform_spec (h : WellSized frame) {srcXy : ℕ → ℕ → ℕ → ℕ → ℕ × ℕ}
    (hsrc : ∀ x < frame.width.toNat, ∀ y < frame.height.toNat,
      (srcXy x y frame.width.toNat frame.height.toNat).1 < frame.width.toNat ∧
        (srcXy x y frame.width.toNat frame.height.toNat).2 < frame.height.toNat) :
    ∃ out, copyFrameWithTransform frame srcXy = some out ∧
      TightCopy frame out fun x y => srcXy x y frame.width.toNat frame.height.toNat := by
  obtain ⟨l, hl, hlength, hpixels⟩ := copyPixels_spec
    (fun x y => srcXy x y frame.width.toNat frame.height.toNat)
    fun x (hx : x < frame.width.toNat) y (hy : y < frame.height.toNat) =>
      h.pixel_le (hsrc x hx y hy).1 (hsrc x hx y hy).2
  have hstride : (UInt32.ofNat (frame.width.toNat * frame.format.bytesPerPixel)).toNat =
      frame.width.toNat * frame.format.bytesPerPixel :=
    UInt32.toNat_ofNat_of_lt' h.row_lt
  refine ⟨{
      frame with
      stride := .ofNat (frame.width.toNat * frame.format.bytesPerPixel)
      data := l
      damageRegions := [] }, ?_, rfl, rfl, rfl, hstride, ?_, fun x hx y hy => ?_⟩
  · have hw := h.width_pos
    have hh := h.height_pos
    have hb := frame.format.bytesPerPixel_pos
    have hdata := h.data_le
    rw [Nat.mul_comm _ frame.stride.toNat] at hdata
    rw [copyFrameWithTransform]
    dsimp only
    rw [if_neg (by omega), if_neg (by omega), hl]
    rfl
  · rw [hlength, Nat.mul_comm]
  · rw [pixelOf, hstride]
    exact hpixels x hx y hy

theorem flipFrameVertical_spec (h : WellSized frame) :
    ∃ out, flipFrameVertical frame = some out ∧
      TightCopy frame out fun x y => (x, frame.height.toNat - 1 - y) :=
  copyFrameWithTransform_spec h fun x hx y hy => ⟨hx, by omega⟩

theorem rotateFrame180_spec (h : WellSized frame) :
    ∃ out, rotateFrame180 frame = some out ∧
      TightCopy frame out fun x y => (frame.width.toNat - 1 - x, frame.height.toNat - 1 - y) :=
  copyFrameWithTransform_spec h fun x hx y hy => ⟨by omega, by omega⟩

namespace TightCopy

variable {out out' : VideoFrame} {src src' : ℕ → ℕ → ℕ × ℕ}

/-- A copy is itself a frame that can be copied. -/
theorem wellSized (hcopy : TightCopy frame out src) (h : WellSized frame) : WellSized out where
  width_pos := hcopy.width_eq ▸ h.width_pos
  height_pos := hcopy.height_eq ▸ h.height_pos
  row_le := by rw [hcopy.width_eq, hcopy.format_eq, hcopy.stride_eq]
  data_le := by
    have hdata := hcopy.data_le
    obtain ⟨n, hn⟩ := Nat.exists_eq_add_of_lt h.height_pos
    rw [hcopy.width_eq, hcopy.height_eq, hcopy.format_eq, hcopy.stride_eq]
    rw [hn] at hdata ⊢
    rwa [Nat.zero_add, Nat.add_sub_cancel, ← Nat.succ_mul, ← Nat.zero_add n]
  small := by
    have hsmall := Nat.lt_of_le_of_lt h.tight_le h.small
    obtain ⟨n, hn⟩ := Nat.exists_eq_add_of_lt h.height_pos
    rw [hcopy.width_eq, hcopy.height_eq, hcopy.format_eq, hcopy.stride_eq]
    rw [hn] at hsmall ⊢
    rwa [Nat.zero_add, Nat.add_sub_cancel, ← Nat.succ_mul, ← Nat.zero_add n]

/-- Two copies of one frame with the same pixels are copies of each other. -/
theorem of_pixel_eq (hcopy : TightCopy frame out src) (hcopy' : TightCopy frame out' src')
    (hpixel : ∀ x < frame.width.toNat, ∀ y < frame.height.toNat,
      pixelOf out' x y = pixelOf out x y) : TightCopy out out' fun x y => (x, y) where
  width_eq := hcopy'.width_eq.trans hcopy.width_eq.symm
  height_eq := hcopy'.height_eq.trans hcopy.height_eq.symm
  format_eq := hcopy'.format_eq.trans hcopy.format_eq.symm
  stride_eq := by rw [hcopy.width_eq, hcopy.format_eq, hcopy'.stride_eq]
  data_le := by
    rw [hcopy.width_eq, hcopy.height_eq, hcopy.format_eq]
    exact hcopy'.data_le
  pixel_eq := by
    rw [hcopy.width_eq, hcopy.height_eq]
    exact hpixel

/-- A copy of a copy is a copy. -/
theorem trans (hcopy : TightCopy frame out src) (hcopy' : TightCopy out out' src')
    (hin : ∀ x < frame.width.toNat, ∀ y < frame.height.toNat,
      (src' x y).1 < frame.width.toNat ∧ (src' x y).2 < frame.height.toNat) :
    TightCopy frame out' fun x y => src (src' x y).1 (src' x y).2 where
  width_eq := hcopy'.width_eq.trans hcopy.width_eq
  height_eq := hcopy'.height_eq.trans hcopy.height_eq
  format_eq := hcopy'.format_eq.trans hcopy.format_eq
  stride_eq := by rw [hcopy'.stride_eq, hcopy.width_eq, hcopy.format_eq]
  data_le := by
    have hdata := hcopy'.data_le
    rwa [hcopy.width_eq, hcopy.height_eq, hcopy.format_eq] at hdata
  pixel_eq x hx y hy := by
    have hpixel := hcopy'.pixel_eq
    rw [hcopy.width_eq, hcopy.height_eq] at hpixel
    rw [hpixel x hx y hy, hcopy.pixel_eq _ (hin x hx y hy).1 _ (hin x hx y hy).2]

end TightCopy

end Frames

/-! ### Rows -/

/-- Bytes of different rows do not get into each other's way. -/
theorem compactRows_spec {data : List UInt8} {h ss rb : ℕ}
    (hin : ∀ y < h, y * ss + rb ≤ data.length) (hsrc : ∀ y < h, y * ss < 2 ^ 32)
    (hdst : h * rb < 2 ^ 32) :
    ∃ l, compactRows data h ss rb = some l ∧ l.length = h * rb ∧
      ∀ y < h, ∀ k < rb, l[y * rb + k]? = data[y * ss + k]? := by
  have hturn : ∀ y ∈ List.range h, Writes (h * rb)
      (fun compact => do
        let srcOffset := u32 (y * ss)
        let row ← slice data srcOffset (srcOffset + rb)
        copyInto compact (u32 (y * rb)) row)
      (fun i => ∃ k < rb, i = y * rb + (0 + k))
      (rowVal rb fun k y => data.getD (y * ss + k) 0) := by
    intro y hy
    have hy : y < h := List.mem_range.mp hy
    obtain ⟨row, hrow, rfl, hcells⟩ := exists_slice (hin y hy)
    have hend : y * row.length + row.length ≤ h * row.length := raster_le hy
    refine (writes_copyInto_row (Nat.le_of_eq (Nat.zero_add _)) (by omega) fun k hk => ?_).of_eq
      fun compact _ => ?_
    · have hcell := hcells k hk
      rw [List.getElem?_eq_getElem hk] at hcell
      rw [Nat.zero_add, List.getD_eq_getElem?_getD, ← hcell, Option.getD_some]
    · rw [u32_eq (hsrc y hy), u32_eq (by omega)]
      dsimp only
      rw [hrow]
      rfl
  obtain ⟨l, hl, hlength, hcells⟩ := (Writes.foldlM hturn).eq_some
    (l := List.replicate (h * rb) 0) List.length_replicate
  refine ⟨l, ?_, hlength, fun y hy k hk => ?_⟩
  · rw [compactRows, Nat.mul_comm rb, u32_eq hdst]
    exact hl
  · have hlt : y * ss + k < data.length := Nat.lt_of_lt_of_le (by omega) (hin y hy)
    rw [hcells _ ⟨y, List.mem_range.mpr hy, k, hk, by rw [Nat.zero_add]⟩, rowVal_apply hk,
      List.getD_eq_getElem _ _ hlt, List.getElem?_eq_getElem hlt]

/-- Dropping the padding keeps each pixel in its place. -/
theorem compactFrame_spec {frame : VideoFrame} (h : WellSized frame) :
    ∃ out, compactFrame frame = some out ∧ TightCopy frame out fun x y => (x, y) := by
  have hsmall := h.small
  have hdata := h.data_le
  have hrow : ∀ y < frame.height.toNat,
      y * frame.stride.toNat ≤ (frame.height.toNat - 1) * frame.stride.toNat :=
    fun y hy => Nat.mul_le_mul_right _ (Nat.le_sub_one_of_lt hy)
  have hmin : min (frame.width.toNat * frame.format.bytesPerPixel) (2 ^ 32 - 1) =
      frame.width.toNat * frame.format.bytesPerPixel :=
    Nat.min_eq_left (Nat.le_sub_one_of_lt h.row_lt)
  have hstride : (UInt32.ofNat (frame.width.toNat * frame.format.bytesPerPixel)).toNat =
      frame.width.toNat * frame.format.bytesPerPixel :=
    UInt32.toNat_ofNat_of_lt' h.row_lt
  rw [compactFrame]
  dsimp only
  rw [hmin]
  split
  · rename_i hsame
    exact ⟨frame, rfl, rfl, rfl, rfl, hsame, h.tight_le.trans hdata, fun _ _ _ _ => rfl⟩
  · obtain ⟨l, hl, hlength, hcells⟩ := compactRows_spec
      (fun y (hy : y < frame.height.toNat) => (Nat.add_le_add_right (hrow y hy) _).trans hdata)
      (fun y hy => by have hy := hrow y hy; omega)
      (Nat.lt_of_le_of_lt h.tight_le hsmall)
    rw [if_neg (by omega), hl]
    refine ⟨_, rfl, rfl, rfl, rfl, hstride, Nat.le_of_eq hlength.symm, fun x hx y hy => ?_⟩
    rw [pixelOf, hstride]
    exact pixelAt_congr fun c hc => hcells y hy _ (raster_lt hx hc)

/-! ### Edges -/

section Padding

variable {data : List UInt8} {w h aw ah : ℕ}

/-- The pixel that is repeated: the nearest one of the frame. -/
def nearest (w h x y : ℕ) : ℕ × ℕ := (min x (w - 1), min y (h - 1))

/-- The cells of a padded frame. -/
def paddedCell (data : List UInt8) (w h : ℕ) : ℕ → ℕ → UInt8 :=
  copiedCell data (w * 4) 4 (nearest w h)

theorem nearest_le (hw : 0 < w) (hh : 0 < h) (hdata : h * (w * 4) ≤ data.length) (x y : ℕ) :
    (nearest w h x y).2 * (w * 4) + (nearest w h x y).1 * 4 + 4 ≤ data.length := by
  have hx : (nearest w h x y).1 < w := Nat.lt_of_le_of_lt (Nat.min_le_right _ _) (by omega)
  have hy : (nearest w h x y).2 < h := Nat.lt_of_le_of_lt (Nat.min_le_right _ _) (by omega)
  rw [Nat.add_assoc]
  exact ((Nat.add_le_add_left (raster_le hx) _).trans (raster_le hy)).trans hdata

/-- Within the frame the cells are the frame's own. -/
theorem paddedCell_inside {k y : ℕ} (hk : k < w * 4) (hy : y < h)
    (hdata : h * (w * 4) ≤ data.length) :
    data[y * (w * 4) + k]? = some (paddedCell data w h k y) := by
  have hx : k / 4 < w := Nat.div_lt_of_lt_mul (by omega)
  have hcell := copiedCell_eq (nearest w h) (k / 4) y
    (Nat.mod_lt k (Nat.succ_pos 3)) (nearest_le (by omega) (by omega) hdata _ _)
  rw [Nat.div_add_mod'] at hcell
  rw [paddedCell, ← hcell, nearest, Nat.min_eq_left (by omega), Nat.min_eq_left (by omega),
    Nat.div_add_mod']

/-- Below the frame they are those of its last row. -/
theorem paddedCell_below {k y : ℕ} (hy : h ≤ y) :
    paddedCell data w h k y = paddedCell data w h k (h - 1) := by
  have hsame : nearest w h (k / 4) y = nearest w h (k / 4) (h - 1) := by
    rw [nearest, nearest, Nat.min_self, Nat.min_eq_right (show h - 1 ≤ y by omega)]
  rw [paddedCell, copiedCell, copiedCell, hsame]

/-- To the right of the frame they are those of the last pixel of the row. -/
theorem paddedCell_right {x y c : ℕ} (hw : 0 < w) (hx : w ≤ x) (hy : y < h) (hc : c < 4)
    (hdata : h * (w * 4) ≤ data.length) :
    data[y * (w * 4) + (w * 4 - 4) + c]? = some (paddedCell data w h (x * 4 + c) y) := by
  have hcell := copiedCell_eq (nearest w h) x y hc
    (nearest_le hw (by omega) hdata _ _)
  rw [nearest, Nat.min_eq_right (show w - 1 ≤ x by omega), Nat.min_eq_left (by omega)] at hcell
  rw [paddedCell, ← hcell, Nat.add_assoc, Nat.sub_mul]

/-- A row of the frame, copied to the start of its row. -/
theorem writes_frameRow (haw : w ≤ aw) (hah : h ≤ ah) (hdata : h * (w * 4) ≤ data.length) {y : ℕ}
    (hy : y < h) : ∃ row, slice data (y * (w * 4)) (y * (w * 4) + w * 4) = some row ∧
      Writes (ah * (aw * 4)) (fun padded => copyInto padded (y * (aw * 4) + 0) row)
        (fun i => ∃ c < w * 4, i = y * (aw * 4) + (0 + c))
        (rowVal (aw * 4) (paddedCell data w h)) := by
  have hsrc : y * (w * 4) + w * 4 ≤ data.length := (raster_le hy).trans hdata
  have hdst : y * (aw * 4) + aw * 4 ≤ ah * (aw * 4) := raster_le (Nat.lt_of_lt_of_le hy hah)
  obtain ⟨row, hrow, hlength, hcells⟩ := exists_slice hsrc
  refine ⟨row, hrow, ?_⟩
  rw [← hlength]
  refine writes_copyInto_row (by omega) (by omega) fun c hc => ?_
  have hcell := hcells c (hlength ▸ hc)
  rw [List.getElem?_eq_getElem hc, paddedCell_inside (hlength ▸ hc) hy hdata] at hcell
  rw [Nat.zero_add]
  exact (Option.some_inj.mp hcell).symm

/-- A turn of the loop to the right of the frame. -/
theorem writes_rightPixel (hw : 0 < w) (hah : h ≤ ah) (hdata : h * (w * 4) ≤ data.length)
    (hsmall : ah * (aw * 4) < 2 ^ 32) {x y : ℕ} (hx : w ≤ x) (hx' : x < aw) (hy : y < h) :
    Writes (ah * (aw * 4))
      (fun padded => do
        let pixel ← slice data (y * (w * 4) + (w * 4 - 4)) (y * (w * 4) + (w * 4 - 4) + 4)
        copyInto padded (u32 (y * (aw * 4) + x * 4)) pixel)
      (fun i => ∃ c < 4, i = y * (aw * 4) + (x * 4 + c))
      (rowVal (aw * 4) (paddedCell data w h)) := by
  have hsrc : y * (w * 4) + w * 4 ≤ data.length := (raster_le hy).trans hdata
  have hdst : y * (aw * 4) + aw * 4 ≤ ah * (aw * 4) := raster_le (Nat.lt_of_lt_of_le hy hah)
  have hlast : y * (w * 4) + (w * 4 - 4) + 4 ≤ data.length := by omega
  obtain ⟨pixel, hpixel, hfour, hbytes⟩ := exists_slice hlast
  have hwrites : Writes (ah * (aw * 4))
      (fun padded => copyInto padded (y * (aw * 4) + x * 4) pixel)
      (fun i => ∃ c < pixel.length, i = y * (aw * 4) + (x * 4 + c))
      (rowVal (aw * 4) (paddedCell data w h)) := by
    refine writes_copyInto_row (by omega) (by omega) fun c hc => ?_
    have hbyte := hbytes c (hfour ▸ hc)
    rw [List.getElem?_eq_getElem hc, paddedCell_right hw hx hy (hfour ▸ hc) hdata] at hbyte
    exact (Option.some_inj.mp hbyte).symm
  rw [hfour] at hwrites
  refine hwrites.of_eq fun padded _ => ?_
  rw [hpixel, u32_eq (by omega)]
  rfl

/-- The loop of a row writes the whole row. -/
theorem writes_padRow (hw : 0 < w) (haw : w ≤ aw) (hah : h ≤ ah) (hdata : h * (w * 4) ≤ data.length)
    (hsmall : ah * (aw * 4) < 2 ^ 32) {y : ℕ} (hy : y < h) :
    Writes (ah * (aw * 4)) (padRow data w aw (w * 4) (aw * 4) y)
      (fun i => ∃ k < aw * 4, i = y * (aw * 4) + k) (rowVal (aw * 4) (paddedCell data w h)) := by
  have hdst : y * (aw * 4) + aw * 4 ≤ ah * (aw * 4) := raster_le (Nat.lt_of_lt_of_le hy hah)
  have hle : y * (w * 4) ≤ y * (aw * 4) := Nat.mul_le_mul_left y (Nat.mul_le_mul_right 4 haw)
  obtain ⟨row, hrow, hcopy⟩ := writes_frameRow haw hah hdata hy
  have hrange : ∀ x ∈ List.range' w (aw - w), w ≤ x ∧ x < aw := by
    intro x hx
    rw [List.mem_range'_1] at hx
    exact ⟨hx.1, by omega⟩
  have hright := fun x hx =>
    writes_rightPixel hw hah hdata hsmall (hrange x hx).1 (hrange x hx).2 hy
  refine ((hcopy.bind (Writes.foldlM hright)).congr (fun i => ?_) fun _ _ => rfl).of_eq
    fun padded _ => ?_
  · constructor
    · rintro (⟨c, hc, rfl⟩ | ⟨x, hx, c, hc, rfl⟩)
      · exact ⟨c, by omega, by omega⟩
      · rw [List.mem_range'_1] at hx
        exact ⟨x * 4 + c, by omega, rfl⟩
    · rintro ⟨k, hk, rfl⟩
      by_cases hin : k < w * 4
      · exact Or.inl ⟨k, hin, by omega⟩
      · refine Or.inr ⟨k / 4, ?_, k % 4, Nat.mod_lt k (Nat.succ_pos 3), by omega⟩
        rw [List.mem_range'_1]
        omega
  · have hwrap : u32 (w * 4 + 2 ^ 32 - 4) = w * 4 - 4 := by
      have hless : w * 4 - 4 < 2 ^ 32 := by omega
      rw [u32, show w * 4 + 2 ^ 32 - 4 = (w * 4 - 4) + 2 ^ 32 by omega, Nat.add_mod_right,
        Nat.mod_eq_of_lt hless]
    rw [padRow, u32_eq (by omega), u32_eq (by omega), hwrap]
    dsimp only
    rw [hrow]
    by_cases hwide : w < aw
    · simp only [if_pos hwide]
      rfl
    · simp only [if_neg hwide]
      rw [show aw - w = 0 by omega]
      rfl

/-- The last row of the frame is written below it. -/
theorem writes_below {lastRow : List UInt8} (hsmall : ah * (aw * 4) < 2 ^ 32)
    (hwidth : lastRow.length = aw * 4)
    (hcells : ∀ c < aw * 4, lastRow[c]? = some (paddedCell data w h c (h - 1))) {y : ℕ}
    (hbelow : h ≤ y) (hy : y < ah) :
    Writes (ah * (aw * 4)) (fun padded => copyInto padded (u32 (y * (aw * 4))) lastRow)
      (fun i => ∃ c < aw * 4, i = y * (aw * 4) + (0 + c))
      (rowVal (aw * 4) (paddedCell data w h)) := by
  have hend : y * (aw * 4) + aw * 4 ≤ ah * (aw * 4) := raster_le hy
  have hwrites : Writes (ah * (aw * 4))
      (fun padded => copyInto padded (y * (aw * 4) + 0) lastRow)
      (fun i => ∃ c < lastRow.length, i = y * (aw * 4) + (0 + c))
      (rowVal (aw * 4) (paddedCell data w h)) := by
    refine writes_copyInto_row (by omega) (by omega) fun c hc => ?_
    have hcell := hcells c (hwidth ▸ hc)
    rw [List.getElem?_eq_getElem hc] at hcell
    rw [Nat.zero_add, paddedCell_below hbelow]
    exact (Option.some_inj.mp hcell).symm
  rw [hwidth] at hwrites
  refine hwrites.of_eq fun padded _ => ?_
  rw [u32_eq (by omega)]
  rfl

/-- The loop below writes the rows that are left, once the last row of the frame is written. -/
theorem padBottom_spec {l : List UInt8} (hh : 0 < h) (hah : h ≤ ah)
    (hsmall : ah * (aw * 4) < 2 ^ 32) (hlength : l.length = ah * (aw * 4))
    (hrows : ∀ y < h, ∀ k < aw * 4,
      l[y * (aw * 4) + k]? = some (paddedCell data w h k y)) :
    ∃ l', padBottom h ah (aw * 4) l = some l' ∧ l'.length = ah * (aw * 4) ∧
      ∀ y < ah, ∀ k < aw * 4, l'[y * (aw * 4) + k]? = some (paddedCell data w h k y) := by
  rw [padBottom]
  split
  · have hlast : (h - 1) * (aw * 4) + aw * 4 ≤ ah * (aw * 4) := raster_le (by omega)
    have hwrap : u32 ((h + 2 ^ 32 - 1) * (aw * 4)) = (h - 1) * (aw * 4) := by
      rw [u32, show h + 2 ^ 32 - 1 = (h - 1) + 2 ^ 32 by omega, Nat.add_mul,
        Nat.add_mul_mod_self_left, Nat.mod_eq_of_lt (by omega)]
    obtain ⟨lastRow, hlastRow, hwidth, hcells⟩ := exists_slice (hlength ▸ hlast)
    have hbelow : ∀ y ∈ List.range' h (ah - h), Writes (ah * (aw * 4))
        (fun padded => copyInto padded (u32 (y * (aw * 4))) lastRow)
        (fun i => ∃ c < aw * 4, i = y * (aw * 4) + (0 + c))
        (rowVal (aw * 4) (paddedCell data w h)) := by
      intro y hy
      rw [List.mem_range'_1] at hy
      refine writes_below hsmall hwidth (fun c hc => ?_) hy.1 (by omega)
      rw [hcells c hc, hrows (h - 1) (by omega) c hc]
    obtain ⟨l', hl', hlength', hcells'⟩ := (Writes.foldlM hbelow).run l hlength
    refine ⟨l', ?_, hlength', fun y hy k hk => ?_⟩
    · rw [hwrap]
      dsimp only
      rw [hlastRow]
      exact hl'
    · by_cases hin : y < h
      · rw [(hcells' _).2, hrows y hin k hk]
        rintro ⟨y', hy', c, hc, heq⟩
        rw [List.mem_range'_1] at hy'
        have habove : y * (aw * 4) + aw * 4 ≤ y' * (aw * 4) :=
          (Nat.succ_mul y (aw * 4)).symm ▸ Nat.mul_le_mul_right _ (by omega)
        omega
      · rw [(hcells' _).1 ⟨y, by rw [List.mem_range'_1]; omega, k, hk, by rw [Nat.zero_add]⟩,
          rowVal_apply hk]
  · rename_i hsame
    have hsame : ah = h := by omega
    refine ⟨l, rfl, hlength, ?_⟩
    rw [hsame]
    exact hrows

/-- A padded frame has the nearest pixel of the frame everywhere. -/
theorem padFrameToAligned_spec {width height alignedWidth alignedHeight : UInt32}
    (hw : 0 < width.toNat) (hh : 0 < height.toNat) (haw : width ≤ alignedWidth)
    (hah : height ≤ alignedHeight) (hdata : height.toNat * (width.toNat * 4) ≤ data.length)
    (hsmall : alignedHeight.toNat * (alignedWidth.toNat * 4) < 2 ^ 32) :
    ∃ padded, padFrameToAligned data width height alignedWidth alignedHeight = some padded ∧
      padded.length = alignedHeight.toNat * (alignedWidth.toNat * 4) ∧
      ∀ x < alignedWidth.toNat, ∀ y < alignedHeight.toNat,
        pixelAt padded (alignedWidth.toNat * 4) 4 x y =
          pixelAt data (width.toNat * 4) 4 (min x (width.toNat - 1))
            (min y (height.toNat - 1)) := by
  have haw : width.toNat ≤ alignedWidth.toNat := haw
  have hah : height.toNat ≤ alignedHeight.toNat := hah
  have hstride : alignedWidth.toNat * 4 ≤ alignedHeight.toNat * (alignedWidth.toNat * 4) :=
    Nat.le_mul_of_pos_left _ (by omega)
  have hrows := Writes.foldlM fun y (hy : y ∈ List.range height.toNat) =>
    writes_padRow hw haw hah hdata hsmall (List.mem_range.mp hy)
  obtain ⟨l, hl, hlength, hcells⟩ := hrows.eq_some
    (l := List.replicate (alignedHeight.toNat * (alignedWidth.toNat * 4)) 0) List.length_replicate
  have hinside : ∀ y < height.toNat, ∀ k < alignedWidth.toNat * 4,
      l[y * (alignedWidth.toNat * 4) + k]? =
        some (paddedCell data width.toNat height.toNat k y) := fun y hy k hk => by
    rw [hcells _ ⟨y, List.mem_range.mpr hy, k, hk, rfl⟩, rowVal_apply hk]
  obtain ⟨padded, hpadded, hlength', hcells'⟩ := padBottom_spec hh hah hsmall hlength hinside
  have hsize : alignedWidth.toNat * alignedHeight.toNat * 4 =
      alignedHeight.toNat * (alignedWidth.toNat * 4) := by
    rw [Nat.mul_comm alignedWidth.toNat, Nat.mul_assoc]
  refine ⟨padded, ?_, hlength', fun x hx y hy => ?_⟩
  · have hwidth : width.toNat * 4 < 2 ^ 32 := by omega
    have haligned : alignedWidth.toNat * 4 < 2 ^ 32 := by omega
    rw [padFrameToAligned, u32_eq hwidth, u32_eq haligned, hsize, u32_eq hsmall, hl]
    exact hpadded
  · exact pixelAt_of_cells (nearest width.toNat height.toNat) x y (nearest_le hw hh hdata x y)
      fun c hc => hcells' y hy _ (raster_lt hx hc)

end Padding

/-- Two transformations that undo each other give the pixels of the tight frame. -/
theorem twice_spec {frame compact : VideoFrame} {transform : VideoFrame → Option VideoFrame}
    (src : ℕ → ℕ → ℕ → ℕ → ℕ × ℕ)
    (hspec : ∀ {frame : VideoFrame}, WellSized frame → ∃ out, transform frame = some out ∧
      TightCopy frame out fun x y => src x y frame.width.toNat frame.height.toNat)
    (hinvol : ∀ w h, ∀ x < w, ∀ y < h, (src x y w h).1 < w ∧ (src x y w h).2 < h ∧
      src (src x y w h).1 (src x y w h).2 w h = (x, y))
    (h : WellSized frame) (hcompact : TightCopy frame compact fun x y => (x, y)) :
    ∃ once twice, transform frame = some once ∧ transform once = some twice ∧
      TightCopy compact twice fun x y => (x, y) := by
  obtain ⟨once, honce, hcopy⟩ := hspec h
  obtain ⟨twice, htwice, hcopy'⟩ := hspec (hcopy.wellSized h)
  rw [hcopy.width_eq, hcopy.height_eq] at hcopy'
  refine ⟨once, twice, honce, htwice, ?_⟩
  have hboth := hcopy.trans hcopy' fun x hx y hy =>
    ⟨(hinvol _ _ x hx y hy).1, (hinvol _ _ x hx y hy).2.1⟩
  refine hcompact.of_pixel_eq hboth fun x hx y hy => ?_
  rw [hboth.pixel_eq x hx y hy, (hinvol _ _ x hx y hy).2.2, hcompact.pixel_eq x hx y hy]

/-- **Reshaping keeps every pixel.** A frame loses its padding, is turned over and back, and is
padded to a larger one without any pixel getting lost or misplaced. -/
theorem reshaping_keeps_pixels {frame : VideoFrame} (h : WellSized frame) :
    (∃ compact, compactFrame frame = some compact ∧ TightCopy frame compact (fun x y => (x, y)) ∧
      (∃ once twice, flipFrameVertical frame = some once ∧ flipFrameVertical once = some twice ∧
        TightCopy compact twice fun x y => (x, y)) ∧
      (∃ once twice, rotateFrame180 frame = some once ∧ rotateFrame180 once = some twice ∧
        TightCopy compact twice fun x y => (x, y))) ∧
    ∀ alignedWidth alignedHeight, frame.format.bytesPerPixel = 4 →
      frame.stride.toNat = frame.width.toNat * 4 → frame.width ≤ alignedWidth →
      frame.height ≤ alignedHeight → alignedHeight.toNat * (alignedWidth.toNat * 4) < 2 ^ 32 →
      ∃ padded, padFrameToAligned frame.data frame.width frame.height alignedWidth alignedHeight =
          some padded ∧
        padded.length = alignedHeight.toNat * (alignedWidth.toNat * 4) ∧
        ∀ x < alignedWidth.toNat, ∀ y < alignedHeight.toNat,
          pixelAt padded (alignedWidth.toNat * 4) 4 x y =
            pixelOf frame (min x (frame.width.toNat - 1)) (min y (frame.height.toNat - 1)) := by
  constructor
  · obtain ⟨compact, hcompact, hcopy⟩ := compactFrame_spec h
    refine ⟨compact, hcompact, hcopy, ?_, ?_⟩
    · refine twice_spec (fun x y _ height => (x, height - 1 - y)) flipFrameVertical_spec
        (fun w h x hx y hy => ⟨hx, by omega, ?_⟩) h hcopy
      rw [Nat.sub_sub_self (by omega)]
    · refine twice_spec (fun x y width height => (width - 1 - x, height - 1 - y))
        rotateFrame180_spec (fun w h x hx y hy => ⟨by omega, by omega, ?_⟩) h hcopy
      rw [Nat.sub_sub_self (by omega), Nat.sub_sub_self (by omega)]
  · intro alignedWidth alignedHeight hfour hstride haw hah hsmall
    have hdata := h.tight_le.trans h.data_le
    rw [hfour] at hdata
    obtain ⟨padded, hpadded, hlength, hpixels⟩ :=
      padFrameToAligned_spec h.width_pos h.height_pos haw hah hdata hsmall
    refine ⟨padded, hpadded, hlength, fun x hx y hy => ?_⟩
    rw [pixelOf, hfour, hstride]
    exact hpixels x hx y hy

/-- Four pixels of three bytes in rows with padding behind them. -/
def paddedFrame : VideoFrame :=
  ⟨2, 2, 8, .rgb, [1, 2, 3, 4, 5, 6, 0, 0, 7, 8, 9, 10, 11, 12], [], 0⟩

/-- Four pixels of four bytes. -/
def tightFrame : VideoFrame :=
  ⟨2, 2, 8, .bgra, [1, 2, 3, 4, 5, 6, 7, 8, 9, 10, 11, 12, 13, 14, 15, 16], [], 0⟩

theorem small_frames_reshaped :
    (∃ compact once twice, compactFrame paddedFrame = some compact ∧
      compact.data = [1, 2, 3, 4, 5, 6, 7, 8, 9, 10, 11, 12] ∧
      rotateFrame180 paddedFrame = some once ∧
      once.data = [10, 11, 12, 7, 8, 9, 4, 5, 6, 1, 2, 3] ∧
      rotateFrame180 once = some twice ∧ TightCopy compact twice fun x y => (x, y)) ∧
    ∃ padded, padFrameToAligned tightFrame.data 2 2 3 3 = some padded ∧ padded.length = 36 ∧
      pixelAt padded 12 4 2 2 = [13, 14, 15, 16] := by
  constructor
  · have h : WellSized paddedFrame := ⟨by decide, by decide, by decide, by decide, by decide⟩
    obtain ⟨compact, hcompact, -, -, once, twice, honce, htwice, hcopy⟩ :=
      (reshaping_keeps_pixels h).1
    refine ⟨compact, once, twice, hcompact, ?_, honce, ?_, htwice, hcopy⟩
    · have hdata : (compactFrame paddedFrame).map VideoFrame.data =
          some [1, 2, 3, 4, 5, 6, 7, 8, 9, 10, 11, 12] := by decide
      rw [hcompact] at hdata
      exact Option.some_inj.mp hdata
    · have hdata : (rotateFrame180 paddedFrame).map VideoFrame.data =
          some [10, 11, 12, 7, 8, 9, 4, 5, 6, 1, 2, 3] := by decide
      rw [honce] at hdata
      exact Option.some_inj.mp hdata
  · have h : WellSized tightFrame := ⟨by decide, by decide, by decide, by decide, by decide⟩
    obtain ⟨padded, hpadded, hlength, hpixels⟩ :=
      (reshaping_keeps_pixels h).2 3 3 rfl rfl (by decide) (by decide) (by decide)
    exact ⟨padded, hpadded, hlength, hpixels 2 (by decide) 2 (by decide)⟩

end Server

end Cheirizo
