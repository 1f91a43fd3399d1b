import Cheirizo.Pipewire.Geometry

/-!
# The other YUV converter

`desktop/pipewire/yuv.rs`. A second set of conversions to BGRA, for buffers without padding. It
computes positions in 64 bits where `convertFormat` uses 32, splits the planes off differently, and
divides in another order. On buffers without padding the two give the same bytes.

## Main definitions

* `nv12ToBgra`, `i420ToBgra`, `yuy2ToBgra`, `convertToBgra` — the conversions

## Main results

* `nv12_agree`, `i420_agree`, `yuy2_agree` — the conversions, one by one
* `convertFormat_eq_convertToBgra` — the two converters agree
-/

namespace Cheirizo

namespace Pipewire

open Buffer

namespace Yuv

/-! ### The conversions -/

/-- The colour of a sample, as this converter computes it. -/
def yuvToRgb (y u v : Int32) : UInt8 × UInt8 × UInt8 :=
  let Y_SCALE : Int32 := 298
  let V_TO_R : Int32 := 409
  let U_TO_G : Int32 := 100
  let V_TO_G : Int32 := 208
  let U_TO_B : Int32 := 516
  let y := y - 16
  let u := u - 128
  let v := v - 128
  let r := (Y_SCALE * y + V_TO_R * v + 128) >>> 8
  let g := (Y_SCALE * y - U_TO_G * u - V_TO_G * v + 128) >>> 8
  let b := (Y_SCALE * y + U_TO_B * u + 128) >>> 8
  (asU8 (clamp r 0 255), asU8 (clamp g 0 255), asU8 (clamp b 0 255))

/-- Write an opaque pixel of the colour of three samples. -/
def putYuv (dst : List UInt8) (dstIdx : ℕ) (y u v : UInt8) : Option (List UInt8) :=
  let (r, g, b) := yuvToRgb (asI32 y) (asI32 u) (asI32 v)
  putBgra dst dstIdx ⟨b, g, r, 255⟩

/-- Brightness in one plane, and pairs of differences in another. -/
def nv12ToBgra (src : List UInt8) (width height : UInt32) : Option (List UInt8) := do
  let w := width.toNat
  let h := height.toNat
  let yPlaneSize := w * h
  let uvPlaneSize := w * h / 2
  if src.length < yPlaneSize + uvPlaneSize then none
  else
    let yPlane ← slice src 0 yPlaneSize
    let uvPlane ← slice src yPlaneSize (yPlaneSize + uvPlaneSize)
    (List.range h).foldlM (fun dst y =>
      (List.range w).foldlM (fun dst x => do
        let yIdx := y * w + x
        let uvIdx := y / 2 * w + x / 2 * 2
        let yVal ← yPlane[yIdx]?
        let uVal ← uvPlane[uvIdx]?
        let vVal ← uvPlane[uvIdx + 1]?
        putYuv dst (yIdx * 4) yVal uVal vVal) dst) (List.replicate (w * h * 4) 0)

/-- Three planes. -/
def i420ToBgra (src : List UInt8) (width height : UInt32) : Option (List UInt8) := do
  let w := width.toNat
  let h := height.toNat
  let yPlaneSize := w * h
  let uvPlaneSize := w / 2 * (h / 2)
  if src.length < yPlaneSize + uvPlaneSize * 2 then none
  else
    let yPlane ← slice src 0 yPlaneSize
    let uPlane ← slice src yPlaneSize (yPlaneSize + uvPlaneSize)
    let vPlane ← slice src (yPlaneSize + uvPlaneSize) (yPlaneSize + uvPlaneSize * 2)
    (List.range h).foldlM (fun dst y =>
      (List.range w).foldlM (fun dst x => do
        let yIdx := y * w + x
        let uvIdx := y / 2 * (w / 2) + x / 2
        let yVal ← yPlane[yIdx]?
        let uVal ← uPlane[uvIdx]?
        let vVal ← vPlane[uvIdx]?
        putYuv dst (yIdx * 4) yVal uVal vVal) dst) (List.replicate (w * h * 4) 0)

/-- Two pixels in four bytes, which share the differences. -/
def yuy2ToBgra (src : List UInt8) (width height : UInt32) : Option (List UInt8) :=
  let w := width.toNat
  let h := height.toNat
  if w % 2 ≠ 0 ∨ src.length < w * h * 2 then none
  else
    (List.range h).foldlM (fun dst y =>
      (List.range' 0 ((w + 1) / 2) 2).foldlM (fun dst x => do
        let srcIdx := (y * w + x) * 2
        let y0 ← src[srcIdx]?
        let u ← src[srcIdx + 1]?
        let y1 ← src[srcIdx + 2]?
        let v ← src[srcIdx + 3]?
        let dst ← putYuv dst ((y * w + x) * 4) y0 u v
        putYuv dst ((y * w + x + 1) * 4) y1 u v) dst) (List.replicate (w * h * 4) 0)

/-- Nothing is done for the other formats. -/
def convertToBgra (src : List UInt8) (width height : UInt32) (format : PixelFormat) :
    Option (Option (List UInt8)) :=
  match format with
  | .nv12 => (nv12ToBgra src width height).map some
  | .i420 => (i420ToBgra src width height).map some
  | .yuy2 => (yuy2ToBgra src width height).map some
  | _ => some none

/-! ### What the loops write -/

section Loops

variable {src : List UInt8} {width height : UInt32}

/-- A loop over planes starts from an empty picture. -/
theorem planes_eq {w h : ℕ} {turn : ℕ → ℕ → List UInt8 → Option (List UInt8)}
    {f : List UInt8 → Option (List UInt8)} {pixel : ℕ → ℕ → Bgra}
    (hturn : ∀ x < w, ∀ y < h, ∀ dst,
      turn y x dst = putBgra dst ((y * w + x) * 4) (pixel x y))
    (hf : Writes (w * h * 4) f (InRaster (w * 4) 4 w h) (rowVal (w * 4) (pictureCell pixel)))
    {dst : List UInt8} (hdst : dst.length = w * h * 4) :
    ∃ out, f dst = some out ∧
      (List.range h).foldlM (fun dst y => (List.range w).foldlM (fun dst x => turn y x dst) dst)
        (List.replicate (w * h * 4) 0) = some out := by
  have hsize : h * (w * 4) = w * h * 4 := by
    rw [Nat.mul_comm w h, Nat.mul_assoc]
  have hplanes := writes_planes (fun x hx y hy dst => (hturn x hx y hy dst).trans (by
    rw [four_mul_position])) (Nat.le_of_eq hsize)
  exact hf.ext hplanes (fun i hi => inRaster_of_lt (hsize ▸ hi)) hdst List.length_replicate

/-- Rows without padding. -/
theorem tight_size (w h : ℕ) : h * (w * 4) = w * h * 4 := by
  rw [Nat.mul_comm w h, Nat.mul_assoc]

/-- The samples of a plane that is taken out of a buffer. -/
theorem getElem?_plane {plane : List UInt8} {start count i : ℕ}
    (hcells : ∀ i < count, plane[i]? = src[start + i]?) (hsrc : start + count ≤ src.length)
    (hi : i < count) : plane[i]? = some (src.getD (start + i) 0) := by
  rw [hcells i hi, List.getD_eq_getElem _ _ (by omega), List.getElem?_eq_getElem]

theorem nv12_agree (hw : width.toNat % 2 = 0) (hh : height.toNat % 2 = 0)
    (hsmall : width.toNat * height.toNat * 4 < 2 ^ 32)
    (hsrc : src.length = height.toNat * width.toNat + height.toNat / 2 * width.toNat)
    {dst : List UInt8} (hdst : dst.length = width.toNat * height.toNat * 4) :
    ∃ out, convertNv12ToBgra src dst width.toNat height.toNat = some out ∧
      nv12ToBgra src width height = some out := by
  have hcomm := Nat.mul_comm width.toNat height.toNat
  have hhalf : width.toNat * height.toNat / 2 = height.toNat / 2 * width.toNat := by
    rw [hcomm, Nat.div_mul_right_comm (Nat.dvd_of_mod_eq_zero hh)]
  have hrows := tight_size width.toNat height.toNat
  have hyEnd : 0 + height.toNat * width.toNat ≤ src.length := by omega
  obtain ⟨yPlane, hyPlane, -, hyCells⟩ := exists_slice hyEnd
  obtain ⟨uvPlane, huvPlane, -, huvCells⟩ := exists_slice hsrc.ge
  have hturn : ∀ x < width.toNat, ∀ y < height.toNat, ∀ dst, (do
      let yVal ← yPlane[y * width.toNat + x]?
      let uVal ← uvPlane[y / 2 * width.toNat + x / 2 * 2]?
      let vVal ← uvPlane[y / 2 * width.toNat + x / 2 * 2 + 1]?
      putYuv dst ((y * width.toNat + x) * 4) yVal uVal vVal) =
        putBgra dst ((y * width.toNat + x) * 4) (nv12Pixel src width.toNat height.toNat x y) := by
    intro x hx y hy dst
    have hu := chroma_lt hw hx hy hh (Nat.succ_pos 1)
    have hv := chroma_lt hw hx hy hh (Nat.lt_succ_self 1)
    rw [Nat.add_assoc (y / 2 * width.toNat), getElem?_luma hyCells (by omega) hx hy,
      getElem?_plane huvCells hsrc.ge hv]
    have hblue := getElem?_plane huvCells hsrc.ge hu
    rw [Nat.add_zero] at hblue
    rw [hblue]
    rfl
  have hwrites : Writes (width.toNat * height.toNat * 4)
      (fun dst => convertNv12ToBgra src dst width.toNat height.toNat)
      (InRaster (width.toNat * 4) 4 width.toNat height.toNat)
      (rowVal (width.toNat * 4) (pictureCell (nv12Pixel src width.toNat height.toNat))) :=
    writes_convertNv12 hw hh hsrc.ge (by omega) hrows.le hsmall
  obtain ⟨out, hout, hloop⟩ := planes_eq hturn hwrites hdst
  refine ⟨out, hout, ?_⟩
  rw [nv12ToBgra]
  dsimp only
  rw [hhalf, hcomm, if_neg (by omega)]
  rw [Nat.zero_add] at hyPlane
  rw [hyPlane, huvPlane]
  rw [hcomm] at hloop
  exact hloop

theorem i420_agree (hw : width.toNat % 2 = 0) (hh : height.toNat % 2 = 0)
    (hsmall : width.toNat * height.toNat * 4 < 2 ^ 32)
    (hsrc : src.length =
      height.toNat * width.toNat + 2 * (height.toNat / 2 * (width.toNat / 2)))
    {dst : List UInt8} (hdst : dst.length = width.toNat * height.toNat * 4) :
    ∃ out, convertI420ToBgra src dst width.toNat height.toNat = some out ∧
      i420ToBgra src width height = some out := by
  have hcomm := Nat.mul_comm width.toNat height.toNat
  have hplane := Nat.mul_comm (width.toNat / 2) (height.toNat / 2)
  have hquarter := quarter_eq hw hh
  have hrows := tight_size width.toNat height.toNat
  have hyEnd : 0 + height.toNat * width.toNat ≤ src.length := by omega
  have huEnd : height.toNat * width.toNat + height.toNat / 2 * (width.toNat / 2) ≤ src.length := by
    omega
  have hvEnd : height.toNat * width.toNat + height.toNat / 2 * (width.toNat / 2) +
      height.toNat / 2 * (width.toNat / 2) ≤ src.length := by omega
  obtain ⟨yPlane, hyPlane, -, hyCells⟩ := exists_slice hyEnd
  obtain ⟨uPlane, huPlane, -, huCells⟩ := exists_slice huEnd
  obtain ⟨vPlane, hvPlane, -, hvCells⟩ := exists_slice hvEnd
  have hturn : ∀ x < width.toNat, ∀ y < height.toNat, ∀ dst, (do
      let yVal ← yPlane[y * width.toNat + x]?
      let uVal ← uPlane[y / 2 * (width.toNat / 2) + x / 2]?
      let vVal ← vPlane[y / 2 * (width.toNat / 2) + x / 2]?
      putYuv dst ((y * width.toNat + x) * 4) yVal uVal vVal) =
        putBgra dst ((y * width.toNat + x) * 4) (i420Pixel src width.toNat height.toNat x y) := by
    intro x hx y hy dst
    have hrow : y / 2 * (width.toNat / 2) + width.toNat / 2 ≤
        height.toNat / 2 * (width.toNat / 2) := raster_le (by omega)
    have hchroma : y / 2 * (width.toNat / 2) + x / 2 < height.toNat / 2 * (width.toNat / 2) := by
      omega
    rw [getElem?_luma hyCells (by omega) hx hy, getElem?_plane huCells huEnd hchroma,
      getElem?_plane hvCells hvEnd hchroma]
    rfl
  have hwrites : Writes (width.toNat * height.toNat * 4)
      (fun dst => convertI420ToBgra src dst width.toNat height.toNat)
      (InRaster (width.toNat * 4) 4 width.toNat height.toNat)
      (rowVal (width.toNat * 4) (pictureCell (i420Pixel src width.toNat height.toNat))) :=
    writes_convertI420 hw hh hsrc.ge (by omega) hrows.le hsmall
  obtain ⟨out, hout, hloop⟩ := planes_eq hturn hwrites hdst
  refine ⟨out, hout, ?_⟩
  rw [i420ToBgra]
  dsimp only
  rw [hplane, Nat.mul_two, ← Nat.add_assoc (width.toNat * height.toNat), hcomm,
    if_neg (by omega)]
  rw [Nat.zero_add] at hyPlane
  rw [hyPlane, huPlane, hvPlane]
  rw [hcomm] at hloop
  exact hloop

/-- A pair of pixels. -/
theorem writes_pair {w h y k n : ℕ} (hk : 2 * k + 1 < w) (hy : y < h) (hn : h * (w * 4) ≤ n)
    (hsrc : h * (w * 2) ≤ src.length) :
    Writes n (fun dst => do
        let y0 ← src[(y * w + 2 * k) * 2]?
        let u ← src[(y * w + 2 * k) * 2 + 1]?
        let y1 ← src[(y * w + 2 * k) * 2 + 2]?
        let v ← src[(y * w + 2 * k) * 2 + 3]?
        let dst ← putYuv dst ((y * w + 2 * k) * 4) y0 u v
        putYuv dst ((y * w + 2 * k + 1) * 4) y1 u v)
      (fun i => (∃ c < 4, i = y * (w * 4) + (2 * k * 4 + c)) ∨
        2 * k + 1 < w ∧ ∃ c < 4, i = y * (w * 4) + ((2 * k + 1) * 4 + c))
      (rowVal (w * 4) (pictureCell (yuy2Pixel src (w * 2)))) := by
  have hend : y * (w * 4) + w * 4 ≤ h * (w * 4) := raster_le hy
  have hbytes : y * (w * 2) + w * 2 ≤ h * (w * 2) := raster_le hy
  have hbase : (y * w + 2 * k) * 2 = y * (w * 2) + 2 * k * 2 := by
    rw [Nat.add_mul, Nat.mul_assoc]
  have hfirst : Writes n (fun dst => putBgra dst (y * (w * 4) + 2 * k * 4)
      (yuy2Pixel src (w * 2) (2 * k) y)) (fun i => ∃ c < 4, i = y * (w * 4) + (2 * k * 4 + c))
      (rowVal (w * 4) (pictureCell (yuy2Pixel src (w * 2)))) :=
    writes_putBgra rfl (by omega) (by omega)
  have hsecond : Writes n (fun dst => putBgra dst (y * (w * 4) + (2 * k + 1) * 4)
      (yuy2Pixel src (w * 2) (2 * k + 1) y))
      (fun i => ∃ c < 4, i = y * (w * 4) + ((2 * k + 1) * 4 + c))
      (rowVal (w * 4) (pictureCell (yuy2Pixel src (w * 2)))) :=
    writes_putBgra rfl (by omega) (by omega)
  refine ((hfirst.bind hsecond).congr (fun i => ?_) fun _ _ => rfl).of_eq fun dst _ => ?_
  · exact or_congr Iff.rfl (and_iff_right hk).symm
  · have hbyte : ∀ c < 4, src[(y * w + 2 * k) * 2 + c]? =
        some (src.getD (y * (w * 2) + (2 * k * 2 + c)) 0) := fun c hc => by
      rw [hbase, Nat.add_assoc, List.getD_eq_getElem _ _ (by omega), List.getElem?_eq_getElem]
    have hpair : (2 * k + 1) / 2 = k := by omega
    have hsame : 2 * k / 2 = k := by omega
    have h0 := hbyte 0 (by omega)
    rw [Nat.add_zero] at h0
    rw [h0, hbyte 1 (by omega), hbyte 2 (by omega), hbyte 3 (by omega), Nat.add_assoc (y * w),
      four_mul_position, four_mul_position, yuy2Pixel, yuy2Pixel, hpair, hsame,
      show (2 * k + 1) * 2 = 2 * k * 2 + 2 by omega, show k * 4 = 2 * k * 2 by omega]
    rfl

theorem writes_yuy2ToBgra {w h n : ℕ} (hw : w % 2 = 0) (hn : h * (w * 4) ≤ n)
    (hsrc : h * (w * 2) ≤ src.length) :
    Writes n (fun dst => (List.range h).foldlM (fun dst y =>
        (List.range' 0 ((w + 1) / 2) 2).foldlM (fun dst x => do
          let y0 ← src[(y * w + x) * 2]?
          let u ← src[(y * w + x) * 2 + 1]?
          let y1 ← src[(y * w + x) * 2 + 2]?
          let v ← src[(y * w + x) * 2 + 3]?
          let dst ← putYuv dst ((y * w + x) * 4) y0 u v
          putYuv dst ((y * w + x + 1) * 4) y1 u v) dst) dst)
      (InRaster (w * 4) 4 w h) (rowVal (w * 4) (pictureCell (yuy2Pixel src (w * 2)))) := by
  have hrow : ∀ y ∈ List.range h, Writes n
      (fun dst => (List.range' 0 ((w + 1) / 2) 2).foldlM (fun dst x => do
        let y0 ← src[(y * w + x) * 2]?
        let u ← src[(y * w + x) * 2 + 1]?
        let y1 ← src[(y * w + x) * 2 + 2]?
        let v ← src[(y * w + x) * 2 + 3]?
        let dst ← putYuv dst ((y * w + x) * 4) y0 u v
        putYuv dst ((y * w + x + 1) * 4) y1 u v) dst)
      (fun i => ∃ x ∈ List.range' 0 ((w + 1) / 2) 2, (∃ c < 4, i = y * (w * 4) + (x * 4 + c)) ∨
        x + 1 < w ∧ ∃ c < 4, i = y * (w * 4) + ((x + 1) * 4 + c))
      (rowVal (w * 4) (pictureCell (yuy2Pixel src (w * 2)))) := by
    intro y hy
    refine Writes.foldlM fun x hx => ?_
    obtain ⟨k, hk, rfl⟩ := List.mem_range'.mp hx
    rw [Nat.zero_add]
    exact writes_pair (by omega) (List.mem_range.mp hy) hn hsrc
  refine (Writes.foldlM hrow).congr (fun i => ?_) fun _ _ => rfl
  simp only [List.mem_range]
  exact exists_congr fun y => and_congr_right fun _ => exists_pair_iff

theorem yuy2_agree (hw : width.toNat % 2 = 0) (hsmall : width.toNat * height.toNat * 4 < 2 ^ 32)
    (hsrc : src.length = height.toNat * (width.toNat * 2)) {dst : List UInt8}
    (hdst : dst.length = width.toNat * height.toNat * 4) :
    ∃ out, convertYuy2ToBgra src dst width.toNat height.toNat (width.toNat * 2)
        (width.toNat * 4) = some out ∧
      yuy2ToBgra src width height = some out := by
  have hrows := tight_size width.toNat height.toNat
  have hbytes : height.toNat * (width.toNat * 2) = width.toNat * height.toNat * 2 := by
    rw [Nat.mul_comm width.toNat height.toNat, Nat.mul_assoc]
  have hconvert := writes_convertYuy2 hsrc.ge (by omega) (by omega) (Nat.le_refl _) hrows.le hsmall
  obtain ⟨out, hout, hloop⟩ := hconvert.ext (writes_yuy2ToBgra hw hrows.le hsrc.ge)
    (fun i hi => inRaster_of_lt (hrows ▸ hi)) hdst List.length_replicate
  refine ⟨out, hout, ?_⟩
  rw [yuy2ToBgra]
  dsimp only
  rw [if_neg (by omega)]
  exact hloop

end Loops

/-- **The two converters agree.** On buffers without padding both get through, and give the same
bytes. -/
theorem convertFormat_eq_convertToBgra {format : PixelFormat}
    {width height srcStride dstStride : UInt32} {src dst : List UInt8}
    (hformat : format ∈ [PixelFormat.nv12, .i420, .yuy2]) (hw : width.toNat % 2 = 0)
    (hh : height.toNat % 2 = 0) (hsmall : 4 * (width.toNat * height.toNat) < 2 ^ 32)
    (hsrcStride : srcStride.toNat = width.toNat * format.bytesPerPixel)
    (hdstStride : dstStride.toNat = width.toNat * 4)
    (hsrc : src.length = bufferSize format srcStride.toNat height.toNat)
    (hdst : dst.length = 4 * (width.toNat * height.toNat)) :
    ∃ out, convertFormat src dst format .bgra width height srcStride dstStride = some (.ok out) ∧
      convertToBgra src width height format = some (some out) := by
  rw [Nat.mul_comm 4] at hsmall hdst
  rw [hsrcStride] at hsrc
  simp only [List.mem_cons, List.not_mem_nil, or_false] at hformat
  obtain rfl | rfl | rfl := hformat
  · rw [PixelFormat.bytesPerPixel, Nat.mul_one] at hsrc
    obtain ⟨out, hconvert, hother⟩ := nv12_agree hw hh hsmall hsrc hdst
    refine ⟨out, ?_, congrArg (Option.map some) hother⟩
    exact congrArg (Option.map Except.ok) hconvert
  · rw [PixelFormat.bytesPerPixel, Nat.mul_one] at hsrc
    obtain ⟨out, hconvert, hother⟩ := i420_agree hw hh hsmall hsrc hdst
    refine ⟨out, ?_, congrArg (Option.map some) hother⟩
    exact congrArg (Option.map Except.ok) hconvert
  · obtain ⟨out, hconvert, hother⟩ := yuy2_agree hw hsmall hsrc hdst
    refine ⟨out, ?_, congrArg (Option.map some) hother⟩
    rw [← hdstStride] at hconvert
    rw [PixelFormat.bytesPerPixel] at hsrcStride
    rw [← hsrcStride] at hconvert
    exact congrArg (Option.map Except.ok) hconvert

/-- Four grey pixels. -/
theorem grey_square_agrees :
    ∃ out, convertFormat [126, 126, 126, 126, 128, 128] (List.replicate 16 0) .nv12 .bgra 2 2 2 8 =
        some (.ok out) ∧
      convertToBgra [126, 126, 126, 126, 128, 128] 2 2 .nv12 = some (some out) :=
  convertFormat_eq_convertToBgra List.mem_cons_self rfl rfl (by decide) rfl rfl rfl rfl

end Yuv

end Pipewire

end Cheirizo
