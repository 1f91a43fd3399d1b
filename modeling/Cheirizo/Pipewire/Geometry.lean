import Cheirizo.Pipewire.Format

/-!
# Which sample a pixel is made of

The samples of a pixel lie where the format and the stride put them: behind one another in the
packed formats, in two or three planes in the others, shared by neighbours where the colour is
subsampled. A conversion has to find them there, and put what it makes of them where the
destination's stride puts the pixel.

The loops over packed pixels do. The loops over planes take any buffer for one without padding. The
copy between buffers of one format copies the first plane row by row if there is padding, and then
none of the others.

## Main definitions

* `positions`, `samplesAt` — where the samples of a pixel are, and what they are
* `Honours` — a conversion uses the samples of each pixel
* `Unpadded` — the geometries for which it does

## Main results

* `writes_convertPacked`, `writes_convertYuy2`, `writes_convertNv12`, `writes_convertI420` — what
  the loops write
* `convertFormat_honours_iff` — the geometries that are honoured
-/

namespace Cheirizo

namespace Pipewire

open Buffer

/-! ### Samples -/

/-- A pixel as it is stored. -/
def Bgra.bytes (pixel : Bgra) : List UInt8 := [pixel.b, pixel.g, pixel.r, pixel.a]

/-- Where the samples of the pixel at `(x, y)` are in a buffer of `h` rows. The colour planes have
half the rows, of as many bytes (two samples a pair) or half as many (one sample). -/
def positions (format : PixelFormat) (s h x y : ℕ) : List ℕ :=
  match format with
  | .nv12 => [y * s + x, h * s + (y / 2 * s + x / 2 * 2), h * s + (y / 2 * s + x / 2 * 2) + 1]
  | .i420 => [y * s + x, h * s + (y / 2 * (s / 2) + x / 2),
      h * s + h / 2 * (s / 2) + (y / 2 * (s / 2) + x / 2)]
  | .yuy2 => [y * s + x * 2, y * s + (x / 2 * 4 + 1), y * s + (x / 2 * 4 + 3)]
  | format => (List.range format.bytesPerPixel).map fun c => y * s + (x * format.bytesPerPixel + c)

/-- The size of a buffer with all its planes. -/
def bufferSize (format : PixelFormat) (s h : ℕ) : ℕ :=
  match format with
  | .nv12 => h * s + h / 2 * s
  | .i420 => h * s + 2 * (h / 2 * (s / 2))
  | _ => h * s

/-- The samples of a pixel, where they are within the buffer. -/
def samplesAt (format : PixelFormat) (data : List UInt8) (s h x y : ℕ) : List (Option UInt8) :=
  (positions format s h x y).map fun i => data[i]?

/-- The bytes of a BGRA pixel with these samples. -/
def toBgra (format : PixelFormat) (samples : List UInt8) : List UInt8 :=
  match format, samples with
  | .rgb, [r, g, b] => [b, g, r, 255]
  | .rgba, [r, g, b, a] => [b, g, r, a]
  | .bgr, [b, g, r] => [b, g, r, 255]
  | .nv12, [y, u, v] | .i420, [y, u, v] | .yuy2, [y, u, v] => (yuvPixel y u v).bytes
  | _, samples => samples

/-- What is to be in the destination: the samples of the source, or what is made of them. -/
def expected (srcFormat dstFormat : PixelFormat) (src : List UInt8) (s h x y : ℕ) :
    List (Option UInt8) :=
  if srcFormat = dstFormat then samplesAt srcFormat src s h x y
  else (toBgra srcFormat ((positions srcFormat s h x y).map fun i => src.getD i 0)).map some

/-! ### Pictures -/

section Pictures

variable {n s w h x y : ℕ}

/-- The cells of a picture of BGRA pixels. -/
def pictureCell (pixel : ℕ → ℕ → Bgra) (k y : ℕ) : UInt8 :=
  (pixel (k / 4) y).bytes.getD (k % 4) 0

theorem pictureCell_apply (pixel : ℕ → ℕ → Bgra) (x y : ℕ) {c : ℕ} (hc : c < 4) :
    pictureCell pixel (x * 4 + c) y = (pixel x y).bytes.getD c 0 := by
  rw [pictureCell, raster_div hc, raster_mod hc]

theorem writes_putBgra {pixel : ℕ → ℕ → Bgra} {colour : Bgra} (hcolour : colour = pixel x y)
    (hrow : x * 4 + 4 ≤ s) (hfits : y * s + (x * 4 + 4) ≤ n) :
    Writes n (fun dst => putBgra dst (y * s + x * 4) colour)
      (fun i => ∃ c < 4, i = y * s + (x * 4 + c)) (rowVal s (pictureCell pixel)) := by
  have hval : ∀ c < 4, rowVal s (pictureCell pixel) (y * s + x * 4 + c) =
      (pixel x y).bytes.getD c 0 := by
    intro c hc
    rw [Nat.add_assoc, rowVal_apply (by omega), pictureCell_apply pixel x y hc]
  rw [hcolour]
  have hb := writes_put (n := n) (i := y * s + x * 4) (by omega) (hval 0 (by omega))
  have hg := writes_put (n := n) (i := y * s + x * 4 + 1) (by omega) (hval 1 (by omega))
  have hr := writes_put (n := n) (i := y * s + x * 4 + 2) (by omega) (hval 2 (by omega))
  have ha := writes_put (n := n) (i := y * s + x * 4 + 3) (by omega) (hval 3 (by omega))
  refine ((hb.bind (hg.bind (hr.bind ha))).congr (fun i => ?_) fun _ _ => rfl).of_eq
    fun dst _ => rfl
  constructor
  · rintro (rfl | rfl | rfl | rfl)
    · exact ⟨0, by omega, rfl⟩
    · exact ⟨1, by omega, by omega⟩
    · exact ⟨2, by omega, by omega⟩
    · exact ⟨3, by omega, by omega⟩
  · rintro ⟨c, hc, rfl⟩
    omega

/-- The pixels of a picture that was written. -/
theorem samplesAt_picture {pixel : ℕ → ℕ → Bgra} {out : List UInt8}
    (hx : x * 4 + 4 ≤ s)
    (hout : ∀ c < 4, out[y * s + (x * 4 + c)]? =
      some (rowVal s (pictureCell pixel) (y * s + (x * 4 + c)))) :
    samplesAt .bgra out s h x y = (pixel x y).bytes.map some := by
  have hcell : ∀ c < 4, out[y * s + (x * 4 + c)]? = some ((pixel x y).bytes.getD c 0) := by
    intro c hc
    rw [hout c hc, rowVal_apply (by omega), pictureCell_apply pixel x y hc]
  show [out[y * s + (x * 4 + 0)]?, out[y * s + (x * 4 + 1)]?, out[y * s + (x * 4 + 2)]?,
    out[y * s + (x * 4 + 3)]?] = _
  rw [hcell 0 (by omega), hcell 1 (by omega), hcell 2 (by omega), hcell 3 (by omega)]
  rfl

/-- The loop over rows, where each row's part is written. -/
theorem writes_forRows {src : List UInt8} {ss : ℕ} {val : ℕ → UInt8} {part : ℕ → ℕ → Prop}
    {body : List UInt8 → ℕ → List UInt8 → Option (List UInt8)}
    (hsrc : ∀ y < h, y * ss ≤ src.length) (hsmall : src.length < 2 ^ 32)
    (hdst : ∀ y < h, y * s ≤ n) (hn : n < 2 ^ 32)
    (hbody : ∀ y < h, Writes n (body (src.drop (y * ss)) (y * s)) (part y) val) :
    Writes n (fun dst => forRows src dst h ss s body) (fun i => ∃ y < h, part y i) val := by
  have hturn : ∀ y ∈ List.range h, Writes n (fun dst => do
      let srcRow ← suffix src (u32 (y * ss))
      let _ ← suffix dst (u32 (y * s))
      body srcRow (u32 (y * s)) dst) (part y) val := by
    intro y hy
    have hy : y < h := List.mem_range.mp hy
    have hys := hsrc y hy
    have hyd := hdst y hy
    refine (hbody y hy).of_eq fun dst hlength => ?_
    rw [u32_eq (by omega), u32_eq (by omega), suffix, if_pos hys, suffix, if_pos (by omega)]
    rfl
  refine (Writes.foldlM hturn).congr (fun i => ?_) fun _ _ => rfl
  simp only [List.mem_range]

end Pictures

/-! ### The loops -/

section Loops

variable {src : List UInt8} {n w h ss s : ℕ}

theorem getElem?_drop_getD {start i : ℕ} (h : start + i < src.length) :
    (src.drop start)[i]? = some (src.getD (start + i) 0) := by
  rw [List.getElem?_drop, List.getD_eq_getElem _ _ h, List.getElem?_eq_getElem h]

/-- A loop over packed pixels writes each of them. -/
theorem writes_convertPacked {bytes : ℕ} {read : (ℕ → Option UInt8) → Option Bgra}
    {pixel : ℕ → ℕ → Bgra} (hsrc : h * ss ≤ src.length) (hsmall : src.length < 2 ^ 32)
    (hrow : w * 4 ≤ s) (hdst : h * s ≤ n) (hn : n < 2 ^ 32)
    (hread : ∀ x < w, ∀ y < h,
      read (fun channel => (src.drop (y * ss))[x * bytes + channel]?) = some (pixel x y)) :
    Writes n (fun dst => convertPacked bytes read src dst w h ss s) (InRaster s 4 w h)
      (rowVal s (pictureCell pixel)) := by
  have hbody : ∀ y < h, Writes n
      (fun dst => (List.range w).foldlM (fun dst x => do
        let colour ← read fun channel => (src.drop (y * ss))[x * bytes + channel]?
        putBgra dst (y * s + x * 4) colour) dst)
      (fun i => ∃ x ∈ List.range w, ∃ c < 4, i = y * s + (x * 4 + c))
      (rowVal s (pictureCell pixel)) := by
    intro y hy
    refine Writes.foldlM fun x hx => ?_
    have hx : x < w := List.mem_range.mp hx
    have hcol : x * 4 + 4 ≤ w * 4 := raster_le hx
    have hend : y * s + s ≤ h * s := raster_le hy
    have hput : Writes n (fun dst => putBgra dst (y * s + x * 4) (pixel x y))
        (fun i => ∃ c < 4, i = y * s + (x * 4 + c)) (rowVal s (pictureCell pixel)) :=
      writes_putBgra rfl (by omega) (by omega)
    refine hput.of_eq fun dst _ => ?_
    rw [hread x hx y hy]
    rfl
  refine (writes_forRows (s := s) (fun y hy => ?_) hsmall (fun y hy => ?_) hn hbody).congr
    (fun i => ?_) fun _ _ => rfl
  · exact (Nat.mul_le_mul_right ss (Nat.le_of_lt hy)).trans hsrc
  · exact (Nat.mul_le_mul_right s (Nat.le_of_lt hy)).trans hdst
  · simp only [InRaster, List.mem_range]

/-- The pixel at `(x, y)` of two that share their colour. -/
def yuy2Pixel (src : List UInt8) (ss x y : ℕ) : Bgra :=
  yuvPixel (src.getD (y * ss + x * 2) 0) (src.getD (y * ss + (x / 2 * 4 + 1)) 0)
    (src.getD (y * ss + (x / 2 * 4 + 3)) 0)

/-- Pair by pair, or pixel by pixel. -/
theorem exists_pair_iff {P : ℕ → Prop} :
    (∃ x ∈ List.range' 0 ((w + 1) / 2) 2, P x ∨ x + 1 < w ∧ P (x + 1)) ↔ ∃ x < w, P x := by
  constructor
  · rintro ⟨x, hx, hfirst | ⟨hin, hsecond⟩⟩
    · obtain ⟨k, hk, rfl⟩ := List.mem_range'.mp hx
      exact ⟨_, by omega, hfirst⟩
    · exact ⟨_, hin, hsecond⟩
  · rintro ⟨x, hx, hP⟩
    obtain ⟨k, rfl | rfl⟩ := Nat.even_or_odd' x
    · exact ⟨2 * k, List.mem_range'.mpr ⟨k, by omega, by omega⟩, Or.inl hP⟩
    · exact ⟨2 * k, List.mem_range'.mpr ⟨k, by omega, by omega⟩, Or.inr ⟨hx, hP⟩⟩

/-- One turn writes both pixels of a pair, or the last one. -/
theorem writes_yuy2Pair (hsrc : h * ss ≤ src.length) (hpairs : (w + 1) / 2 * 4 ≤ ss)
    (hrow : w * 4 ≤ s) (hdst : h * s ≤ n) {x y : ℕ} (hy : y < h)
    (hx : x ∈ List.range' 0 ((w + 1) / 2) 2) :
    Writes n (fun dst => do
        let y0 ← (src.drop (y * ss))[x * 2]?
        let u ← (src.drop (y * ss))[x * 2 + 1]?
        let y1 ← (src.drop (y * ss))[x * 2 + 2]?
        let v ← (src.drop (y * ss))[x * 2 + 3]?
        let dst ← putBgra dst (y * s + x * 4) (yuvPixel y0 u v)
        if x + 1 < w then putBgra dst (y * s + (x + 1) * 4) (yuvPixel y1 u v)
        else some dst)
      (fun i => (∃ c < 4, i = y * s + (x * 4 + c)) ∨
        x + 1 < w ∧ ∃ c < 4, i = y * s + ((x + 1) * 4 + c))
      (rowVal s (pictureCell (yuy2Pixel src ss))) := by
  obtain ⟨k, hk, rfl⟩ := List.mem_range'.mp hx
  have hend : y * s + s ≤ h * s := raster_le hy
  have hbytes : y * ss + ss ≤ h * ss := raster_le hy
  have hfirst : Writes n (fun dst => putBgra dst (y * s + (0 + 2 * k) * 4)
      (yuvPixel (src.getD (y * ss + (0 + 2 * k) * 2) 0)
        (src.getD (y * ss + ((0 + 2 * k) * 2 + 1)) 0)
        (src.getD (y * ss + ((0 + 2 * k) * 2 + 3)) 0)))
      (fun i => ∃ c < 4, i = y * s + ((0 + 2 * k) * 4 + c))
      (rowVal s (pictureCell (yuy2Pixel src ss))) := by
    refine writes_putBgra ?_ (by omega) (by omega)
    rw [yuy2Pixel, show (0 + 2 * k) / 2 * 4 = (0 + 2 * k) * 2 by omega]
  have hsecond : Writes n (fun dst => if 0 + 2 * k + 1 < w then
        putBgra dst (y * s + (0 + 2 * k + 1) * 4)
          (yuvPixel (src.getD (y * ss + ((0 + 2 * k) * 2 + 2)) 0)
            (src.getD (y * ss + ((0 + 2 * k) * 2 + 1)) 0)
            (src.getD (y * ss + ((0 + 2 * k) * 2 + 3)) 0))
      else some dst)
      (fun i => 0 + 2 * k + 1 < w ∧ ∃ c < 4, i = y * s + ((0 + 2 * k + 1) * 4 + c))
      (rowVal s (pictureCell (yuy2Pixel src ss))) := by
    by_cases hin : 0 + 2 * k + 1 < w
    · simp only [hin, if_true, true_and]
      refine writes_putBgra ?_ (by omega) (by omega)
      rw [yuy2Pixel, show (0 + 2 * k + 1) / 2 * 4 = (0 + 2 * k) * 2 by omega,
        show (0 + 2 * k + 1) * 2 = (0 + 2 * k) * 2 + 2 by omega]
    · simp only [hin, if_false, false_and]
      exact .nothing n _
  refine (hfirst.bind hsecond).of_eq fun dst _ => ?_
  rw [getElem?_drop_getD (by omega), getElem?_drop_getD (by omega),
    getElem?_drop_getD (by omega), getElem?_drop_getD (by omega)]
  rfl

/-- Each turn writes both pixels, or the last one. -/
theorem writes_convertYuy2 (hsrc : h * ss ≤ src.length) (hsmall : src.length < 2 ^ 32)
    (hpairs : (w + 1) / 2 * 4 ≤ ss) (hrow : w * 4 ≤ s) (hdst : h * s ≤ n) (hn : n < 2 ^ 32) :
    Writes n (fun dst => convertYuy2ToBgra src dst w h ss s) (InRaster s 4 w h)
      (rowVal s (pictureCell (yuy2Pixel src ss))) := by
  have hbody : ∀ y < h, Writes n
      (fun dst => (List.range' 0 ((w + 1) / 2) 2).foldlM (fun dst x => do
        let y0 ← (src.drop (y * ss))[x * 2]?
        let u ← (src.drop (y * ss))[x * 2 + 1]?
        let y1 ← (src.drop (y * ss))[x * 2 + 2]?
        let v ← (src.drop (y * ss))[x * 2 + 3]?
        let dst ← putBgra dst (y * s + x * 4) (yuvPixel y0 u v)
        if x + 1 < w then putBgra dst (y * s + (x + 1) * 4) (yuvPixel y1 u v)
        else some dst) dst)
      (fun i => ∃ x ∈ List.range' 0 ((w + 1) / 2) 2, (∃ c < 4, i = y * s + (x * 4 + c)) ∨
        x + 1 < w ∧ ∃ c < 4, i = y * s + ((x + 1) * 4 + c))
      (rowVal s (pictureCell (yuy2Pixel src ss))) := fun y hy =>
    Writes.foldlM fun x hx => writes_yuy2Pair hsrc hpairs hrow hdst hy hx
  refine (writes_forRows (s := s) (fun y hy => ?_) hsmall (fun y hy => ?_) hn hbody).congr
    (fun i => exists_congr fun y => and_congr_right fun _ => exists_pair_iff) fun _ _ => rfl
  · exact (Nat.mul_le_mul_right ss (Nat.le_of_lt hy)).trans hsrc
  · exact (Nat.mul_le_mul_right s (Nat.le_of_lt hy)).trans hdst

/-- A loop over planes, each turn of which makes one pixel from what it reads. -/
theorem writes_planes {turn : ℕ → ℕ → List UInt8 → Option (List UInt8)} {pixel : ℕ → ℕ → Bgra}
    (hturn : ∀ x < w, ∀ y < h, ∀ dst,
      turn y x dst = putBgra dst (y * (w * 4) + x * 4) (pixel x y))
    (hdst : h * (w * 4) ≤ n) :
    Writes n (fun dst => (List.range h).foldlM (fun dst y =>
        (List.range w).foldlM (fun dst x => turn y x dst) dst) dst) (InRaster (w * 4) 4 w h)
      (rowVal (w * 4) (pictureCell pixel)) := by
  refine writes_raster fun y hy x hx => ?_
  have hend : y * (w * 4) + w * 4 ≤ h * (w * 4) := raster_le hy
  have hcol : x * 4 + 4 ≤ w * 4 := raster_le hx
  have hput : Writes n (fun dst => putBgra dst (y * (w * 4) + x * 4) (pixel x y))
      (fun i => ∃ c < 4, i = y * (w * 4) + (x * 4 + c))
      (rowVal (w * 4) (pictureCell pixel)) := writes_putBgra rfl hcol (by omega)
  exact hput.of_eq fun dst _ => hturn x hx y hy dst

/-- The brightness of a pixel, in the plane at the beginning. -/
theorem getElem?_luma {yPlane : List UInt8} {x y : ℕ}
    (hcells : ∀ i < h * w, yPlane[i]? = src[0 + i]?) (hsrc : h * w ≤ src.length) (hx : x < w)
    (hy : y < h) : yPlane[y * w + x]? = some (src.getD (y * w + x) 0) := by
  have hrow : y * w + w ≤ h * w := raster_le hy
  rw [hcells _ (by omega), Nat.zero_add, List.getD_eq_getElem _ _ (by omega),
    List.getElem?_eq_getElem]

/-- Without padding, the pixels of four bytes lie behind those of one. -/
theorem four_mul_position (w x y : ℕ) : (y * w + x) * 4 = y * (w * 4) + x * 4 := by
  rw [Nat.add_mul, Nat.mul_assoc]

/-- The pixel at `(x, y)` of planes without padding, the colours in pairs. -/
def nv12Pixel (src : List UInt8) (w h x y : ℕ) : Bgra :=
  yuvPixel (src.getD (y * w + x) 0) (src.getD (h * w + (y / 2 * w + x / 2 * 2)) 0)
    (src.getD (h * w + (y / 2 * w + x / 2 * 2) + 1) 0)

/-- The colours of a pixel are in the row of colours that it shares. -/
theorem chroma_lt {x y c : ℕ} (hw : w % 2 = 0) (hx : x < w) (hy : y < h) (hh : h % 2 = 0)
    (hc : c < 2) : y / 2 * w + (x / 2 * 2 + c) < h / 2 * w := by
  have hrow : y / 2 * w + w ≤ h / 2 * w := raster_le (by omega)
  omega

theorem writes_convertNv12 (hw : w % 2 = 0) (hh : h % 2 = 0)
    (hsrc : h * w + h / 2 * w ≤ src.length) (hsmall : src.length < 2 ^ 32)
    (hdst : h * (w * 4) ≤ n) (hn : n < 2 ^ 32) :
    Writes n (fun dst => convertNv12ToBgra src dst w h) (InRaster (w * 4) 4 w h)
      (rowVal (w * 4) (pictureCell (nv12Pixel src w h))) := by
  have hyEnd : 0 + h * w ≤ src.length := by omega
  obtain ⟨yPlane, hyPlane, -, hyCells⟩ := exists_slice hyEnd
  have huvPlane : suffix src (h * w) = some (src.drop (h * w)) := if_pos (by omega)
  have hturn : ∀ x < w, ∀ y < h, ∀ dst, (do
      let yVal ← yPlane[u32 (y * w + x)]?
      let uVal ← (src.drop (h * w))[u32 (y / 2 * w + x / 2 * 2)]?
      let vVal ← (src.drop (h * w))[u32 (y / 2 * w + x / 2 * 2) + 1]?
      putBgra dst (u32 ((y * w + x) * 4)) (yuvPixel yVal uVal vVal)) =
        putBgra dst (y * (w * 4) + x * 4) (nv12Pixel src w h x y) := by
    intro x hx y hy dst
    have hrow : y * w + w ≤ h * w := raster_le hy
    have hend : y * (w * 4) + w * 4 ≤ h * (w * 4) := raster_le hy
    have hu := chroma_lt hw hx hy hh (Nat.succ_pos 1)
    have hv := chroma_lt hw hx hy hh (Nat.lt_succ_self 1)
    rw [four_mul_position, u32_eq (by omega), u32_eq (by omega), u32_eq (by omega),
      getElem?_luma hyCells (by omega) hx hy, getElem?_drop_getD (by omega),
      getElem?_drop_getD (by omega)]
    rfl
  refine (writes_planes hturn hdst).of_eq fun dst _ => ?_
  rw [convertNv12ToBgra, Nat.mul_comm w h, u32_eq (by omega)]
  rw [Nat.zero_add] at hyPlane
  rw [hyPlane, huvPlane]
  rfl

/-- The pixel at `(x, y)` of three planes without padding. -/
def i420Pixel (src : List UInt8) (w h x y : ℕ) : Bgra :=
  yuvPixel (src.getD (y * w + x) 0) (src.getD (h * w + (y / 2 * (w / 2) + x / 2)) 0)
    (src.getD (h * w + h / 2 * (w / 2) + (y / 2 * (w / 2) + x / 2)) 0)

/-- A quarter of an even picture. -/
theorem quarter_eq (hw : w % 2 = 0) (hh : h % 2 = 0) : h * w / 4 = h / 2 * (w / 2) := by
  obtain ⟨a, rfl⟩ := Nat.dvd_of_mod_eq_zero hh
  obtain ⟨b, rfl⟩ := Nat.dvd_of_mod_eq_zero hw
  rw [Nat.mul_div_cancel_left a (by omega), Nat.mul_div_cancel_left b (by omega),
    show 2 * a * (2 * b) = 4 * (a * b) by rw [Nat.mul_mul_mul_comm],
    Nat.mul_div_cancel_left _ (by omega)]

theorem writes_convertI420 (hw : w % 2 = 0) (hh : h % 2 = 0)
    (hsrc : h * w + 2 * (h / 2 * (w / 2)) ≤ src.length) (hsmall : src.length < 2 ^ 32)
    (hdst : h * (w * 4) ≤ n) (hn : n < 2 ^ 32) :
    Writes n (fun dst => convertI420ToBgra src dst w h) (InRaster (w * 4) 4 w h)
      (rowVal (w * 4) (pictureCell (i420Pixel src w h))) := by
  have hyEnd : 0 + h * w ≤ src.length := by omega
  have huEnd : h * w + h / 2 * (w / 2) ≤ src.length := by omega
  obtain ⟨yPlane, hyPlane, -, hyCells⟩ := exists_slice hyEnd
  obtain ⟨uPlane, huPlane, -, huCells⟩ := exists_slice huEnd
  have hvPlane : suffix src (h * w + h / 2 * (w / 2)) =
      some (src.drop (h * w + h / 2 * (w / 2))) := if_pos (by omega)
  have hturn : ∀ x < w, ∀ y < h, ∀ dst, (do
      let yVal ← yPlane[u32 (y * w + x)]?
      let uVal ← uPlane[u32 (u32 (y / 2 * w) / 2 + x / 2)]?
      let vVal ← (src.drop (h * w + h / 2 * (w / 2)))[u32 (u32 (y / 2 * w) / 2 + x / 2)]?
      putBgra dst (u32 ((y * w + x) * 4)) (yuvPixel yVal uVal vVal)) =
        putBgra dst (y * (w * 4) + x * 4) (i420Pixel src w h x y) := by
    intro x hx y hy dst
    have hrow : y * w + w ≤ h * w := raster_le hy
    have hend : y * (w * 4) + w * 4 ≤ h * (w * 4) := raster_le hy
    have hchroma : y / 2 * (w / 2) + w / 2 ≤ h / 2 * (w / 2) := raster_le (by omega)
    have hhalf : y / 2 * w = y / 2 * (w / 2) * 2 := by
      rw [Nat.mul_assoc, Nat.div_mul_cancel (Nat.dvd_of_mod_eq_zero hw)]
    have hindex : u32 (u32 (y / 2 * w) / 2 + x / 2) = y / 2 * (w / 2) + x / 2 := by
      have hinner : u32 (y / 2 * (w / 2) * 2) = y / 2 * (w / 2) * 2 := u32_eq (by omega)
      rw [hhalf, hinner, Nat.mul_div_cancel _ Nat.two_pos, u32_eq (by omega)]
    have hblue : uPlane[y / 2 * (w / 2) + x / 2]? =
        some (src.getD (h * w + (y / 2 * (w / 2) + x / 2)) 0) := by
      rw [huCells _ (by omega), List.getD_eq_getElem _ _ (by omega), List.getElem?_eq_getElem]
    rw [four_mul_position, hindex, u32_eq (by omega), u32_eq (by omega),
      getElem?_luma hyCells (by omega) hx hy, hblue, getElem?_drop_getD (by omega)]
    rfl
  refine (writes_planes hturn hdst).of_eq fun dst _ => ?_
  rw [convertI420ToBgra, Nat.mul_comm w h]
  dsimp only
  rw [u32_eq (by omega), quarter_eq hw hh]
  rw [Nat.zero_add] at hyPlane
  rw [hyPlane, huPlane, hvPlane]
  rfl

end Loops

/-! ### Geometries -/

/-- The pairs of formats that a conversion knows. -/
def Accepts (srcFormat dstFormat : PixelFormat) (srcStride dstStride : UInt32) : Prop :=
  srcFormat = dstFormat ∧ srcStride = dstStride ∨
    dstFormat = .bgra ∧ srcFormat ∈ [PixelFormat.rgb, .rgba, .bgr, .nv12, .yuy2, .i420]

/-- A picture, and strides that leave room for its rows. The formats with a quarter of the colours
have an even size. -/
structure Fits (srcFormat dstFormat : PixelFormat) (width height srcStride dstStride : UInt32) :
    Prop where
  accepts : Accepts srcFormat dstFormat srcStride dstStride
  width_pos : 0 < width.toNat
  height_pos : 0 < height.toNat
  even : srcFormat = .nv12 ∨ srcFormat = .i420 → width.toNat % 2 = 0 ∧ height.toNat % 2 = 0
  src_row : width.toNat * srcFormat.bytesPerPixel ≤ srcStride.toNat
  dst_row : width.toNat * dstFormat.bytesPerPixel ≤ dstStride.toNat
  src_small : bufferSize srcFormat srcStride.toNat height.toNat < 2 ^ 32
  dst_small : bufferSize dstFormat dstStride.toNat height.toNat < 2 ^ 32

/-- Whatever is in the buffers, no access is out of bounds, and each pixel of the destination is
made of the samples of that pixel. -/
def Honours (srcFormat dstFormat : PixelFormat) (width height srcStride dstStride : UInt32) :
    Prop :=
  ∀ src dst : List UInt8, src.length = bufferSize srcFormat srcStride.toNat height.toNat →
    dst.length = bufferSize dstFormat dstStride.toNat height.toNat →
    ∃ out, convertFormat src dst srcFormat dstFormat width height srcStride dstStride =
        some (.ok out) ∧
      ∀ x < width.toNat, ∀ y < height.toNat,
        samplesAt dstFormat out dstStride.toNat height.toNat x y =
          expected srcFormat dstFormat src srcStride.toNat height.toNat x y

/-- Planes are not padded. Of YUY2, the width is even; or the stride leaves room for the missing
pixel of the last pair when it is read, and none when it is only copied. -/
def Unpadded (srcFormat dstFormat : PixelFormat) (width srcStride dstStride : ℕ) : Prop :=
  match srcFormat with
  | .nv12 | .i420 => srcStride = width ∧ (dstFormat = .bgra → dstStride = width * 4)
  | .yuy2 => width % 2 = 0 ∨
      if dstFormat = .bgra then width * 2 + 2 ≤ srcStride else srcStride < width * 2 + 2
  | _ => True

section Honours

variable {srcFormat dstFormat : PixelFormat} {width height srcStride dstStride : UInt32}

/-- A loop that writes the pixels of a picture honours the geometry. -/
theorem honours_of_writes (pixel : List UInt8 → ℕ → ℕ → Bgra)
    {f : List UInt8 → List UInt8 → Option (List UInt8)}
    (hconvert : ∀ src dst, convertFormat src dst srcFormat .bgra width height srcStride dstStride =
      (f src dst).map .ok)
    (hrow : width.toNat * 4 ≤ dstStride.toNat)
    (hwrites : ∀ src : List UInt8,
      src.length = bufferSize srcFormat srcStride.toNat height.toNat →
        Writes (height.toNat * dstStride.toNat) (f src)
          (InRaster dstStride.toNat 4 width.toNat height.toNat)
          (rowVal dstStride.toNat (pictureCell (pixel src))))
    (hpixel : ∀ src x y, (pixel src x y).bytes.map some =
      expected srcFormat .bgra src srcStride.toNat height.toNat x y) :
    Honours srcFormat .bgra width height srcStride dstStride := by
  intro src dst hsrc hdst
  obtain ⟨out, hout, -, hcells⟩ := (hwrites src hsrc).eq_some hdst
  refine ⟨out, by rw [hconvert, hout]; rfl, fun x hx y hy => ?_⟩
  have hcol : x * 4 + 4 ≤ width.toNat * 4 := raster_le hx
  rw [samplesAt_picture (by omega) fun c hc => hcells _ ⟨y, hy, x, hx, c, hc, rfl⟩, hpixel]

/-- So does each loop over packed pixels that reads the bytes of a pixel. -/
theorem honours_packed {read : (ℕ → Option UInt8) → Option Bgra} (make : (ℕ → UInt8) → Bgra)
    (h : Fits srcFormat .bgra width height srcStride dstStride)
    (hsize : bufferSize srcFormat srcStride.toNat height.toNat = height.toNat * srcStride.toNat)
    (hconvert : ∀ src dst, convertFormat src dst srcFormat .bgra width height srcStride dstStride =
      (convertPacked srcFormat.bytesPerPixel read src dst width.toNat height.toNat srcStride.toNat
        dstStride.toNat).map .ok)
    (hread : ∀ f g, (∀ c < srcFormat.bytesPerPixel, f c = some (g c)) → read f = some (make g))
    (hmake : ∀ src x y, (make fun c => src.getD (y * srcStride.toNat +
        (x * srcFormat.bytesPerPixel + c)) 0).bytes.map some =
      expected srcFormat .bgra src srcStride.toNat height.toNat x y) :
    Honours srcFormat .bgra width height srcStride dstStride := by
  refine honours_of_writes _ hconvert h.dst_row (fun src hsrc => ?_) hmake
  have hsrc' := hsrc.trans hsize
  refine writes_convertPacked (Nat.le_of_eq hsrc'.symm) (hsrc ▸ h.src_small) h.dst_row
    (Nat.le_refl _) h.dst_small fun x hx y hy => hread _ _ fun c hc => ?_
  have hcol := (raster_lt hx hc).trans_le h.src_row
  have hend : y * srcStride.toNat + srcStride.toNat ≤ src.length := hsrc' ▸ raster_le hy
  exact getElem?_drop_getD (by omega)

theorem honours_rgb (h : Fits .rgb .bgra width height srcStride dstStride) :
    Honours .rgb .bgra width height srcStride dstStride := by
  refine honours_packed (fun byte => ⟨byte 2, byte 1, byte 0, 255⟩) h rfl
    (fun _ _ => rfl) (fun f g hfg => ?_) fun _ _ _ => rfl
  rw [hfg 2 (by decide), hfg 1 (by decide), hfg 0 (by decide)]
  rfl

theorem honours_rgba (h : Fits .rgba .bgra width height srcStride dstStride) :
    Honours .rgba .bgra width height srcStride dstStride := by
  refine honours_packed (fun byte => ⟨byte 2, byte 1, byte 0, byte 3⟩) h rfl
    (fun _ _ => rfl) (fun f g hfg => ?_) fun _ _ _ => rfl
  rw [hfg 2 (by decide), hfg 1 (by decide), hfg 0 (by decide), hfg 3 (by decide)]
  rfl

theorem honours_bgr (h : Fits .bgr .bgra width height srcStride dstStride) :
    Honours .bgr .bgra width height srcStride dstStride := by
  refine honours_packed (fun byte => ⟨byte 0, byte 1, byte 2, 255⟩) h rfl
    (fun _ _ => rfl) (fun f g hfg => ?_) fun _ _ _ => rfl
  rw [hfg 2 (by decide), hfg 1 (by decide), hfg 0 (by decide)]
  rfl

/-- Without room for the last pair, its second pixel is looked for beyond the last row. -/
theorem convertYuy2_eq_none {src dst : List UInt8} {w h ss ds : ℕ} (hw : 0 < w) (hh : 0 < h)
    (hodd : ¬ w % 2 = 0) (hroom : ss < w * 2 + 2) (hsmall : h * ss < 2 ^ 32)
    (hsrc : src.length = h * ss) : convertYuy2ToBgra src dst w h ss ds = none := by
  refine foldlM_eq_none (k := h - 1) (List.mem_range.mpr (by omega)) (fun dst => ?_) dst
  have hlast : (h - 1) * ss + ss ≤ h * ss := raster_le (by omega)
  have hend : (h - 1) * ss + ss = h * ss := by
    rw [← Nat.succ_mul, Nat.succ_eq_add_one, Nat.sub_add_cancel hh]
  rw [u32_eq (by omega), suffix, if_pos (by omega)]
  show (suffix dst _ >>= _) = none
  cases suffix dst (u32 ((h - 1) * ds)) with
  | none => rfl
  | some dstRow =>
    refine foldlM_eq_none (k := w - 1) (List.mem_range'.mpr ⟨(w - 1) / 2, by omega, by omega⟩)
      (fun dst => ?_) dst
    have hout : (src.drop ((h - 1) * ss))[(w - 1) * 2 + 3]? = none := by
      rw [List.getElem?_eq_none_iff, List.length_drop]
      omega
    rw [hout]
    cases (src.drop ((h - 1) * ss))[(w - 1) * 2]? with
    | none => rfl
    | some y0 =>
      cases (src.drop ((h - 1) * ss))[(w - 1) * 2 + 1]? with
      | none => rfl
      | some u => cases (src.drop ((h - 1) * ss))[(w - 1) * 2 + 2]? <;> rfl

theorem honours_yuy2_iff (h : Fits .yuy2 .bgra width height srcStride dstStride) :
    Honours .yuy2 .bgra width height srcStride dstStride ↔
      Unpadded .yuy2 .bgra width.toNat srcStride.toNat dstStride.toNat := by
  have hsrcRow : width.toNat * 2 ≤ srcStride.toNat := h.src_row
  rw [Unpadded, if_pos rfl]
  constructor
  · intro hhonours
    by_contra hodd
    rw [not_or] at hodd
    obtain ⟨out, hout, -⟩ := hhonours (List.replicate (height.toNat * srcStride.toNat) 0)
      (List.replicate (height.toNat * dstStride.toNat) 0) List.length_replicate
      List.length_replicate
    have hconvert : (convertYuy2ToBgra _ _ _ _ _ _).map Except.ok = some (.ok out) := hout
    rw [convertYuy2_eq_none h.width_pos h.height_pos hodd.1 (by omega) h.src_small
      List.length_replicate] at hconvert
    cases hconvert
  · intro hroom
    refine honours_of_writes (f := fun src dst => convertYuy2ToBgra src dst width.toNat
      height.toNat srcStride.toNat dstStride.toNat) (fun src => yuy2Pixel src srcStride.toNat)
      (fun _ _ => rfl) h.dst_row (fun src hsrc => ?_) fun _ _ _ => rfl
    exact writes_convertYuy2 (Nat.le_of_eq hsrc.symm) (hsrc ▸ h.src_small) (by omega) h.dst_row
      (Nat.le_refl _) h.dst_small

/-- The loops over planes write one row right after the other: with padding, the last pixel is not
written where it belongs. -/
theorem alpha_unwritten {w h ds : ℕ} {f : List UInt8 → Option (List UInt8)} {val : ℕ → UInt8}
    (hf : Writes (h * ds) f (InRaster (w * 4) 4 w h) val) (hw : 0 < w) (hh : 2 ≤ h)
    (hpadded : w * 4 < ds) {out : List UInt8} (hout : f (List.replicate (h * ds) 0) = some out)
    {y u v : UInt8} :
    samplesAt .bgra out ds h (w - 1) (h - 1) ≠ (yuvPixel y u v).bytes.map some := by
  intro hsamples
  have halpha : out[(h - 1) * ds + ((w - 1) * 4 + 3)]? = some 255 :=
    congrArg (fun samples => samples.getD 3 none) hsamples
  obtain ⟨out', hout', -, hcells⟩ := hf.run (List.replicate (h * ds) 0) List.length_replicate
  rw [hout, Option.some_inj] at hout'
  subst hout'
  have hend : (h - 1) * ds + ds = h * ds := by
    rw [← Nat.succ_mul, Nat.succ_eq_add_one, Nat.sub_add_cancel (by omega)]
  have hrows : (h - 1) * (w * 4) + w * 4 = h * (w * 4) := by
    rw [← Nat.succ_mul, Nat.succ_eq_add_one, Nat.sub_add_cancel (by omega)]
  have hmore : (h - 1) * (w * 4) + (h - 1) ≤ (h - 1) * ds := by
    rw [← Nat.mul_succ]
    exact Nat.mul_le_mul_left _ hpadded
  rw [(hcells _).2, List.getElem?_replicate_of_lt (by omega)] at halpha
  · cases halpha
  · rintro ⟨y, hy, x, hx, c, hc, heq⟩
    have hcol := raster_lt hx hc
    have hrow : y * (w * 4) + w * 4 ≤ h * (w * 4) := raster_le hy
    omega

/-- Grey samples, one of them white. -/
def oneBright (size i : ℕ) : List UInt8 := (List.replicate size 128).set i 235

theorem getD_oneBright {size i j : ℕ} (hj : j < size) :
    (oneBright size i).getD j 0 = if j = i then 235 else 128 := by
  rw [List.getD_eq_getElem?_getD, oneBright, List.getElem?_set]
  by_cases hij : i = j
  · rw [if_pos hij, if_pos hij.symm, List.length_replicate, if_pos (hij ▸ hj)]
    rfl
  · rw [if_neg hij, if_neg fun hji => hij hji.symm, List.getElem?_replicate_of_lt hj]
    rfl

/-- Another pixel's brightness shows, whatever the colours. -/
theorem green_ne {u v : UInt8} (hu : u = 235 ∨ u = 128) (hv : v = 235 ∨ v = 128) :
    (yuvPixel 128 u v).bytes.map some ≠ (yuvPixel 235 128 128).bytes.map some := by
  obtain rfl | rfl := hu <;> obtain rfl | rfl := hv <;> decide

/-- What the loops over planes have in common. `f` is the loop, and `u` and `v` say where a format
has the colours of a pixel. -/
structure PlanarLoop (srcFormat : PixelFormat) (width height srcStride dstStride : UInt32)
    (f : List UInt8 → List UInt8 → Option (List UInt8)) (u v : ℕ → ℕ → ℕ → ℕ) : Prop where
  fits : Fits srcFormat .bgra width height srcStride dstStride
  two_rows : 2 ≤ height.toNat
  src_row : width.toNat ≤ srcStride.toNat
  convert : ∀ src dst, convertFormat src dst srcFormat .bgra width height srcStride dstStride =
    (f src dst).map .ok
  expected : ∀ src x y, expected srcFormat .bgra src srcStride.toNat height.toNat x y =
    (yuvPixel (src.getD (y * srcStride.toNat + x) 0) (src.getD (u srcStride.toNat x y) 0)
      (src.getD (v srcStride.toNat x y) 0)).bytes.map some
  size : bufferSize srcFormat width.toNat height.toNat ≤
    bufferSize srcFormat srcStride.toNat height.toNat
  colours : ∀ s, width.toNat ≤ s → ∀ x < width.toNat, ∀ y < height.toNat,
    (height.toNat * s ≤ u s x y ∧ u s x y < bufferSize srcFormat s height.toNat) ∧
      height.toNat * s ≤ v s x y ∧ v s x y < bufferSize srcFormat s height.toNat
  writes : ∀ (src : List UInt8) (n : ℕ),
    bufferSize srcFormat width.toNat height.toNat ≤ src.length → src.length < 2 ^ 32 →
      height.toNat * (width.toNat * 4) ≤ n → n < 2 ^ 32 →
        Writes n (f src) (InRaster (width.toNat * 4) 4 width.toNat height.toNat)
          (rowVal (width.toNat * 4) (pictureCell fun x y =>
            yuvPixel (src.getD (y * width.toNat + x) 0) (src.getD (u width.toNat x y) 0)
              (src.getD (v width.toNat x y) 0)))

namespace PlanarLoop

variable {f : List UInt8 → List UInt8 → Option (List UInt8)} {u v : ℕ → ℕ → ℕ → ℕ}

/-- What the loop writes for a picture of the right size. -/
theorem writes_src (h : PlanarLoop srcFormat width height srcStride dstStride f u v)
    {src : List UInt8}
    (hsrc : src.length = bufferSize srcFormat srcStride.toNat height.toNat) :
    Writes (height.toNat * dstStride.toNat) (f src)
      (InRaster (width.toNat * 4) 4 width.toNat height.toNat)
      (rowVal (width.toNat * 4) (pictureCell fun x y =>
        yuvPixel (src.getD (y * width.toNat + x) 0) (src.getD (u width.toNat x y) 0)
          (src.getD (v width.toNat x y) 0))) :=
  h.writes src _ (hsrc ▸ h.size) (hsrc ▸ h.fits.src_small)
    (Nat.mul_le_mul_left _ h.fits.dst_row) h.fits.dst_small

/-- A loop that honours the geometry leaves the pixels that are expected. -/
theorem exists_out (h : PlanarLoop srcFormat width height srcStride dstStride f u v)
    (hhonours : Honours srcFormat .bgra width height srcStride dstStride) {src : List UInt8}
    (hsrc : src.length = bufferSize srcFormat srcStride.toNat height.toNat) :
    ∃ out, f src (List.replicate (height.toNat * dstStride.toNat) 0) = some out ∧
      ∀ x < width.toNat, ∀ y < height.toNat,
        samplesAt .bgra out dstStride.toNat height.toNat x y =
          (yuvPixel (src.getD (y * srcStride.toNat + x) 0) (src.getD (u srcStride.toNat x y) 0)
            (src.getD (v srcStride.toNat x y) 0)).bytes.map some := by
  obtain ⟨out, hout, hpixels⟩ := hhonours src (List.replicate (height.toNat * dstStride.toNat) 0)
    hsrc List.length_replicate
  rw [h.convert] at hout
  obtain ⟨out', hout', heq⟩ := Option.map_eq_some_iff.mp hout
  cases heq
  exact ⟨out, hout', fun x hx y hy => (hpixels x hx y hy).trans (h.expected src x y)⟩

/-- There is no padding in the output. -/
theorem dst_tight (h : PlanarLoop srcFormat width height srcStride dstStride f u v)
    (hhonours : Honours srcFormat .bgra width height srcStride dstStride) :
    dstStride.toNat = width.toNat * 4 := by
  by_contra hne
  have hw := h.fits.width_pos
  have hh := h.two_rows
  have hgrey : (List.replicate (bufferSize srcFormat srcStride.toNat height.toNat)
      (128 : UInt8)).length = bufferSize srcFormat srcStride.toNat height.toNat :=
    List.length_replicate
  obtain ⟨out, hout, hpixels⟩ := h.exists_out hhonours hgrey
  have hpadded : width.toNat * 4 < dstStride.toNat :=
    Nat.lt_of_le_of_ne h.fits.dst_row fun heq => hne heq.symm
  exact alpha_unwritten (h.writes_src hgrey) hw hh hpadded hout
    (hpixels _ (by omega) _ (by omega))

/-- And none in the source: the loop looks for the last pixel further in front. -/
theorem src_tight (h : PlanarLoop srcFormat width height srcStride dstStride f u v)
    (hhonours : Honours srcFormat .bgra width height srcStride dstStride) :
    srcStride.toNat = width.toNat := by
  by_contra hne
  have hw := h.fits.width_pos
  have hh := h.two_rows
  have hrow := h.src_row
  have hsize := h.size
  have hlast : (height.toNat - 1) * srcStride.toNat + srcStride.toNat =
      height.toNat * srcStride.toNat := by
    rw [← Nat.succ_mul, Nat.succ_eq_add_one, Nat.sub_add_cancel (by omega)]
  have hless : (height.toNat - 1) * width.toNat < (height.toNat - 1) * srcStride.toNat :=
    Nat.mul_lt_mul_of_pos_left (Nat.lt_of_le_of_ne hrow fun heq => hne heq.symm) (by omega)
  have hx : width.toNat - 1 < width.toNat := by omega
  have hy : height.toNat - 1 < height.toNat := by omega
  obtain ⟨⟨hu, hu'⟩, hv, hv'⟩ := h.colours srcStride.toNat hrow _ hx _ hy
  obtain ⟨⟨-, huTight⟩, -, hvTight⟩ := h.colours width.toNat (Nat.le_refl _) _ hx _ hy
  -- the brightness of the last pixel
  obtain ⟨src, hsrc⟩ : ∃ src, src = oneBright (bufferSize srcFormat srcStride.toNat height.toNat)
      ((height.toNat - 1) * srcStride.toNat + (width.toNat - 1)) := ⟨_, rfl⟩
  have hlength : src.length = bufferSize srcFormat srcStride.toNat height.toNat := by
    rw [hsrc, oneBright, List.length_set, List.length_replicate]
  obtain ⟨out, hout, hpixels⟩ := h.exists_out hhonours hlength
  obtain ⟨out', hout', -, hcells⟩ := (h.writes_src hlength).eq_some
    (l := List.replicate (height.toNat * dstStride.toNat) 0) List.length_replicate
  rw [hout, Option.some_inj] at hout'
  subst hout'
  have hdst := h.dst_tight hhonours
  have hwritten := samplesAt_picture (s := dstStride.toNat) (h := height.toNat)
    (x := width.toNat - 1) (y := height.toNat - 1) (by omega) fun c hc => by
      rw [hdst]
      exact hcells _ ⟨_, hy, _, hx, c, hc, rfl⟩
  rw [hpixels _ hx _ hy, hsrc, getD_oneBright (by omega), if_pos rfl,
    getD_oneBright hu', if_neg (by omega), getD_oneBright hv', if_neg (by omega),
    getD_oneBright (by omega), if_neg (by omega), getD_oneBright (by omega),
    getD_oneBright (by omega)] at hwritten
  refine green_ne ?_ ?_ hwritten.symm
  · split
    · exact Or.inl rfl
    · exact Or.inr rfl
  · split
    · exact Or.inl rfl
    · exact Or.inr rfl

/-- **A loop over planes** honours the geometry if and only if there is no padding. -/
theorem honours_iff (h : PlanarLoop srcFormat width height srcStride dstStride f u v) :
    Honours srcFormat .bgra width height srcStride dstStride ↔
      srcStride.toNat = width.toNat ∧ dstStride.toNat = width.toNat * 4 := by
  refine ⟨fun hhonours => ⟨h.src_tight hhonours, h.dst_tight hhonours⟩, ?_⟩
  rintro ⟨hs, hd⟩
  refine honours_of_writes (fun src x y =>
    yuvPixel (src.getD (y * width.toNat + x) 0) (src.getD (u width.toNat x y) 0)
      (src.getD (v width.toNat x y) 0)) h.convert (by omega) (fun src hsrc => ?_)
    fun src x y => ?_
  · have hwrites := h.writes_src hsrc
    rwa [hd] at hwrites ⊢
  · rw [h.expected, hs]

end PlanarLoop

theorem honours_nv12_iff (h : Fits .nv12 .bgra width height srcStride dstStride) :
    Honours .nv12 .bgra width height srcStride dstStride ↔
      Unpadded .nv12 .bgra width.toNat srcStride.toNat dstStride.toNat := by
  obtain ⟨hw, hh⟩ := h.even (Or.inl rfl)
  have hrow : width.toNat ≤ srcStride.toNat := Nat.mul_one width.toNat ▸ h.src_row
  have hpos := h.height_pos
  rw [Unpadded, forall_prop_of_true rfl]
  refine PlanarLoop.honours_iff
    (f := fun src dst => convertNv12ToBgra src dst width.toNat height.toNat)
    (u := fun s x y => height.toNat * s + (y / 2 * s + x / 2 * 2))
    (v := fun s x y => height.toNat * s + (y / 2 * s + x / 2 * 2) + 1)
    ⟨h, by omega, hrow, fun _ _ => rfl, fun _ _ _ => rfl, ?_, ?_, ?_⟩
  · exact Nat.add_le_add (Nat.mul_le_mul_left _ hrow) (Nat.mul_le_mul_left _ hrow)
  · intro s hs x hx y hy
    have hcolour : y / 2 * s + s ≤ height.toNat / 2 * s := raster_le (by omega)
    rw [bufferSize]
    omega
  · intro src n hsrc hsmall hn hnsmall
    exact writes_convertNv12 hw hh hsrc hsmall hn hnsmall

theorem honours_i420_iff (h : Fits .i420 .bgra width height srcStride dstStride) :
    Honours .i420 .bgra width height srcStride dstStride ↔
      Unpadded .i420 .bgra width.toNat srcStride.toNat dstStride.toNat := by
  obtain ⟨hw, hh⟩ := h.even (Or.inr rfl)
  have hrow : width.toNat ≤ srcStride.toNat := Nat.mul_one width.toNat ▸ h.src_row
  have hpos := h.height_pos
  rw [Unpadded, forall_prop_of_true rfl]
  refine PlanarLoop.honours_iff
    (f := fun src dst => convertI420ToBgra src dst width.toNat height.toNat)
    (u := fun s x y => height.toNat * s + (y / 2 * (s / 2) + x / 2))
    (v := fun s x y => height.toNat * s + height.toNat / 2 * (s / 2) + (y / 2 * (s / 2) + x / 2))
    ⟨h, by omega, hrow, fun _ _ => rfl, fun _ _ _ => rfl, ?_, ?_, ?_⟩
  · exact Nat.add_le_add (Nat.mul_le_mul_left _ hrow) (Nat.mul_le_mul_left _
      (Nat.mul_le_mul_left _ (Nat.div_le_div_right hrow)))
  · intro s hs x hx y hy
    have hcolour : y / 2 * (s / 2) + s / 2 ≤ height.toNat / 2 * (s / 2) := raster_le (by omega)
    rw [bufferSize]
    omega
  · intro src n hsrc hsmall hn hnsmall
    exact writes_convertI420 hw hh hsrc hsmall hn hnsmall

/-! ### Copies -/

theorem copyInto_self {src dst : List UInt8} (h : dst.length = src.length) :
    copyInto dst 0 src = some src := by
  rw [copyInto, Nat.zero_add, if_pos (Nat.le_of_eq h.symm), List.take_zero, List.nil_append, ← h,
    List.drop_length, List.append_nil]

/-- The copy row by row. -/
theorem writes_copySame {src : List UInt8} {n rowBytes h s : ℕ} (hne : rowBytes ≠ s)
    (hrow : rowBytes ≤ s) (hsrc : h * s ≤ src.length) (hsmall : src.length < 2 ^ 32)
    (hn : h * s ≤ n) :
    Writes n (fun dst => copySame src dst rowBytes h s) (fun i => ∃ y < h, ∃ c < rowBytes,
      i = y * s + c) fun i => src.getD i 0 := by
  have hturn : ∀ y ∈ List.range h, Writes n (fun dst => do
      let row ← slice src (u32 (y * s)) (u32 (y * s) + rowBytes)
      copyInto dst (u32 (y * s)) row) (fun i => ∃ c < rowBytes, i = y * s + c)
      fun i => src.getD i 0 := by
    intro y hy
    have hend : y * s + s ≤ h * s := raster_le (List.mem_range.mp hy)
    have hrowEnd : y * s + rowBytes ≤ src.length := by omega
    obtain ⟨row, hslice, hlength, hcells⟩ := exists_slice hrowEnd
    have hcopy : Writes n (fun dst => copyInto dst (y * s) row)
        (fun i => y * s ≤ i ∧ i < y * s + row.length) fun i => src.getD i 0 := by
      refine writes_copyInto (by omega) fun k hk => ?_
      have hcell := hcells k (hlength ▸ hk)
      rw [List.getElem?_eq_getElem hk] at hcell
      rw [List.getD_eq_getElem?_getD, ← hcell, Option.getD_some]
    refine (hcopy.congr (fun i => ⟨fun hi => ?_, ?_⟩) fun _ _ => rfl).of_eq fun dst _ => ?_
    · exact ⟨i - y * s, by omega, by omega⟩
    · rintro ⟨c, hc, rfl⟩
      omega
    · rw [u32_eq (by omega), hslice]
      rfl
  refine ((Writes.foldlM hturn).congr (fun i => ?_) fun _ _ => rfl).of_eq fun dst _ => ?_
  · simp only [List.mem_range]
  · exact if_neg hne

theorem convertFormat_same (src dst : List UInt8) {format : PixelFormat} {stride : UInt32}
    (hrow : width.toNat * format.bytesPerPixel ≤ stride.toNat) :
    convertFormat src dst format format width height stride stride =
      (copySame src dst (width.toNat * format.bytesPerPixel) height.toNat stride.toNat).map
        .ok := by
  unfold convertFormat
  rw [if_pos ⟨rfl, rfl⟩, u32_eq (Nat.lt_of_le_of_lt hrow stride.toNat_lt)]

/-- Without padding everything is copied at once. -/
theorem honours_copy_tight {format : PixelFormat} {stride : UInt32}
    (h : Fits format format width height stride stride)
    (htight : width.toNat * format.bytesPerPixel = stride.toNat) :
    Honours format format width height stride stride := by
  intro src dst hsrc hdst
  refine ⟨src, ?_, fun x _ y _ => (if_pos rfl).symm⟩
  rw [convertFormat_same src dst h.src_row, copySame, if_pos htight,
    copyInto_self (hdst.trans hsrc.symm)]
  rfl

/-- With padding, the samples have to be in the rows of the first plane. -/
theorem honours_copy_iff {format : PixelFormat} {stride : UInt32}
    (h : Fits format format width height stride stride)
    (hpadded : width.toNat * format.bytesPerPixel ≠ stride.toNat)
    (hsize : height.toNat * stride.toNat ≤ bufferSize format stride.toNat height.toNat) :
    Honours format format width height stride stride ↔
      ∀ x < width.toNat, ∀ y < height.toNat, ∀ i ∈ positions format stride.toNat height.toNat x y,
        i < bufferSize format stride.toNat height.toNat →
          ∃ y' < height.toNat, ∃ c < width.toNat * format.bytesPerPixel,
            i = y' * stride.toNat + c := by
  have hwrites : ∀ src : List UInt8,
      src.length = bufferSize format stride.toNat height.toNat →
      Writes (bufferSize format stride.toNat height.toNat)
        (fun dst => copySame src dst (width.toNat * format.bytesPerPixel) height.toNat
          stride.toNat)
        (fun i => ∃ y < height.toNat, ∃ c < width.toNat * format.bytesPerPixel,
          i = y * stride.toNat + c) fun i => src.getD i 0 :=
    fun src hsrc => writes_copySame hpadded h.src_row (hsrc ▸ hsize) (hsrc ▸ h.src_small) hsize
  constructor
  · intro hhonours x hx y hy i hi hlt
    by_contra hnot
    obtain ⟨out, hout, hsamples⟩ := hhonours
      (List.replicate (bufferSize format stride.toNat height.toNat) 1)
      (List.replicate (bufferSize format stride.toNat height.toNat) 0) List.length_replicate
      List.length_replicate
    rw [convertFormat_same _ _ h.src_row] at hout
    obtain ⟨out', hout', heq⟩ := Option.map_eq_some_iff.mp hout
    cases heq
    obtain ⟨out', hout'', -, hcells⟩ := (hwrites _ List.length_replicate).run
      (List.replicate (bufferSize format stride.toNat height.toNat) 0) List.length_replicate
    rw [hout', Option.some_inj] at hout''
    subst hout''
    have hsame := hsamples x hx y hy
    rw [expected, if_pos rfl, samplesAt, samplesAt, List.map_inj_left] at hsame
    have hcell := hsame i hi
    rw [(hcells i).2 hnot, List.getElem?_replicate_of_lt hlt,
      List.getElem?_replicate_of_lt hlt] at hcell
    cases hcell
  · intro hcovered src dst hsrc hdst
    obtain ⟨out, hout, hlength, hcells⟩ := (hwrites src hsrc).eq_some hdst
    refine ⟨out, by rw [convertFormat_same src dst h.src_row, hout]; rfl, fun x hx y hy => ?_⟩
    rw [expected, if_pos rfl, samplesAt, samplesAt, List.map_inj_left]
    intro i hi
    by_cases hlt : i < bufferSize format stride.toNat height.toNat
    · rw [hcells i (hcovered x hx y hy i hi hlt), List.getD_eq_getElem _ _ (hsrc ▸ hlt),
        List.getElem?_eq_getElem]
    · rw [List.getElem?_eq_none (by omega), List.getElem?_eq_none (by omega)]

/-- Packed pixels lie in the rows. -/
theorem honours_copy_packed {format : PixelFormat} {stride : UInt32}
    (h : Fits format format width height stride stride)
    (hsize : bufferSize format stride.toNat height.toNat = height.toNat * stride.toNat)
    (hpositions : ∀ x y, positions format stride.toNat height.toNat x y =
      (List.range format.bytesPerPixel).map fun c =>
        y * stride.toNat + (x * format.bytesPerPixel + c)) :
    Honours format format width height stride stride := by
  by_cases htight : width.toNat * format.bytesPerPixel = stride.toNat
  · exact honours_copy_tight h htight
  · refine (honours_copy_iff h htight (Nat.le_of_eq hsize.symm)).mpr fun x hx y hy i hi _ => ?_
    rw [hpositions, List.mem_map] at hi
    obtain ⟨c, hc, rfl⟩ := hi
    exact ⟨y, hy, _, raster_lt hx (List.mem_range.mp hc), rfl⟩

/-- Planes behind the first are not copied row by row. -/
theorem honours_copy_planar_iff {format : PixelFormat} {stride : UInt32}
    (h : Fits format format width height stride stride) (hbytes : format.bytesPerPixel = 1)
    (hcolour : ∃ i ∈ positions format stride.toNat height.toNat 0 0,
      height.toNat * stride.toNat ≤ i ∧ i < bufferSize format stride.toNat height.toNat) :
    Honours format format width height stride stride ↔ stride.toNat = width.toNat := by
  have hsrcRow := h.src_row
  rw [hbytes, Nat.mul_one] at hsrcRow
  obtain ⟨i, hi, hbehind, hlt⟩ := hcolour
  constructor
  · intro hhonours
    by_contra hne
    have hpadded : width.toNat * format.bytesPerPixel ≠ stride.toNat := by
      rw [hbytes, Nat.mul_one]
      exact fun heq => hne heq.symm
    obtain ⟨y, hy, c, hc, rfl⟩ := (honours_copy_iff h hpadded (by omega)).mp hhonours 0 h.width_pos
      0 h.height_pos i hi hlt
    rw [hbytes, Nat.mul_one] at hc
    have hend : y * stride.toNat + stride.toNat ≤ height.toNat * stride.toNat := raster_le hy
    omega
  · intro htight
    refine honours_copy_tight h ?_
    rw [hbytes, Nat.mul_one, htight]

/-- The last pair of an odd row is copied only up to its first pixel. -/
theorem honours_copy_yuy2_iff {stride : UInt32} (h : Fits .yuy2 .yuy2 width height stride stride) :
    Honours .yuy2 .yuy2 width height stride stride ↔
      Unpadded .yuy2 .yuy2 width.toNat stride.toNat stride.toNat := by
  have hsrcRow : width.toNat * 2 ≤ stride.toNat := h.src_row
  have hw := h.width_pos
  rw [Unpadded, if_neg (by decide)]
  by_cases htight : width.toNat * 2 = stride.toNat
  · exact iff_of_true (honours_copy_tight h htight) (by omega)
  · rw [honours_copy_iff h htight (Nat.le_refl _)]
    constructor
    · intro hcovered
      by_contra hodd
      rw [not_or] at hodd
      have hpos := h.height_pos
      have hend : 0 * stride.toNat + stride.toNat ≤ height.toNat * stride.toNat := raster_le hpos
      obtain ⟨y, hy, c, hc, heq⟩ := hcovered (width.toNat - 1) (by omega) 0 hpos
        (0 * stride.toNat + ((width.toNat - 1) / 2 * 4 + 3)) (by simp [positions])
        (by show _ < height.toNat * stride.toNat; omega)
      have hc : c < width.toNat * 2 := hc
      obtain rfl | hnext := Nat.eq_zero_or_pos y
      · omega
      · have hrow : stride.toNat ≤ y * stride.toNat := Nat.le_mul_of_pos_left _ hnext
        omega
    · intro heven x hx y hy i hi hlt
      have hlt : i < height.toNat * stride.toNat := hlt
      simp only [positions, List.mem_cons, List.not_mem_nil, or_false] at hi
      obtain rfl | rfl | rfl := hi
      · exact ⟨y, hy, x * 2, by show _ < width.toNat * 2; omega, rfl⟩
      · exact ⟨y, hy, x / 2 * 4 + 1, by show _ < width.toNat * 2; omega, rfl⟩
      · by_cases hin : x / 2 * 4 + 3 < width.toNat * 2
        · exact ⟨y, hy, x / 2 * 4 + 3, hin, rfl⟩
        · -- one byte of padding: the sample is the first byte of the next row
          refine ⟨y + 1, ?_, 0, by show _ < width.toNat * 2; omega, ?_⟩
          · by_contra hge
            have hle : height.toNat * stride.toNat ≤ (y + 1) * stride.toNat :=
              Nat.mul_le_mul_right _ (Nat.le_of_not_lt hge)
            rw [Nat.succ_mul] at hle
            omega
          · rw [Nat.succ_mul]
            omega

theorem honours_copy_format_iff {format : PixelFormat} {stride : UInt32}
    (h : Fits format format width height stride stride) :
    Honours format format width height stride stride ↔
      Unpadded format format width.toNat stride.toNat stride.toNat := by
  have hpos := h.height_pos
  have hw := h.width_pos
  cases format with
  | nv12 =>
    obtain ⟨heven, heven'⟩ := h.even (Or.inl rfl)
    have hrow : width.toNat * 1 ≤ stride.toNat := h.src_row
    have hcolour : 0 * stride.toNat + stride.toNat ≤ height.toNat / 2 * stride.toNat :=
      raster_le (by omega)
    rw [honours_copy_planar_iff h rfl ⟨_, List.mem_cons_of_mem _ List.mem_cons_self, by omega, by
      rw [bufferSize]; omega⟩]
    exact (and_iff_left fun hne => by cases hne).symm
  | i420 =>
    obtain ⟨heven, heven'⟩ := h.even (Or.inr rfl)
    have hrow : width.toNat * 1 ≤ stride.toNat := h.src_row
    have hcolour : 0 * (stride.toNat / 2) + stride.toNat / 2 ≤
        height.toNat / 2 * (stride.toNat / 2) := raster_le (by omega)
    rw [honours_copy_planar_iff h rfl ⟨_, List.mem_cons_of_mem _ List.mem_cons_self, by omega, by
      rw [bufferSize]; omega⟩]
    exact (and_iff_left fun hne => by cases hne).symm
  | yuy2 => exact honours_copy_yuy2_iff h
  | _ => exact iff_of_true (honours_copy_packed h rfl fun _ _ => rfl) trivial

end Honours

/-- **Which geometries are honoured.** Among those with room for the rows, a conversion makes each
pixel of the samples that belong to it exactly if planes are not padded and no pair of YUY2 pixels
is cut apart. -/
theorem convertFormat_honours_iff {srcFormat dstFormat : PixelFormat}
    {width height srcStride dstStride : UInt32}
    (h : Fits srcFormat dstFormat width height srcStride dstStride) :
    Honours srcFormat dstFormat width height srcStride dstStride ↔
      Unpadded srcFormat dstFormat width.toNat srcStride.toNat dstStride.toNat := by
  obtain ⟨rfl, rfl⟩ | ⟨rfl, hformat⟩ := h.accepts
  · exact honours_copy_format_iff h
  · simp only [List.mem_cons, List.not_mem_nil, or_false] at hformat
    obtain rfl | rfl | rfl | rfl | rfl | rfl := hformat
    · exact iff_of_true (honours_rgb h) trivial
    · exact iff_of_true (honours_rgba h) trivial
    · exact iff_of_true (honours_bgr h) trivial
    · exact honours_nv12_iff h
    · exact honours_yuy2_iff h
    · exact honours_i420_iff h

/-- Six pixels in rows that are padded on both sides, and eight of which two each share a pair of
colour samples with the two below. -/
theorem small_frames_honoured : Honours .rgb .bgra 3 2 12 16 ∧ Honours .nv12 .bgra 4 2 4 16 := by
  constructor
  · refine (convertFormat_honours_iff ⟨Or.inr ⟨rfl, List.mem_cons_self⟩, by decide, by decide,
      fun h => ?_, by decide, by decide, by decide, by decide⟩).mpr trivial
    cases h <;> contradiction
  · exact (convertFormat_honours_iff ⟨Or.inr ⟨rfl, by simp⟩, by decide, by decide,
      fun _ => by decide, by decide, by decide, by decide, by decide⟩).mpr ⟨by decide, by decide⟩

/-- Four pixels in rows of four bytes, one of them white: with the padding taken for brightness, and
brightness for colours, it comes out dark red. -/
theorem padded_nv12_misread :
    Fits .nv12 .bgra 2 2 4 8 ∧ ¬ Honours .nv12 .bgra 2 2 4 8 := by
  refine ⟨⟨Or.inr ⟨rfl, by simp⟩, by decide, by decide, fun _ => by decide, by decide, by decide,
    by decide, by decide⟩, fun hhonours => ?_⟩
  obtain ⟨out, hout, hpixels⟩ := hhonours [16, 16, 0, 0, 16, 235, 0, 0, 128, 128, 0, 0]
    (List.replicate 16 0) rfl rfl
  have hconvert : convertFormat [16, 16, 0, 0, 16, 235, 0, 0, 128, 128, 0, 0]
      (List.replicate 16 0) .nv12 .bgra 2 2 4 8 =
        some (.ok [0, 0, 171, 255, 0, 0, 171, 255, 0, 0, 152, 255, 0, 0, 152, 255]) := by
    decide +kernel
  rw [hconvert] at hout
  cases hout
  have hwhite := hpixels 1 (by decide) 1 (by decide)
  revert hwhite
  decide +kernel

end Pipewire

end Cheirizo
