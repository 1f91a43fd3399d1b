import Cheirizo.Lib.Fill
import Cheirizo.Lib.Merge
import Cheirizo.Pipewire.Format

/-!
# The bitmap converter

`rdp/channels/graphics/bitmap/converter.rs`. Where frames are not encoded, the damaged parts of a
frame are sent as bitmaps. The converter keeps a hash of the last frame, and the damage that has not
been sent; it brings a frame into one of two formats, and cuts a rectangle out of it for each of the
damaged regions that are left after merging.

Rectangles have 16-bit coordinates. The signed positions and 32-bit sizes of the compositor's damage
are narrowed to them, partly with saturation and partly without.

## Main definitions

* `Rectangle.ofDamage` — the narrowing
* `DamageTracker` — the regions that are still to be sent
* `BitmapConverter.convertFrame`

## Main results

* `extractRegion_spec` — a rectangle is cut out if it is within the frame, pixel by pixel
* `convertFrame_cases` — what becomes of a frame
-/

namespace Cheirizo

namespace Bitmap

open Buffer Merge Pipewire

/-! ### Formats -/

/-- The formats in which bitmaps are sent. -/
inductive RdpPixelFormat where
  | bgrX32
  | bgr24
  deriving DecidableEq, Repr

namespace RdpPixelFormat

/-- What a pixel takes. -/
def bytesPerPixel : RdpPixelFormat → ℕ
  | bgrX32 => 4
  | bgr24 => 3

/-- Only the captured formats of three bytes are sent in three. -/
def fromPixelFormat : PixelFormat → RdpPixelFormat
  | .rgb | .bgr => bgr24
  | .bgra | .bgrx | .rgba | .rgbx | .nv12 | .yuy2 | .i420 | .gray8 => bgrX32

/-- The format to which a frame is converted. -/
def pipewireFormat : RdpPixelFormat → PixelFormat
  | bgrX32 => .bgrx
  | bgr24 => .bgr

end RdpPixelFormat

/-! ### Rectangles -/

/-- A rectangle on the screen. The right and the bottom edge are outside of it. -/
structure Rectangle where
  left : UInt16
  top : UInt16
  right : UInt16
  bottom : UInt16
  deriving DecidableEq, Repr

namespace Rectangle

variable (r s : Rectangle)

/-- No subtraction goes below zero. -/
def width : ℕ := r.right.toNat - r.left.toNat

/-- No subtraction goes below zero. -/
def height : ℕ := r.bottom.toNat - r.top.toNat

/-- How many pixels there are. -/
def area : ℕ := r.width * r.height

/-- Rectangles that only touch do not intersect. -/
def intersects : Bool :=
  !(r.right ≤ s.left || s.right ≤ r.left || r.bottom ≤ s.top || s.bottom ≤ r.top)

/-- The smallest rectangle around both. -/
def merge : Rectangle where
  left := min r.left s.left
  top := min r.top s.top
  right := max r.right s.right
  bottom := max r.bottom s.bottom

/-- The lowest 16 bits of a position. -/
def narrowStart (start : Int32) : UInt16 := start.toUInt32.toUInt16

/-- The lowest 16 bits of where a region ends, which is at most the largest 32-bit number and at
least zero. Sizes from `2 ^ 31` on are taken for negative ones. -/
def narrowEnd (start : Int32) (size : UInt32) : UInt16 :=
  .ofNat (max (-2 ^ 31) (min (start.toInt + size.toInt32.toInt) (2 ^ 31 - 1))).toNat

/-- A region of the capture, which is wider than the coordinates of the protocol. -/
def ofDamage (damage : FfiDamageRegion) : Rectangle where
  left := narrowStart damage.x
  top := narrowStart damage.y
  right := narrowEnd damage.x damage.width
  bottom := narrowEnd damage.y damage.height

/-- The pixels of a rectangle. -/
def Contains (x y : ℕ) : Prop :=
  r.left.toNat ≤ x ∧ x < r.right.toNat ∧ r.top.toNat ≤ y ∧ y < r.bottom.toNat

instance (x y : ℕ) : Decidable (r.Contains x y) := inferInstanceAs (Decidable (_ ∧ _ ∧ _ ∧ _))

end Rectangle

/-! ### Damage -/

/-- The nearest number of 24 bits and zeros behind them, the even one of two: `n as f32`. -/
def toF32 (n : ℕ) : ℕ :=
  let unit := 2 ^ (Nat.log2 n - 23)
  let below := n / unit
  let rest := n % unit
  if unit < 2 * rest ∨ 2 * rest = unit ∧ below % 2 = 1 then (below + 1) * unit else below * unit

/-- `area as f32 / total as f32 > 0.75`. The quotient is rounded too: the next number after 0.75 is
`0.75 + 2⁻²⁴`, and from half way to it on, but not at half way, it is not 0.75. -/
def exceedsThreshold (area total : ℕ) : Bool :=
  (3 * 2 ^ 23 + 1) * toF32 total < 2 ^ 25 * toF32 area

/-- What has changed since the last update. -/
structure DamageTracker where
  regions : List Rectangle
  fullUpdate : Bool
  screenWidth : UInt16
  screenHeight : UInt16
  deriving DecidableEq, Repr

namespace DamageTracker

/-- Nothing has changed yet. -/
def new (width height : UInt16) : DamageTracker := ⟨[], false, width, height⟩

variable (t : DamageTracker)

/-- How many pixels the screen has. -/
def totalArea : ℕ := t.screenWidth.toNat * t.screenHeight.toNat

/-- When most of the screen has changed, the rectangles are given up for all of it. -/
def addDamage (region : Rectangle) : DamageTracker :=
  if t.fullUpdate then t
  else if t.totalArea = 0 ∨ exceedsThreshold region.area t.totalArea then
    { t with fullUpdate := true, regions := [] }
  else
    let regions := insertMerging Rectangle.intersects Rectangle.merge region t.regions
    { t with regions := consolidate Rectangle.intersects Rectangle.merge regions }

/-- The damage of a frame. A frame without any is damaged as a whole. -/
def addFrame (damageRegions : List FfiDamageRegion) : DamageTracker :=
  if damageRegions = [] then { t with fullUpdate := true }
  else damageRegions.foldl (fun t damage => t.addDamage (.ofDamage damage)) t

/-- The regions to be sent. -/
def pending : List Rectangle :=
  if t.fullUpdate then [⟨0, 0, t.screenWidth, t.screenHeight⟩] else t.regions

/-- An update has been made of what had changed. -/
def reset : DamageTracker := { t with regions := [], fullUpdate := false }

end DamageTracker

/-! ### Conversion -/

/-- The pixels of a rectangle, as they are sent. -/
structure BitmapData where
  rectangle : Rectangle
  format : RdpPixelFormat
  data : List UInt8
  deriving DecidableEq, Repr

/-- What is sent of a frame. -/
structure BitmapUpdate where
  rectangles : List BitmapData
  deriving DecidableEq, Repr

/-- Why a frame gives no update. -/
inductive ConversionError where
  | invalidFrame (message : String)
  | conversionFailed (message : String)
  | regionOutOfBounds
  deriving DecidableEq, Repr

/-- What is kept from frame to frame: the damage, and the hash of the last frame. -/
structure BitmapConverter where
  damageTracker : DamageTracker
  lastFrameHash : UInt64
  deriving DecidableEq, Repr

/-- Upwards. -/
def alignToBoundary (value boundary : ℕ) : ℕ := (value + boundary - 1) / boundary * boundary

/-- Rows begin at multiples of four bytes. -/
def calculateRdpStride (width : UInt32) (format : RdpPixelFormat) : UInt32 :=
  .ofNat (alignToBoundary (width.toNat * format.bytesPerPixel) 4)

/-- What the pixels of a frame take. -/
def calculateOutputSize (width height : UInt32) (format : RdpPixelFormat) : ℕ :=
  (calculateRdpStride width format).toNat * height.toNat

/-- The hash FNV-1a in its 64-bit version. -/
def calculateFrameHash (data : List UInt8) : UInt64 :=
  data.foldl (fun hash byte => (hash ^^^ byte.toUInt64) * 0x100000001b3) 0xcbf29ce484222325

/-- Cut a rectangle out of a buffer, row by row. -/
def extractRegion (buffer : List UInt8) (region : Rectangle) (frameWidth frameHeight : UInt32)
    (format : RdpPixelFormat) : Except ConversionError BitmapData :=
  if frameWidth.toNat < region.right.toNat ∨ frameHeight.toNat < region.bottom.toNat then
    .error .regionOutOfBounds
  else do
    let sourceStride := (calculateRdpStride frameWidth format).toNat
    let regionStride := region.width * format.bytesPerPixel
    let data ← (List.range region.height).foldlM (fun data y =>
      let sourceY := region.top.toNat + y
      let sourceX := region.left.toNat * format.bytesPerPixel
      let sourceOffset := sourceY * sourceStride + sourceX
      let sourceEnd := sourceOffset + regionStride
      if buffer.length < sourceEnd then .error .regionOutOfBounds
      else .ok (data ++ (buffer.take sourceEnd).drop sourceOffset)) []
    return ⟨region, format, data⟩

/-- The text of the conversion's own error. -/
def PipeWireError.toString : PipeWireError → String
  | .formatConversionFailed message => s!"pixel format conversion: {message}"

namespace BitmapConverter

/-- No frame has been seen. -/
def new (width height : UInt16) : BitmapConverter := ⟨.new width height, 0⟩

/-- The frame in its RDP format. The buffer it is converted into is cleared. -/
def convertedFrame (frame : VideoFrame) : Option (Except PipeWireError (List UInt8)) :=
  let rdpFormat := RdpPixelFormat.fromPixelFormat frame.format
  let outputBuffer := List.replicate (calculateOutputSize frame.width frame.height rdpFormat) 0
  let dstStride := calculateRdpStride frame.width rdpFormat
  convertFormat frame.data outputBuffer frame.format rdpFormat.pipewireFormat frame.width
    frame.height frame.stride dstStride

/-- A new frame is recorded by its hash, and its damage is added, before it is converted. -/
def record (c : BitmapConverter) (frame : VideoFrame) : BitmapConverter where
  lastFrameHash := calculateFrameHash frame.data
  damageTracker := c.damageTracker.addFrame frame.damageRegions

/-- The answer to a frame, and the converter after it; nothing where the code panics. -/
def convertFrame (c : BitmapConverter) (frame : VideoFrame) :
    Option (Except ConversionError BitmapUpdate × BitmapConverter) :=
  if frame.isValid = false then
    some (.error (.invalidFrame "frame is corrupt or incomplete"), c)
  else if calculateFrameHash frame.data = c.lastFrameHash then some (.ok ⟨[]⟩, c)
  else
    let c := c.record frame
    let regions := c.damageTracker.pending
    match convertedFrame frame with
    | none => none
    | some (.error error) => some (.error (.conversionFailed (PipeWireError.toString error)), c)
    | some (.ok outputBuffer) =>
      match regions.mapM fun region => extractRegion outputBuffer region frame.width frame.height
          (.fromPixelFormat frame.format) with
      | .error error => some (.error error, c)
      | .ok rectangles => some (.ok ⟨rectangles⟩, { c with damageTracker := c.damageTracker.reset })

end BitmapConverter

/-! ### Pending damage -/

namespace DamageTracker

variable {t : DamageTracker}

/-- Something is pending: the whole screen, or some region. -/
def Pending (t : DamageTracker) : Prop := t.fullUpdate = true ∨ t.regions ≠ []

theorem Pending.ne_nil (h : t.Pending) : t.pending ≠ [] := by
  rw [pending]
  split
  · exact List.cons_ne_nil _ _
  · rename_i hpart
    exact h.resolve_left hpart

theorem pending_addDamage (t : DamageTracker) (region : Rectangle) :
    (t.addDamage region).Pending := by
  rw [addDamage]
  split
  · rename_i hfull
    exact Or.inl hfull
  · split
    · exact Or.inl rfl
    · exact Or.inr (consolidate_ne_nil (insertMerging_ne_nil region t.regions))

theorem pending_foldl (h : t.Pending) (damageRegions : List FfiDamageRegion) :
    (damageRegions.foldl (fun t damage => t.addDamage (.ofDamage damage)) t).Pending := by
  induction damageRegions generalizing t with
  | nil => exact h
  | cons damage rest ih => exact ih (pending_addDamage t _)

theorem pending_addFrame (t : DamageTracker) (damageRegions : List FfiDamageRegion) :
    (t.addFrame damageRegions).Pending := by
  rw [addFrame]
  split
  · exact Or.inl rfl
  · rename_i hsome
    obtain ⟨damage, rest, rfl⟩ := List.exists_cons_of_ne_nil hsome
    exact pending_foldl (pending_addDamage t _) rest

end DamageTracker

/-! ### Cutting out -/

section Cutting

variable {buffer : List UInt8} {region : Rectangle} {frameWidth frameHeight : UInt32}
  {format : RdpPixelFormat}

/-- A loop that stops at the first turn that may not be made. -/
theorem foldlM_guarded {σ κ ε : Type*} {bad : κ → Prop} [DecidablePred bad] {f : σ → κ → σ} (e : ε)
    (ks : List κ) (s : σ) :
    ks.foldlM (fun s k => if bad k then Except.error e else .ok (f s k)) s =
      if ∃ k ∈ ks, bad k then .error e else .ok (ks.foldl f s) := by
  induction ks generalizing s with
  | nil => rfl
  | cons k ks ih =>
    rw [List.foldlM_cons, List.foldl_cons]
    by_cases hk : bad k
    · rw [if_pos hk, if_pos ⟨k, List.mem_cons_self, hk⟩]
      rfl
    · rw [if_neg hk]
      refine (ih (f s k)).trans ?_
      simp only [List.exists_mem_cons_iff, hk, false_or]

/-- So does a map. -/
theorem mapM_guarded {α β ε : Type*} {good : α → Prop} [DecidablePred good] {f : α → Except ε β}
    {g : α → β} {e : ε} (h : ∀ a, f a = if good a then .ok (g a) else .error e) (l : List α) :
    l.mapM f = if ∀ a ∈ l, good a then .ok (l.map g) else .error e := by
  induction l with
  | nil => rfl
  | cons a l ih =>
    rw [List.mapM_cons, h, ih, List.map_cons]
    simp only [List.forall_mem_cons]
    by_cases ha : good a
    · by_cases hl : ∀ b ∈ l, good b
      · simp only [ha, true_and, if_true, if_pos hl]
        rfl
      · simp only [ha, true_and, if_true, if_neg hl]
        rfl
    · simp only [ha, false_and, if_false]
      rfl

/-- Where a row of a rectangle begins. -/
def rowStart (region : Rectangle) (frameWidth : UInt32) (format : RdpPixelFormat) (y : ℕ) : ℕ :=
  (region.top.toNat + y) * (calculateRdpStride frameWidth format).toNat +
    region.left.toNat * format.bytesPerPixel

/-- A rectangle is within the frame, and so are its rows. Those of a rectangle that begins to the
right of its end may not be. -/
def Rectangle.Fits (region : Rectangle) (frameWidth frameHeight : UInt32)
    (format : RdpPixelFormat) : Prop :=
  region.right.toNat ≤ frameWidth.toNat ∧ region.bottom.toNat ≤ frameHeight.toNat ∧
    ∀ y < region.height, rowStart region frameWidth format y +
      region.width * format.bytesPerPixel ≤ calculateOutputSize frameWidth frameHeight format

instance : Decidable (region.Fits frameWidth frameHeight format) :=
  inferInstanceAs (Decidable (_ ∧ _ ∧ _))

/-- The rows of a rectangle. -/
def rows (buffer : List UInt8) (region : Rectangle) (frameWidth : UInt32)
    (format : RdpPixelFormat) : List UInt8 :=
  (List.range region.height).flatMap fun y =>
    (buffer.take (rowStart region frameWidth format y +
      region.width * format.bytesPerPixel)).drop (rowStart region frameWidth format y)

/-- A rectangle is cut out if it is within the frame. -/
theorem extractRegion_eq
    (hbuffer : buffer.length = calculateOutputSize frameWidth frameHeight format) :
    extractRegion buffer region frameWidth frameHeight format =
      if region.Fits frameWidth frameHeight format then
        .ok ⟨region, format, rows buffer region frameWidth format⟩
      else .error .regionOutOfBounds := by
  by_cases hout : frameWidth.toNat < region.right.toNat ∨ frameHeight.toNat < region.bottom.toNat
  · rw [extractRegion, if_pos hout, if_neg fun hfits => ?_]
    have hright := hfits.1
    have hbottom := hfits.2.1
    omega
  · have hrun : extractRegion buffer region frameWidth frameHeight format =
        ((List.range region.height).foldlM (fun data y =>
          if buffer.length < rowStart region frameWidth format y +
              region.width * format.bytesPerPixel then .error .regionOutOfBounds
          else .ok (data ++ (buffer.take (rowStart region frameWidth format y +
            region.width * format.bytesPerPixel)).drop (rowStart region frameWidth format y))) []
        >>= fun data => .ok ⟨region, format, data⟩) := if_neg hout
    rw [hrun, foldlM_guarded, ← List.flatMap_eq_foldl, hbuffer]
    by_cases hrows : ∃ y ∈ List.range region.height,
        calculateOutputSize frameWidth frameHeight format <
          rowStart region frameWidth format y + region.width * format.bytesPerPixel
    · rw [if_pos hrows, if_neg fun hfits => ?_]
      · rfl
      · obtain ⟨y, hy, hbeyond⟩ := hrows
        exact absurd (hfits.2.2 y (List.mem_range.mp hy)) (Nat.not_le_of_lt hbeyond)
    · have hinside : ∀ y < region.height, rowStart region frameWidth format y +
          region.width * format.bytesPerPixel ≤
            calculateOutputSize frameWidth frameHeight format :=
        fun y hy => Nat.le_of_not_lt fun hbeyond => hrows ⟨y, List.mem_range.mpr hy, hbeyond⟩
      rw [if_neg hrows, if_pos ⟨by omega, by omega, hinside⟩]
      rfl

/-- What is cut out is as long as its rows together, and has their cells. -/
theorem rows_spec (hfits : ∀ y < region.height, rowStart region frameWidth format y +
      region.width * format.bytesPerPixel ≤ buffer.length) :
    (rows buffer region frameWidth format).length =
        region.width * format.bytesPerPixel * region.height ∧
      ∀ y < region.height, ∀ k < region.width * format.bytesPerPixel,
        (rows buffer region frameWidth format)[y * (region.width * format.bytesPerPixel) + k]? =
          buffer[rowStart region frameWidth format y + k]? := by
  have hrow : ∀ y < region.height, ((buffer.take (rowStart region frameWidth format y +
      region.width * format.bytesPerPixel)).drop (rowStart region frameWidth format y)).length =
        region.width * format.bytesPerPixel := by
    intro y hy
    have hy := hfits y hy
    rw [List.length_drop, List.length_take]
    omega
  obtain ⟨hlength, hcells⟩ := flatMap_range_rows hrow 0
  rw [← rows] at hlength
  refine ⟨hlength, fun y hy k hk => ?_⟩
  have hend : y * (region.width * format.bytesPerPixel) + region.width * format.bytesPerPixel ≤
      region.height * (region.width * format.bytesPerPixel) := raster_le hy
  rw [Nat.mul_comm region.height] at hend
  have hcell : (rows buffer region frameWidth format).getD
      (y * (region.width * format.bytesPerPixel) + k) 0 = _ := hcells _ (by omega)
  have hin : y * (region.width * format.bytesPerPixel) + k <
      (rows buffer region frameWidth format).length := by
    rw [hlength]
    omega
  have hsource : rowStart region frameWidth format y + k < buffer.length := by
    have hy := hfits y hy
    omega
  rw [raster_div hk, raster_mod hk, List.getD_eq_getElem _ _ hin, List.getD_eq_getElem _ _
    (by rw [hrow y hy]; exact hk), List.getElem_drop, List.getElem_take] at hcell
  rw [List.getElem?_eq_getElem hin, List.getElem?_eq_getElem hsource]
  exact congrArg some hcell

end Cutting

/-! ### What becomes of a frame -/

/-- A frame that is copied as it is: the two formats have the channels in the right order, and the
rows are as long as in a bitmap. -/
def Accepted (frame : VideoFrame) : Prop :=
  frame.format = (RdpPixelFormat.fromPixelFormat frame.format).pipewireFormat ∧
    frame.stride = calculateRdpStride frame.width (.fromPixelFormat frame.format)

/-- A frame that is accepted, and has the regions in it. -/
def Convertible (frame : VideoFrame) (regions : List Rectangle) : Prop :=
  Accepted frame ∧ ∀ region ∈ regions,
    region.Fits frame.width frame.height (.fromPixelFormat frame.format)

namespace BitmapConverter

variable {c next : BitmapConverter} {frame : VideoFrame}
  {result : Except ConversionError BitmapUpdate}

theorem convertedFrame_refused (h : ¬ Accepted frame) :
    ∃ error, convertedFrame frame = some (.error error) := by
  rw [Accepted] at h
  rw [convertedFrame]
  unfold convertFormat
  dsimp only
  rw [if_neg h]
  cases frame.format <;> exact ⟨_, rfl⟩

theorem length_copySame {src dst out : List UInt8} {rowBytes height stride : ℕ}
    (h : copySame src dst rowBytes height stride = some out) : out.length = dst.length := by
  rw [copySame] at h
  split at h
  · exact (getElem?_copyInto h).1
  · refine length_foldlM (fun l y l' hturn => ?_) h
    obtain ⟨row, -, hcopy⟩ := Option.bind_eq_some_iff.mp hturn
    exact (getElem?_copyInto hcopy).1

theorem convertedFrame_accepted (h : Accepted frame) :
    convertedFrame frame = none ∨ ∃ outputBuffer, convertedFrame frame = some (.ok outputBuffer) ∧
      outputBuffer.length = calculateOutputSize frame.width frame.height
        (.fromPixelFormat frame.format) := by
  rw [Accepted] at h
  rw [convertedFrame]
  unfold convertFormat
  dsimp only
  rw [if_pos h]
  cases hcopy : copySame frame.data _ _ _ _ with
  | none => exact Or.inl rfl
  | some out =>
    refine Or.inr ⟨out, rfl, ?_⟩
    rw [length_copySame hcopy, List.length_replicate]

theorem convertFrame_invalid (c : BitmapConverter) (h : frame.isValid = false) :
    c.convertFrame frame = some (.error (.invalidFrame "frame is corrupt or incomplete"), c) :=
  if_pos h

theorem convertFrame_unchanged (hvalid : frame.isValid = true)
    (hhash : calculateFrameHash frame.data = c.lastFrameHash) :
    c.convertFrame frame = some (.ok ⟨[]⟩, c) := by
  rw [convertFrame, if_neg (by rw [hvalid]; exact Bool.noConfusion), if_pos hhash]

/-- A new frame is recorded. If it is convertible, each pending region is cut out of it, and nothing
is pending any more; else all that comes of it is an error. -/
theorem convertFrame_new (hvalid : frame.isValid = true)
    (hhash : calculateFrameHash frame.data ≠ c.lastFrameHash)
    (h : c.convertFrame frame = some (result, next)) :
    (Convertible frame (c.record frame).damageTracker.pending ∧
      ∃ outputBuffer, convertedFrame frame = some (.ok outputBuffer) ∧
        outputBuffer.length = calculateOutputSize frame.width frame.height
          (.fromPixelFormat frame.format) ∧
        result = .ok ⟨(c.record frame).damageTracker.pending.map fun region =>
          ⟨region, .fromPixelFormat frame.format, rows outputBuffer region frame.width
            (.fromPixelFormat frame.format)⟩⟩ ∧
        next = { c.record frame with damageTracker := (c.record frame).damageTracker.reset }) ∨
    (¬ Convertible frame (c.record frame).damageTracker.pending ∧
      (∃ error, result = .error error) ∧ next = c.record frame) := by
  rw [convertFrame, if_neg (by rw [hvalid]; exact Bool.noConfusion), if_neg hhash] at h
  dsimp only at h
  by_cases haccepted : Accepted frame
  · obtain hnone | ⟨outputBuffer, hconverted, hlength⟩ := convertedFrame_accepted haccepted
    · rw [hnone] at h
      cases h
    · rw [hconverted] at h
      dsimp only at h
      rw [mapM_guarded fun region => extractRegion_eq hlength] at h
      by_cases hregions : ∀ region ∈ (c.record frame).damageTracker.pending,
          region.Fits frame.width frame.height (.fromPixelFormat frame.format)
      · rw [if_pos hregions] at h
        cases h
        exact Or.inl ⟨⟨haccepted, hregions⟩, outputBuffer, hconverted, hlength, rfl, rfl⟩
      · rw [if_neg hregions] at h
        cases h
        exact Or.inr ⟨fun hconvertible => hregions hconvertible.2, ⟨_, rfl⟩, rfl⟩
  · obtain ⟨error, hrefused⟩ := convertedFrame_refused haccepted
    rw [hrefused] at h
    cases h
    exact Or.inr ⟨fun hconvertible => haccepted hconvertible.1, ⟨_, rfl⟩, rfl⟩

end BitmapConverter

end Bitmap

end Cheirizo
