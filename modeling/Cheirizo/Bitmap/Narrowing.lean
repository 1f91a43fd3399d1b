import Cheirizo.Bitmap.Converter

/-!
# What of the damage is sent

The rectangles of an update are to have every pixel of the frame that is in a damaged region.
Merging loses none: a merged rectangle has the pixels of both. What may be lost is lost before,
where signed positions and 32-bit sizes become 16-bit coordinates. A region that begins above the
screen begins at the bottom of the range of coordinates once it is narrowed, and has no pixels left.

## Main definitions

* `Damages`, `Covers` — the pixels of the damaged regions, and rectangles that have them
* `BitmapUpdate.Shows` — an update whose bitmaps are parts of the converted frame
* `DamageTracker.Narrowed` — the condition: each damaged pixel is in a narrowed rectangle, or
  everything is sent

## Main results

* `Rectangle.contains_ofDamage` — the regions that are narrowed as they are
* `damage_covered` — what an update covers and shows
-/

namespace Cheirizo

namespace Bitmap

open Buffer Merge Pipewire

/-! ### Pixels -/

/-- The region of the capture covers the pixel. -/
def Damages (damage : FfiDamageRegion) (x y : ℕ) : Prop :=
  (damage.x.toInt ≤ x ∧ x < damage.x.toInt + damage.width.toNat) ∧
    damage.y.toInt ≤ y ∧ y < damage.y.toInt + damage.height.toNat

instance (damage : FfiDamageRegion) (x y : ℕ) : Decidable (Damages damage x y) :=
  inferInstanceAs (Decidable (_ ∧ _))

namespace Rectangle

variable {r s : Rectangle} {x y : ℕ}

theorem toNat_min (a b : UInt16) : (min a b).toNat = min a.toNat b.toNat := by
  show (if a ≤ b then a else b).toNat = _
  split
  · rename_i h
    exact (Nat.min_eq_left (UInt16.le_iff_toNat_le.mp h)).symm
  · rename_i h
    rw [UInt16.le_iff_toNat_le] at h
    exact (Nat.min_eq_right (Nat.le_of_not_le h)).symm

theorem toNat_max (a b : UInt16) : (max a b).toNat = max a.toNat b.toNat := by
  show (if a ≤ b then b else a).toNat = _
  split
  · rename_i h
    exact (Nat.max_eq_right (UInt16.le_iff_toNat_le.mp h)).symm
  · rename_i h
    rw [UInt16.le_iff_toNat_le] at h
    exact (Nat.max_eq_left (Nat.le_of_not_le h)).symm

/-- A merged rectangle has the pixels of both. -/
theorem contains_merge (h : r.Contains x y ∨ s.Contains x y) : (r.merge s).Contains x y := by
  simp only [Contains] at h
  simp only [Contains, merge, toNat_min, toNat_max]
  omega

theorem toNat_narrowStart {start : Int32} (hstart : 0 ≤ start.toInt) (hend : start.toInt < 2 ^ 16) :
    ((narrowStart start).toNat : ℤ) = start.toInt := by
  have hnat : start.toUInt32.toNat = start.toInt.toNat :=
    Int32.toNat_toUInt32_of_le (Int32.le_iff_toInt_le.mpr hstart)
  rw [narrowStart, UInt32.toNat_toUInt16, hnat]
  omega

theorem toNat_narrowEnd {start : Int32} {size : UInt32} (hstart : 0 ≤ start.toInt)
    (hend : start.toInt + size.toNat < 2 ^ 16) :
    ((narrowEnd start size).toNat : ℤ) = start.toInt + size.toNat := by
  have hsize : size.toInt32.toInt = size.toNat :=
    BitVec.toInt_eq_toNat_of_lt (by rw [UInt32.toBitVec_toInt32, UInt32.toNat_toBitVec]; omega)
  rw [narrowEnd, hsize, UInt16.toNat_ofNat']
  omega

/-- Regions within the first 65535 columns and rows are narrowed as they are. -/
theorem contains_ofDamage {damage : FfiDamageRegion} (hleft : 0 ≤ damage.x.toInt)
    (hright : damage.x.toInt + damage.width.toNat < 2 ^ 16) (htop : 0 ≤ damage.y.toInt)
    (hbottom : damage.y.toInt + damage.height.toNat < 2 ^ 16) :
    (ofDamage damage).Contains x y ↔ Damages damage x y := by
  have hl := toNat_narrowStart hleft (by omega)
  have hr := toNat_narrowEnd hleft hright
  have ht := toNat_narrowStart htop (by omega)
  have hb := toNat_narrowEnd htop hbottom
  simp only [Contains, Damages, ofDamage]
  omega

end Rectangle

/-- Each damaged pixel of a frame is in one of the rectangles. -/
def Covers (frame : VideoFrame) (rectangles : List Rectangle) : Prop :=
  ∀ damage ∈ frame.damageRegions, ∀ x < frame.width.toNat, ∀ y < frame.height.toNat,
    Damages damage x y → ∃ r ∈ rectangles, r.Contains x y

/-- Rectangles that have nothing to merge. -/
def Apart (rectangles : List Rectangle) : Prop :=
  rectangles.Pairwise fun r s => r.intersects s = false

/-! ### Merging -/

namespace DamageTracker

variable {t : DamageTracker} {region : Rectangle} {damageRegions : List FfiDamageRegion} {x y : ℕ}

theorem screen_addDamage (t : DamageTracker) (region : Rectangle) :
    (t.addDamage region).screenWidth = t.screenWidth ∧
      (t.addDamage region).screenHeight = t.screenHeight := by
  rw [addDamage]
  split
  · exact ⟨rfl, rfl⟩
  · split <;> exact ⟨rfl, rfl⟩

/-- A pixel will be sent. -/
def Sends (t : DamageTracker) (x y : ℕ) : Prop :=
  t.fullUpdate = true ∨ ∃ r ∈ t.regions, r.Contains x y

theorem sends_addDamage (h : t.Sends x y ∨ region.Contains x y) :
    (t.addDamage region).Sends x y := by
  rw [addDamage]
  split
  · rename_i hfull
    exact Or.inl hfull
  · rename_i hpart
    split
    · exact Or.inl rfl
    · have hadded : region.Contains x y ∨ ∃ r ∈ t.regions, r.Contains x y := by
        obtain (hfull | hin) | hregion := h
        · exact absurd hfull hpart
        · exact Or.inr hin
        · exact Or.inl hregion
      have hmem : ∀ (a b : Rectangle) (p : ℕ × ℕ), a.Contains p.1 p.2 ∨ b.Contains p.1 p.2 →
          (a.merge b).Contains p.1 p.2 := fun _ _ _ => Rectangle.contains_merge
      exact Or.inr (consolidate_covers (p := (x, y)) hmem
        (insertMerging_covers (p := (x, y)) hmem hadded))

theorem sends_foldl (h : t.Sends x y ∨ ∃ damage ∈ damageRegions,
      (Rectangle.ofDamage damage).Contains x y) :
    (damageRegions.foldl (fun t damage => t.addDamage (.ofDamage damage)) t).Sends x y := by
  induction damageRegions generalizing t with
  | nil =>
    obtain ht | ⟨damage, hmem, -⟩ := h
    · exact ht
    · cases hmem
  | cons damage rest ih =>
    rw [List.exists_mem_cons_iff] at h
    obtain ht | hdamage | hrest := h
    · exact ih (Or.inl (sends_addDamage (Or.inl ht)))
    · exact ih (Or.inl (sends_addDamage (Or.inr hdamage)))
    · exact ih (Or.inr hrest)

theorem foldl_full (h : t.fullUpdate = true) :
    (damageRegions.foldl (fun t damage => t.addDamage (.ofDamage damage)) t).fullUpdate = true := by
  induction damageRegions with
  | nil => exact h
  | cons damage rest ih =>
    have hsame : t.addDamage (.ofDamage damage) = t := if_pos h
    rw [List.foldl_cons, hsame]
    exact ih

theorem screen_foldl (t : DamageTracker) (damageRegions : List FfiDamageRegion) :
    let t' := damageRegions.foldl (fun t damage => t.addDamage (.ofDamage damage)) t
    t'.screenWidth = t.screenWidth ∧ t'.screenHeight = t.screenHeight := by
  induction damageRegions generalizing t with
  | nil => exact ⟨rfl, rfl⟩
  | cons damage rest ih =>
    obtain ⟨hwidth, hheight⟩ := screen_addDamage t (.ofDamage damage)
    exact ⟨(ih _).1.trans hwidth, (ih _).2.trans hheight⟩

theorem totalArea_addDamage (t : DamageTracker) (region : Rectangle) :
    (t.addDamage region).totalArea = t.totalArea := by
  obtain ⟨hwidth, hheight⟩ := screen_addDamage t region
  rw [totalArea, hwidth, hheight, totalArea]

/-- One region that takes up most of the screen is enough. -/
theorem foldl_exceeds (h : ∃ damage ∈ damageRegions,
      exceedsThreshold (Rectangle.ofDamage damage).area t.totalArea) :
    (damageRegions.foldl (fun t damage => t.addDamage (.ofDamage damage)) t).fullUpdate = true := by
  induction damageRegions generalizing t with
  | nil =>
    obtain ⟨damage, hmem, -⟩ := h
    cases hmem
  | cons damage rest ih =>
    rw [List.exists_mem_cons_iff] at h
    obtain hexceeds | hrest := h
    · have hadd : (t.addDamage (.ofDamage damage)).fullUpdate = true := by
        by_cases hfull : t.fullUpdate = true
        · rw [addDamage, if_pos hfull]
          exact hfull
        · rw [addDamage, if_neg hfull, if_pos (Or.inr hexceeds)]
      rw [List.foldl_cons]
      exact foldl_full hadd
    · refine ih ?_
      rw [totalArea_addDamage]
      exact hrest

/-- Regions that do not touch are all kept. -/
theorem foldl_apart (hpart : t.fullUpdate = false) (harea : t.totalArea ≠ 0)
    (hexceeds : ∀ damage ∈ damageRegions,
      ¬ exceedsThreshold (Rectangle.ofDamage damage).area t.totalArea)
    (hapart : Apart (t.regions ++ damageRegions.map .ofDamage)) :
    damageRegions.foldl (fun t damage => t.addDamage (.ofDamage damage)) t =
      { t with regions := t.regions ++ damageRegions.map .ofDamage } := by
  induction damageRegions generalizing t with
  | nil => rw [List.foldl_nil, List.map_nil, List.append_nil]
  | cons damage rest ih =>
    rw [List.forall_mem_cons] at hexceeds
    rw [List.map_cons, List.append_cons] at hapart
    have hkept : Apart (t.regions ++ [.ofDamage damage]) := (List.pairwise_append.mp hapart).1
    have hnew : ∀ r ∈ t.regions, r.intersects (.ofDamage damage) = false := fun r hr =>
      (List.pairwise_append.mp hkept).2.2 r hr _ List.mem_cons_self
    have hadd : t.addDamage (.ofDamage damage) =
        { t with regions := t.regions ++ [Rectangle.ofDamage damage] } := by
      rw [addDamage, hpart, if_neg Bool.false_ne_true,
        if_neg (not_or.mpr ⟨harea, hexceeds.1⟩)]
      dsimp only
      rw [insertMerging_apart hnew, consolidate_apart hkept]
    rw [List.map_cons, List.append_cons, List.foldl_cons, hadd]
    exact ih (t := { t with regions := t.regions ++ [.ofDamage damage] }) hpart harea hexceeds.2
      hapart

theorem contains_pending (hx : x < t.screenWidth.toNat) (hy : y < t.screenHeight.toNat)
    (h : t.Sends x y) : ∃ r ∈ t.pending, r.Contains x y := by
  rw [pending]
  split
  · exact ⟨_, List.mem_cons_self, Nat.zero_le _, hx, Nat.zero_le _, hy⟩
  · rename_i hpart
    exact h.resolve_left hpart

/-- The damage of a frame is narrowed to rectangles that have its pixels, or no rectangle matters,
as the whole screen is sent. -/
def Narrowed (t : DamageTracker) (frame : VideoFrame) : Prop :=
  t.fullUpdate = true ∨
    (∃ damage ∈ frame.damageRegions,
      exceedsThreshold (Rectangle.ofDamage damage).area t.totalArea) ∨
    Covers frame (t.regions ++ frame.damageRegions.map .ofDamage)

variable {frame : VideoFrame}

theorem covers_pending (hwidth : frame.width.toNat = t.screenWidth.toNat)
    (hheight : frame.height.toNat = t.screenHeight.toNat) (h : t.Narrowed frame) :
    Covers frame (t.addFrame frame.damageRegions).pending := by
  intro damage hdamage x hx y hy hin
  have hsome : frame.damageRegions ≠ [] := List.ne_nil_of_mem hdamage
  obtain ⟨hsw, hsh⟩ := screen_foldl t frame.damageRegions
  rw [addFrame, if_neg hsome]
  refine contains_pending (by rw [hsw, ← hwidth]; exact hx) (by rw [hsh, ← hheight]; exact hy) ?_
  obtain hfull | hexceeds | hcovers := h
  · exact Or.inl (foldl_full hfull)
  · exact Or.inl (foldl_exceeds hexceeds)
  · obtain ⟨r, hr, hcontains⟩ := hcovers damage hdamage x hx y hy hin
    refine sends_foldl ?_
    obtain hpending | hnarrowed := List.mem_append.mp hr
    · exact Or.inl (Or.inr ⟨r, hpending, hcontains⟩)
    · obtain ⟨d, hd, rfl⟩ := List.mem_map.mp hnarrowed
      exact Or.inr ⟨d, hd, hcontains⟩

/-- Where nothing is merged, the narrowed rectangles are all that is sent. -/
theorem narrowed_of_covers (hwidth : frame.width.toNat = t.screenWidth.toNat)
    (hheight : frame.height.toNat = t.screenHeight.toNat)
    (hapart : Apart (t.regions ++ frame.damageRegions.map .ofDamage))
    (h : Covers frame (t.addFrame frame.damageRegions).pending) : t.Narrowed frame := by
  by_cases hfull : t.fullUpdate = true
  · exact Or.inl hfull
  by_cases hexceeds : ∃ damage ∈ frame.damageRegions,
      exceedsThreshold (Rectangle.ofDamage damage).area t.totalArea
  · exact Or.inr (Or.inl hexceeds)
  refine Or.inr (Or.inr fun damage hdamage x hx y hy hin => ?_)
  have hsome : frame.damageRegions ≠ [] := List.ne_nil_of_mem hdamage
  have harea : t.totalArea ≠ 0 := by
    rw [totalArea, ← hwidth, ← hheight]
    exact Nat.mul_ne_zero (Nat.ne_zero_of_lt hx) (Nat.ne_zero_of_lt hy)
  have hkept := foldl_apart (Bool.eq_false_of_not_eq_true hfull) harea
    (fun d hd hlarge => hexceeds ⟨d, hd, hlarge⟩) hapart
  rw [addFrame, if_neg hsome, hkept, pending, if_neg hfull] at h
  exact h damage hdamage x hx y hy hin

end DamageTracker

/-! ### Updates -/

/-- A bitmap is the part of a buffer in its rectangle. -/
def BitmapData.Shows (bitmap : BitmapData) (frame : VideoFrame) (buffer : List UInt8) : Prop :=
  let bytesPerPixel := bitmap.format.bytesPerPixel
  let stride := (calculateRdpStride frame.width bitmap.format).toNat
  let r := bitmap.rectangle
  bitmap.format = .fromPixelFormat frame.format ∧ r.right.toNat ≤ frame.width.toNat ∧
    r.bottom.toNat ≤ frame.height.toNat ∧
    bitmap.data.length = r.width * bytesPerPixel * r.height ∧
    ∀ x < r.width, ∀ y < r.height,
      pixelAt bitmap.data (r.width * bytesPerPixel) bytesPerPixel x y =
        pixelAt buffer stride bytesPerPixel (r.left.toNat + x) (r.top.toNat + y)

/-- The bitmaps of an update are parts of the converted frame. -/
def BitmapUpdate.Shows (update : BitmapUpdate) (frame : VideoFrame) : Prop :=
  ∃ outputBuffer, BitmapConverter.convertedFrame frame = some (.ok outputBuffer) ∧
    ∀ bitmap ∈ update.rectangles, bitmap.Shows frame outputBuffer

theorem shows_rows {frame : VideoFrame} {buffer : List UInt8} {region : Rectangle}
    (hbuffer : buffer.length = calculateOutputSize frame.width frame.height
      (.fromPixelFormat frame.format))
    (hfits : region.Fits frame.width frame.height (.fromPixelFormat frame.format)) :
    BitmapData.Shows ⟨region, .fromPixelFormat frame.format, rows buffer region frame.width
      (.fromPixelFormat frame.format)⟩ frame buffer := by
  obtain ⟨hright, hbottom, hrows⟩ := hfits
  rw [← hbuffer] at hrows
  obtain ⟨hlength, hcells⟩ := rows_spec hrows
  refine ⟨rfl, hright, hbottom, hlength, fun x hx y hy => pixelAt_congr fun c hc => ?_⟩
  dsimp only
  rw [hcells y hy _ (raster_lt hx hc), rowStart]
  rw [Nat.add_mul region.left.toNat, Nat.add_assoc, Nat.add_assoc (region.left.toNat * _)]

/-- **What an update covers.** It has bitmaps of the converted frame; if the damage is narrowed to
rectangles that have its pixels, the update has them too; and if nothing is merged, it has them only
then. -/
theorem damage_covered {c next : BitmapConverter} {frame : VideoFrame} {update : BitmapUpdate}
    (hwidth : frame.width.toNat = c.damageTracker.screenWidth.toNat)
    (hheight : frame.height.toNat = c.damageTracker.screenHeight.toNat)
    (h : c.convertFrame frame = some (.ok update, next)) (hsome : update.rectangles ≠ []) :
    update.Shows frame ∧
      (c.damageTracker.Narrowed frame →
        Covers frame (update.rectangles.map BitmapData.rectangle)) ∧
      (Apart (c.damageTracker.regions ++ frame.damageRegions.map .ofDamage) →
        (Covers frame (update.rectangles.map BitmapData.rectangle) ↔
          c.damageTracker.Narrowed frame)) := by
  cases hvalid : frame.isValid with
  | false =>
    rw [BitmapConverter.convertFrame_invalid c hvalid] at h
    cases h
  | true =>
    by_cases hhash : calculateFrameHash frame.data = c.lastFrameHash
    · rw [BitmapConverter.convertFrame_unchanged hvalid hhash] at h
      cases h
      exact absurd rfl hsome
    · obtain ⟨hconvertible, outputBuffer, hconverted, hlength, hresult, -⟩ | ⟨-, ⟨_, hresult⟩, -⟩ :=
        BitmapConverter.convertFrame_new hvalid hhash h
      · cases hresult
        have hpending : ((c.record frame).damageTracker.pending.map fun region =>
            (⟨region, .fromPixelFormat frame.format, rows outputBuffer region frame.width
              (.fromPixelFormat frame.format)⟩ : BitmapData)).map BitmapData.rectangle =
            (c.damageTracker.addFrame frame.damageRegions).pending := by
          rw [List.map_map]
          exact List.map_id _
        dsimp only
        rw [hpending]
        have hcovers := DamageTracker.covers_pending hwidth hheight
        refine ⟨⟨outputBuffer, hconverted, fun bitmap hbitmap => ?_⟩, hcovers, fun hapart =>
          ⟨DamageTracker.narrowed_of_covers hwidth hheight hapart, hcovers⟩⟩
        obtain ⟨region, hregion, rfl⟩ := List.mem_map.mp hbitmap
        exact shows_rows hlength (hconvertible.2 region hregion)
      · cases hresult

/-- Four white pixels, of which one region is damaged. -/
def whiteSquare (damage : FfiDamageRegion) : VideoFrame :=
  ⟨2, 2, 8, .bgrx, List.replicate 16 255, [damage], 0⟩

/-- The damage of one pixel, sent. -/
theorem corner_covered :
    let pixel : BitmapData := ⟨⟨1, 1, 2, 2⟩, .bgrX32, [255, 255, 255, 255]⟩
    BitmapUpdate.Shows ⟨[pixel]⟩ (whiteSquare ⟨1, 1, 1, 1⟩) ∧
      Covers (whiteSquare ⟨1, 1, 1, 1⟩) [⟨1, 1, 2, 2⟩] := by
  have hconverted : (BitmapConverter.new 2 2).convertFrame (whiteSquare ⟨1, 1, 1, 1⟩) =
      some (.ok ⟨[⟨⟨1, 1, 2, 2⟩, .bgrX32, [255, 255, 255, 255]⟩]⟩,
        ⟨.new 2 2, calculateFrameHash (whiteSquare ⟨1, 1, 1, 1⟩).data⟩) := by decide +kernel
  have hcovered := damage_covered rfl rfl hconverted (List.cons_ne_nil _ _)
  refine ⟨hcovered.1, hcovered.2.1 (Or.inr (Or.inr fun damage hdamage x _ y _ hin => ?_))⟩
  rw [List.mem_singleton.mp hdamage] at hin
  exact ⟨_, List.mem_cons_self, (Rectangle.contains_ofDamage (by decide) (by decide) (by decide)
    (by decide)).mpr hin⟩

/-- A region that begins above the screen. The bitmap that is sent for it has no rows. -/
theorem above_screen_lost :
    ∃ update next, (BitmapConverter.new 2 2).convertFrame (whiteSquare ⟨0, -1, 2, 2⟩) =
        some (.ok update, next) ∧ update.rectangles ≠ [] ∧
      ¬ Covers (whiteSquare ⟨0, -1, 2, 2⟩) (update.rectangles.map BitmapData.rectangle) := by
  refine ⟨⟨[⟨⟨0, 65535, 2, 1⟩, .bgrX32, []⟩]⟩,
    ⟨.new 2 2, calculateFrameHash (whiteSquare ⟨0, -1, 2, 2⟩).data⟩, by decide +kernel,
    List.cons_ne_nil _ _, fun hcovers => ?_⟩
  obtain ⟨r, hr, hcontains⟩ := hcovers ⟨0, -1, 2, 2⟩ List.mem_cons_self 0 (by decide) 0 (by decide)
    (by decide)
  rw [List.mem_singleton.mp hr] at hcontains
  exact absurd hcontains (by decide)

end Bitmap

end Cheirizo
