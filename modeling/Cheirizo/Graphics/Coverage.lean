import Cheirizo.Graphics.Damage
import Mathlib.Data.UInt

/-!
# From dirty tiles to rectangles on the wire

`graphics/damage/regions.rs` and `egfx/channel/sender.rs`. Dirty tiles become regions, regions are
merged, and merged regions become the inclusive 16-bit rectangles of an AVC420 bitmap. No pixel of a
dirty tile is lost on the way, and no rectangle leaves the frame.

The size of a tile is a 64-bit number that is cut off to 32 bits. A tile that large is the whole
frame, and what is left of its size may be less.

## Main definitions

* `damageRegionsToAvc420` — the last stage
* `Covered` — what is asked of the rectangles
* `TileFits` — the condition

## Main results

* `mergeRegions_covers` — merging loses no pixel
* `covered_iff_tileFits` — the rectangles cover the dirty tiles, exactly if the tile size fits
-/

namespace Cheirizo

namespace Graphics

/-! ### Rectangles -/

/-- A rectangle with both ends included. -/
structure Avc420Region where
  left : ℕ
  top : ℕ
  right : ℕ
  bottom : ℕ
  quantizationParameter : ℕ
  quality : ℕ
  deriving DecidableEq, Repr

/-- The protocol counts the last row and column in. -/
def Avc420Region.contains (r : Avc420Region) (x y : ℕ) : Bool :=
  r.left ≤ x && x ≤ r.right && r.top ≤ y && y ≤ r.bottom

/-- Cut a region off at the edges of the display. -/
def DamageRegion.toAvc420 (displayWidth displayHeight : UInt16) (r : DamageRegion) :
    Option Avc420Region :=
  let left := min r.x displayWidth.toNat % 2 ^ 16
  let top := min r.y displayHeight.toNat % 2 ^ 16
  let right := (min r.right displayWidth.toNat - 1) % 2 ^ 16
  let bottom := (min r.bottom displayHeight.toNat - 1) % 2 ^ 16
  if right < left ∨ bottom < top then none else some ⟨left, top, right, bottom, 22, 100⟩

/-- Regions outside of the display are left out. -/
def damageRegionsToAvc420 (regions : List DamageRegion) (displayWidth displayHeight : UInt16) :
    List Avc420Region :=
  regions.filterMap (DamageRegion.toAvc420 displayWidth displayHeight)

/-! ### What is asked -/

section Coverage

variable (dirty : ℕ → ℕ → Bool) (width height : UInt16) (tileSize mergeDistance : ℕ)

/-- The regions of the dirty tiles, on the grid of the frame. -/
def dirtyRegions : List DamageRegion :=
  tilesToRegions dirty (DamageDetector.divCeil width.toNat tileSize)
    (DamageDetector.divCeil height.toNat tileSize) tileSize width.toNat height.toNat

/-- The rectangles for the dirty tiles of a frame. -/
def damageRectangles : List Avc420Region :=
  damageRegionsToAvc420 (mergeRegions (dirtyRegions dirty width height tileSize) mergeDistance)
    width height

/-- The rectangles have every pixel of every dirty tile, and lie in the frame. -/
structure Covered : Prop where
  pixels : ∀ tx ty x y, dirty tx ty = true → tx * tileSize ≤ x → x < (tx + 1) * tileSize →
    ty * tileSize ≤ y → y < (ty + 1) * tileSize → x < width.toNat → y < height.toNat →
    ∃ r ∈ damageRectangles dirty width height tileSize mergeDistance, r.contains x y = true
  inside : ∀ r ∈ damageRectangles dirty width height tileSize mergeDistance,
    r.left ≤ r.right ∧ r.right < width.toNat ∧ r.top ≤ r.bottom ∧ r.bottom < height.toNat

/-- The part of the tile size that is left in 32 bits is enough for the frame. -/
def TileFits : Prop :=
  min tileSize width.toNat ≤ tileSize % 2 ^ 32 ∧ min tileSize height.toNat ≤ tileSize % 2 ^ 32

instance : Decidable (TileFits width height tileSize) := inferInstanceAs (Decidable (_ ∧ _))

end Coverage

/-! ### Merging -/

section Merging

variable {width height minArea : ℕ} (hwidth : width < 2 ^ 32) (hheight : height < 2 ^ 32) {x y : ℕ}
include hwidth hheight

theorem DamageRegion.Kept.contains_iff {r : DamageRegion} (h : r.Kept width height minArea) :
    r.contains x y = true ↔ r.x ≤ x ∧ x < r.x + r.width ∧ r.y ≤ y ∧ y < r.y + r.height := by
  have hright := h.right
  have hbottom := h.bottom
  have hr : r.right = r.x + r.width := by
    rw [DamageRegion.right, saturatingAdd]
    omega
  have hb : r.bottom = r.y + r.height := by
    rw [DamageRegion.bottom, saturatingAdd]
    omega
  simp [DamageRegion.contains, hr, hb, and_assoc]

/-- A union has the pixels of both. -/
theorem DamageRegion.Kept.contains_union {r s : DamageRegion} (hr : r.Kept width height minArea)
    (hs : s.Kept width height minArea) (h : r.contains x y = true ∨ s.contains x y = true) :
    (r.union s).contains x y = true := by
  have hr1 := hr.right
  have hr2 := hr.bottom
  have hs1 := hs.right
  have hs2 := hs.bottom
  rw [hr.contains_iff hwidth hheight, hs.contains_iff hwidth hheight] at h
  rw [(hr.union hwidth hheight hs).contains_iff hwidth hheight]
  simp only [DamageRegion.union, DamageRegion.right, DamageRegion.bottom, saturatingAdd]
  omega

theorem absorb_covers (mergeDistance : ℕ) {current : DamageRegion} {regions : List DamageRegion}
    (hcurrent : current.Kept width height minArea)
    (hregions : ∀ r ∈ regions, r.Kept width height minArea)
    (h : current.contains x y = true ∨ ∃ r ∈ regions, r.contains x y = true) :
    (absorb mergeDistance current regions).1.contains x y = true ∨
      ∃ r ∈ (absorb mergeDistance current regions).2.1, r.contains x y = true := by
  have hunion : ∀ (r s : DamageRegion) (p : ℕ × ℕ), r.Kept width height minArea →
      s.Kept width height minArea → r.contains p.1 p.2 = true ∨ s.contains p.1 p.2 = true →
        (r.union s).contains p.1 p.2 = true := fun r s p hr hs =>
    hr.contains_union hwidth hheight hs
  obtain ⟨hmerged, hunused⟩ := absorb_eq mergeDistance current regions
  rw [hmerged, hunused]
  exact Merge.absorb_covers (p := (x, y))
    (fun r s hr hs => DamageRegion.Kept.union hwidth hheight hr hs) hunion hcurrent hregions h

theorem mergePass_covers (mergeDistance : ℕ) (regions : List DamageRegion)
    (hregions : ∀ r ∈ regions, r.Kept width height minArea)
    (h : ∃ r ∈ regions, r.contains x y = true) :
    ∃ r ∈ (mergePass mergeDistance regions).1, r.contains x y = true := by
  induction hn : regions.length using Nat.strong_induction_on generalizing regions with
  | _ n ih =>
    cases regions with
    | nil =>
      obtain ⟨r, hr, -⟩ := h
      cases hr
    | cons r regions =>
      have hr := hregions r (List.mem_cons_self ..)
      have hrest : ∀ s ∈ regions, s.Kept width height minArea :=
        fun s hs => hregions s (List.mem_cons_of_mem _ hs)
      have hlength := absorb_length mergeDistance r regions
      rw [List.length_cons] at hn
      rw [List.exists_mem_cons_iff] at h
      rw [mergePass_cons, List.exists_mem_cons_iff]
      obtain hin | hin := absorb_covers hwidth hheight mergeDistance hr hrest h
      · exact .inl hin
      · obtain ⟨-, hunused⟩ := absorb_kept hwidth hheight mergeDistance hr hrest
        exact .inr (ih _ (by omega) _ hunused hin rfl)

/-- **Merging loses no pixel.** -/
theorem mergeRegions_covers (mergeDistance : ℕ) {regions : List DamageRegion}
    (hregions : ∀ r ∈ regions, r.Kept width height minArea)
    (h : ∃ r ∈ regions, r.contains x y = true) :
    ∃ r ∈ mergeRegions regions mergeDistance, r.contains x y = true := by
  rw [mergeRegions]
  split
  · exact h
  · rename_i hmany
    clear hmany
    fun_induction mergeLoop mergeDistance regions with
    | case1 regions hchanged ih =>
      exact ih (mergePass_kept hwidth hheight mergeDistance regions hregions)
        (mergePass_covers hwidth hheight mergeDistance regions hregions h)
    | case2 regions hchanged =>
      exact mergePass_covers hwidth hheight mergeDistance regions hregions h

end Merging

/-! ### The whole way -/

section Rectangles

variable {dirty : ℕ → ℕ → Bool} {width height : UInt16} {tileSize : ℕ}

/-- A region of the frame that is not empty is the same rectangle with its ends included. -/
theorem DamageRegion.Kept.toAvc420 {r : DamageRegion} (h : r.Kept width.toNat height.toNat 1) :
    r.toAvc420 width height =
      some ⟨r.x, r.y, r.x + r.width - 1, r.y + r.height - 1, 22, 100⟩ := by
  have hright := h.right
  have hbottom := h.bottom
  have hwidth : 0 < r.width := Nat.pos_of_mul_pos_right h.area
  have hheight : 0 < r.height := Nat.pos_of_mul_pos_left h.area
  have hw := width.toNat_lt
  have hh := height.toNat_lt
  have hl : min r.x width.toNat % 2 ^ 16 = r.x := by omega
  have ht : min r.y height.toNat % 2 ^ 16 = r.y := by omega
  have hr : (min r.right width.toNat - 1) % 2 ^ 16 = r.x + r.width - 1 := by
    rw [DamageRegion.right, saturatingAdd]
    omega
  have hb : (min r.bottom height.toNat - 1) % 2 ^ 16 = r.y + r.height - 1 := by
    rw [DamageRegion.bottom, saturatingAdd]
    omega
  rw [DamageRegion.toAvc420, hl, ht, hr, hb, if_neg (by omega)]

theorem mergeRegions_all_kept {width height minArea : ℕ} (hwidth : width < 2 ^ 32)
    (hheight : height < 2 ^ 32) (mergeDistance : ℕ) {regions : List DamageRegion}
    (hregions : ∀ r ∈ regions, r.Kept width height minArea) :
    ∀ r ∈ mergeRegions regions mergeDistance, r.Kept width height minArea := by
  by_cases hne : regions = []
  · subst hne
    exact hregions
  · exact (mergeRegions_kept hwidth hheight mergeDistance hne hregions).2

theorem mem_dirtyRegions (hpos : 0 < tileSize) {r : DamageRegion} :
    r ∈ dirtyRegions dirty width height tileSize ↔
      ∃ tx ty, tx * tileSize < width.toNat ∧ ty * tileSize < height.toNat ∧ dirty tx ty = true ∧
        0 < tileSize % 2 ^ 32 ∧
        r = ⟨tx * tileSize, ty * tileSize, min (tileSize % 2 ^ 32) (width.toNat - tx * tileSize),
          min (tileSize % 2 ^ 32) (height.toNat - ty * tileSize)⟩ := by
  have hw := width.toNat_lt
  have hh := height.toNat_lt
  exact mem_tilesToRegions_iff hpos (by omega) (by omega)

theorem dirtyRegions_kept (hpos : 0 < tileSize) :
    ∀ r ∈ dirtyRegions dirty width height tileSize, r.Kept width.toNat height.toNat 1 := by
  intro r hr
  obtain ⟨tx, ty, htx, hty, -, htile, rfl⟩ := (mem_dirtyRegions hpos).mp hr
  refine ⟨?_, ?_, ?_⟩
  · show tx * tileSize + min _ (width.toNat - tx * tileSize) ≤ width.toNat
    omega
  · show ty * tileSize + min _ (height.toNat - ty * tileSize) ≤ height.toNat
    omega
  · exact Nat.mul_pos (Nat.lt_min.mpr ⟨htile, Nat.sub_pos_of_lt htx⟩)
      (Nat.lt_min.mpr ⟨htile, Nat.sub_pos_of_lt hty⟩)

/-- Every rectangle is that of a merged region. -/
theorem mem_damageRectangles (hpos : 0 < tileSize) (mergeDistance : ℕ) {rect : Avc420Region} :
    rect ∈ damageRectangles dirty width height tileSize mergeDistance ↔
      ∃ r ∈ mergeRegions (dirtyRegions dirty width height tileSize) mergeDistance,
        r.Kept width.toNat height.toNat 1 ∧
          rect = ⟨r.x, r.y, r.x + r.width - 1, r.y + r.height - 1, 22, 100⟩ := by
  have hw := width.toNat_lt
  have hh := height.toNat_lt
  have hkept : ∀ r ∈ mergeRegions (dirtyRegions dirty width height tileSize) mergeDistance,
      r.Kept width.toNat height.toNat 1 :=
    mergeRegions_all_kept (by omega) (by omega) mergeDistance (dirtyRegions_kept hpos)
  rw [damageRectangles, damageRegionsToAvc420, List.mem_filterMap]
  constructor
  · rintro ⟨r, hr, hrect⟩
    rw [(hkept r hr).toAvc420] at hrect
    exact ⟨r, hr, hkept r hr, (Option.some.inj hrect).symm⟩
  · rintro ⟨r, hr, hr', rfl⟩
    exact ⟨r, hr, hr'.toAvc420⟩

theorem inside_damageRectangles (hpos : 0 < tileSize) (mergeDistance : ℕ) :
    ∀ r ∈ damageRectangles dirty width height tileSize mergeDistance,
      r.left ≤ r.right ∧ r.right < width.toNat ∧ r.top ≤ r.bottom ∧ r.bottom < height.toNat := by
  intro rect hrect
  obtain ⟨r, -, hkept, rfl⟩ := (mem_damageRectangles hpos mergeDistance).mp hrect
  have hright := hkept.right
  have hbottom := hkept.bottom
  have hwidth : 0 < r.width := Nat.pos_of_mul_pos_right hkept.area
  have hheight : 0 < r.height := Nat.pos_of_mul_pos_left hkept.area
  dsimp only
  omega

/-- The pixels of a merged region are those of its rectangle. -/
theorem DamageRegion.Kept.contains_rectangle {r : DamageRegion}
    (h : r.Kept width.toNat height.toNat 1) {x y : ℕ} :
    Avc420Region.contains ⟨r.x, r.y, r.x + r.width - 1, r.y + r.height - 1, 22, 100⟩ x y = true ↔
      r.contains x y = true := by
  have hw := width.toNat_lt
  have hh := height.toNat_lt
  have hwidth : 0 < r.width := Nat.pos_of_mul_pos_right h.area
  have hheight : 0 < r.height := Nat.pos_of_mul_pos_left h.area
  rw [h.contains_iff (by omega) (by omega)]
  simp only [Avc420Region.contains, Bool.and_eq_true, decide_eq_true_eq]
  omega

/-- A pixel of a dirty tile is in a rectangle if it is in the region of its tile. -/
theorem exists_rectangle (hpos : 0 < tileSize) (mergeDistance : ℕ) {x y : ℕ}
    (h : ∃ r ∈ dirtyRegions dirty width height tileSize, r.contains x y = true) :
    ∃ r ∈ damageRectangles dirty width height tileSize mergeDistance, r.contains x y = true := by
  have hw := width.toNat_lt
  have hh := height.toNat_lt
  have hkept : ∀ r ∈ dirtyRegions dirty width height tileSize, r.Kept width.toNat height.toNat 1 :=
    dirtyRegions_kept hpos
  obtain ⟨r, hr, hin⟩ := mergeRegions_covers (by omega) (by omega) mergeDistance hkept h
  have hmerged := mergeRegions_all_kept (by omega) (by omega) mergeDistance hkept r hr
  exact ⟨_, (mem_damageRectangles hpos mergeDistance).mpr ⟨r, hr, hmerged, rfl⟩,
    hmerged.contains_rectangle.mpr hin⟩

/-- If the tile size fits, the dirty tiles are covered. -/
theorem covered_of_tileFits (hpos : 0 < tileSize) (mergeDistance : ℕ)
    (hfits : TileFits width height tileSize) :
    Covered dirty width height tileSize mergeDistance := by
  refine ⟨?_, inside_damageRectangles hpos mergeDistance⟩
  intro tx ty x y hdirty hx hx' hy hy' hxw hyh
  have hw := width.toNat_lt
  have hh := height.toNat_lt
  obtain ⟨hfitsW, hfitsH⟩ := hfits
  rw [Nat.add_mul, Nat.one_mul] at hx' hy'
  have hmem : (⟨tx * tileSize, ty * tileSize, min (tileSize % 2 ^ 32) (width.toNat - tx * tileSize),
      min (tileSize % 2 ^ 32) (height.toNat - ty * tileSize)⟩ : DamageRegion) ∈
        dirtyRegions dirty width height tileSize :=
    (mem_dirtyRegions hpos).mpr ⟨tx, ty, by omega, by omega, hdirty, by omega, rfl⟩
  refine exists_rectangle hpos mergeDistance ⟨_, hmem, ?_⟩
  rw [(dirtyRegions_kept hpos _ hmem).contains_iff (by omega) (by omega)]
  dsimp only
  omega

/-- A tile larger than the frame leaves nothing but what is left of its size. -/
theorem dirtyRegions_kept_of_large (hpos : 0 < tileSize) (hwidth : width.toNat ≤ tileSize)
    (hheight : height.toNat ≤ tileSize) :
    ∀ r ∈ dirtyRegions dirty width height tileSize,
      r.Kept (min (tileSize % 2 ^ 32) width.toNat) (min (tileSize % 2 ^ 32) height.toNat) 1 := by
  intro r hr
  have harea := (dirtyRegions_kept hpos r hr).area
  obtain ⟨tx, ty, htx, hty, -, -, rfl⟩ := (mem_dirtyRegions hpos).mp hr
  have hfirst : ∀ i, i * tileSize < tileSize → i = 0 := by
    intro i hi
    rw [← Nat.lt_one_iff]
    exact Nat.lt_of_mul_lt_mul_right (hi.trans_eq (Nat.one_mul _).symm)
  obtain rfl := hfirst tx (htx.trans_le hwidth)
  obtain rfl := hfirst ty (hty.trans_le hheight)
  refine ⟨?_, ?_, harea⟩
  · show 0 * tileSize + min _ (width.toNat - 0 * tileSize) ≤ _
    omega
  · show 0 * tileSize + min _ (height.toNat - 0 * tileSize) ≤ _
    omega

/-- If the tile size does not fit and a tile of the frame is dirty, the last pixel of the first row
or column is missing. -/
theorem not_covered_of_not_tileFits (hpos : 0 < tileSize) (mergeDistance : ℕ)
    (hfits : ¬ TileFits width height tileSize) {tx ty : ℕ} (htx : tx * tileSize < width.toNat)
    (hty : ty * tileSize < height.toNat) (hdirty : dirty tx ty = true) :
    ¬ Covered dirty width height tileSize mergeDistance := by
  intro hcovered
  have hw := width.toNat_lt
  have hh := height.toNat_lt
  have hlarge : 2 ^ 32 ≤ tileSize := by
    by_contra hsmall
    have hmod := Nat.mod_eq_of_lt (not_le.mp hsmall)
    exact hfits ⟨by omega, by omega⟩
  have hkept : ∀ r ∈ mergeRegions (dirtyRegions dirty width height tileSize) mergeDistance,
      r.Kept (min (tileSize % 2 ^ 32) width.toNat) (min (tileSize % 2 ^ 32) height.toNat) 1 :=
    mergeRegions_all_kept (by omega) (by omega) mergeDistance
      (dirtyRegions_kept_of_large hpos (by omega) (by omega))
  have hbounded : ∀ x y, tx * tileSize ≤ x → ty * tileSize ≤ y → x < width.toNat →
      y < height.toNat → x < tileSize % 2 ^ 32 ∧ y < tileSize % 2 ^ 32 := by
    intro x y hx hy hxw hyh
    obtain ⟨rect, hrect, hin⟩ := hcovered.pixels tx ty x y hdirty hx (by rw [Nat.add_mul]; omega)
      hy (by rw [Nat.add_mul]; omega) hxw hyh
    obtain ⟨r, hr, hframe, rfl⟩ := (mem_damageRectangles hpos mergeDistance).mp hrect
    rw [hframe.contains_rectangle, (hkept r hr).contains_iff (by omega) (by omega)] at hin
    have hright := (hkept r hr).right
    have hbottom := (hkept r hr).bottom
    omega
  have hcorner := hbounded (width.toNat - 1) (height.toNat - 1) (by omega) (by omega) (by omega)
    (by omega)
  exact hfits ⟨by omega, by omega⟩

/-- **Coverage.** The rectangles have every pixel of every dirty tile and lie in the frame, exactly
if the part of the tile size that is left in 32 bits is enough, or no tile of the frame is dirty. -/
theorem covered_iff_tileFits (dirty : ℕ → ℕ → Bool) (width height : UInt16) {tileSize : ℕ}
    (hpos : 0 < tileSize) (mergeDistance : ℕ) :
    Covered dirty width height tileSize mergeDistance ↔
      TileFits width height tileSize ∨
        ∀ tx ty, tx * tileSize < width.toNat → ty * tileSize < height.toNat →
          dirty tx ty = false := by
  constructor
  · intro hcovered
    by_contra hnot
    push Not at hnot
    obtain ⟨hfits, tx, ty, htx, hty, hdirty⟩ := hnot
    exact not_covered_of_not_tileFits hpos mergeDistance hfits htx hty
      (Bool.not_eq_false _ ▸ hdirty) hcovered
  · rintro (hfits | hclean)
    · exact covered_of_tileFits hpos mergeDistance hfits
    · refine ⟨?_, inside_damageRectangles hpos mergeDistance⟩
      intro tx ty x y hdirty hx _ hy _ hxw hyh
      rw [hclean tx ty (hx.trans_lt hxw) (hy.trans_lt hyh)] at hdirty
      cases hdirty

/-- Two dirty tiles at opposite corners of a frame that is not a multiple of the tile size. -/
theorem covered_corners :
    0 < 64 ∧ Covered (fun tx ty => tx == ty) 100 100 64 0 :=
  ⟨by decide, (covered_iff_tileFits _ 100 100 (by decide) 0).mpr (.inl (by decide))⟩

/-- A tile size of `2 ^ 32` leaves nothing: the tile is dirty, and nothing is sent. -/
theorem not_covered_of_truncated_tile : ¬ Covered (fun _ _ => true) 1 1 (2 ^ 32) 0 := by
  have hfirst : 0 * 2 ^ 32 < UInt16.toNat 1 := by decide
  exact not_covered_of_not_tileFits (by decide) 0 (by decide) hfirst hfirst rfl

end Rectangles

end Graphics

end Cheirizo
