import Cheirizo.Lib.Merge
import Mathlib.Algebra.BigOperators.Intervals
import Mathlib.Algebra.Order.BigOperators.Group.Finset
import Mathlib.Algebra.Order.Ring.Nat
import Mathlib.Data.List.Basic
import Mathlib.Tactic.Ring

/-!
# Damage detection

`graphics/damage`. A frame is compared with the one before it, tile by tile; tiles with enough
different pixels become regions, neighbouring regions are merged, and small ones are left out. The
frame then becomes the one to compare the next with, whatever is made of the regions.

## Main definitions

* `DamageRegion` — a rectangle, with 32-bit arithmetic that stops at the largest number
* `countDifferentPixels`, `compareTile` — the comparison, blind to the fourth channel
* `differing` — the pixels that differ by more than a threshold
* `tilesToRegions`, `mergeRegions` — from tiles to regions
* `DamageDetector.detect`

## Main results

* `compareTile_eq_card` — the comparison counts the pixels of a tile that differ
* `detectChanges_sound` — with thresholds of zero and no tile too small, a frame without damage
  shows the picture it was compared with
-/

namespace Cheirizo

namespace Graphics

/-! ### Regions -/

/-- Addition of 32-bit numbers, up to the largest. -/
def saturatingAdd (a b : ℕ) : ℕ := min (a + b) (2 ^ 32 - 1)

/-- A rectangle of a frame. -/
structure DamageRegion where
  x : ℕ
  y : ℕ
  width : ℕ
  height : ℕ
  deriving DecidableEq, Repr

namespace DamageRegion

/-- All of a frame. -/
def fullFrame (width height : ℕ) : DamageRegion := ⟨0, 0, width, height⟩

/-- Behind the last column. The sum stays in range. -/
def right (r : DamageRegion) : ℕ := saturatingAdd r.x r.width

/-- Below the last row. The sum stays in range. -/
def bottom (r : DamageRegion) : ℕ := saturatingAdd r.y r.height

/-- How many pixels there are. -/
def area (r : DamageRegion) : ℕ := r.width * r.height

/-- The pixel lies in the region. -/
def contains (r : DamageRegion) (x y : ℕ) : Bool :=
  r.x ≤ x && x < r.right && r.y ≤ y && y < r.bottom

/-- The smallest region around both. -/
def union (r s : DamageRegion) : DamageRegion :=
  let x := min r.x s.x
  let y := min r.y s.y
  ⟨x, y, max r.right s.right - x, max r.bottom s.bottom - y⟩

/-- The regions overlap, or are no further apart than that. -/
def isAdjacent (r s : DamageRegion) (mergeDistance : ℕ) : Bool :=
  let gapX := if r.right ≤ s.x then s.x - r.right else r.x - s.right
  let gapY := if r.bottom ≤ s.y then s.y - r.bottom else r.y - s.bottom
  gapX ≤ mergeDistance && gapY ≤ mergeDistance

/-- A full frame has all the pixels there are. -/
theorem contains_fullFrame {width height x y : ℕ} (hwidth : width < 2 ^ 32)
    (hheight : height < 2 ^ 32) (hx : x < width) (hy : y < height) :
    (fullFrame width height).contains x y = true := by
  have hright : (fullFrame width height).right = width := by
    show min (0 + width) (2 ^ 32 - 1) = width
    omega
  have hbottom : (fullFrame width height).bottom = height := by
    show min (0 + height) (2 ^ 32 - 1) = height
    omega
  have hleft : (fullFrame width height).x ≤ x := Nat.zero_le x
  have htop : (fullFrame width height).y ≤ y := Nat.zero_le y
  rw [contains, hright, hbottom, decide_eq_true hx, decide_eq_true hy, decide_eq_true hleft,
    decide_eq_true htop]
  rfl

end DamageRegion

/-! ### Configuration and comparison -/

/-- What is configured about the detection. -/
structure DamageConfig where
  tileSize : ℕ
  /-- The fraction of this many pixels that may differ, as a number of pixels. -/
  diffThreshold : ℕ → ℕ
  pixelThreshold : UInt8
  mergeDistance : ℕ
  minRegionArea : ℕ

/-- The distance of two channel values. -/
def channelDiff (p c : UInt8) : ℕ := (p.toNat - c.toNat) + (c.toNat - p.toNat)

/-- Pixels of four bytes that differ by more than the threshold in one of the first three. -/
def countDifferentPixels (threshold : UInt8) : List UInt8 → List UInt8 → ℕ
  | pb :: pg :: pr :: _ :: prev, cb :: cg :: cr :: _ :: curr =>
    (if threshold.toNat < channelDiff pb cb ∨ threshold.toNat < channelDiff pg cg ∨
        threshold.toNat < channelDiff pr cr then 1 else 0) +
      countDifferentPixels threshold prev curr
  | _, _ => 0

/-- The bytes of a row of a tile. -/
def tileRow (data : List UInt8) (offset bytesPerRow : ℕ) : List UInt8 :=
  (data.drop offset).take bytesPerRow

/-- The different pixels of a row of a tile; rows beyond either frame are passed over. -/
def compareRow (threshold : UInt8) (prev curr : List UInt8) (offset bytesPerRow : ℕ) : ℕ :=
  if prev.length < offset + bytesPerRow ∨ curr.length < offset + bytesPerRow then 0
  else countDifferentPixels threshold (tileRow prev offset bytesPerRow)
    (tileRow curr offset bytesPerRow)

/-- The different pixels of a tile, counted in 32 bits. -/
def compareTile (threshold : UInt8) (prev curr : List UInt8)
    (tileX tileY tileWidth tileHeight stride : ℕ) : ℕ :=
  ((List.range tileHeight).map fun row =>
    compareRow threshold prev curr ((tileY + row) * stride + tileX * 4)
      (tileWidth * 4)).sum % 2 ^ 32

/-! ### From tiles to regions -/

/-- The regions of the dirty tiles, cut off at the edges of the frame. -/
def tilesToRegions (dirty : ℕ → ℕ → Bool) (tilesX tilesY tileSize frameWidth frameHeight : ℕ) :
    List DamageRegion :=
  (List.range tilesY).flatMap fun ty => (List.range tilesX).filterMap fun tx =>
    if dirty tx ty then
      let x := tx * tileSize % 2 ^ 32
      let y := ty * tileSize % 2 ^ 32
      let width := min (tileSize % 2 ^ 32) (frameWidth - x)
      let height := min (tileSize % 2 ^ 32) (frameHeight - y)
      if 0 < width ∧ 0 < height then some ⟨x, y, width, height⟩ else none
    else none

/-- Let a region take in the later ones it is adjacent to: the region, those left over, and whether
it took in any. -/
def absorb (mergeDistance : ℕ) (current : DamageRegion) :
    List DamageRegion → DamageRegion × List DamageRegion × Bool
  | [] => (current, [], false)
  | r :: regions =>
    if current.isAdjacent r mergeDistance then
      let next := absorb mergeDistance (current.union r) regions
      (next.1, next.2.1, true)
    else
      let next := absorb mergeDistance current regions
      (next.1, r :: next.2.1, next.2.2)

/-- The regions alone are those of a list that merges what is adjacent. -/
theorem absorb_eq (mergeDistance : ℕ) (current : DamageRegion) (regions : List DamageRegion) :
    let merged := Merge.absorb (fun r s => r.isAdjacent s mergeDistance) .union current regions
    (absorb mergeDistance current regions).1 = merged.1 ∧
      (absorb mergeDistance current regions).2.1 = merged.2 := by
  induction regions generalizing current with
  | nil => exact ⟨rfl, rfl⟩
  | cons r regions ih =>
    rw [absorb, Merge.absorb]
    split
    · exact ih (current.union r)
    · obtain ⟨hmerged, hunused⟩ := ih current
      exact ⟨hmerged, congrArg (List.cons r) hunused⟩

/-- What is left over was there, and is less if anything was taken in. -/
theorem absorb_length (mergeDistance : ℕ) (current : DamageRegion) (regions : List DamageRegion) :
    (absorb mergeDistance current regions).2.1.length +
      (absorb mergeDistance current regions).2.2.toNat ≤ regions.length := by
  induction regions generalizing current with
  | nil => exact le_refl _
  | cons r regions ih =>
    rw [absorb]
    split
    · have h := ih (current.union r)
      simp only [Bool.toNat_true, List.length_cons]
      omega
    · have h := ih current
      simp only [List.length_cons]
      omega

/-- One pass: the merged regions, and whether any were merged. -/
def mergePass (mergeDistance : ℕ) : List DamageRegion → List DamageRegion × Bool
  | [] => ([], false)
  | r :: regions =>
    let absorbed := absorb mergeDistance r regions
    let next := mergePass mergeDistance absorbed.2.1
    (absorbed.1 :: next.1, absorbed.2.2 || next.2)
termination_by regions => regions.length
decreasing_by
  have h := absorb_length mergeDistance r regions
  rw [List.length_cons]
  omega

theorem mergePass_cons (mergeDistance : ℕ) (r : DamageRegion) (regions : List DamageRegion) :
    mergePass mergeDistance (r :: regions) =
      ((absorb mergeDistance r regions).1 ::
          (mergePass mergeDistance (absorb mergeDistance r regions).2.1).1,
        (absorb mergeDistance r regions).2.2 ||
          (mergePass mergeDistance (absorb mergeDistance r regions).2.1).2) := by
  rw [mergePass]

theorem mergePass_length (mergeDistance : ℕ) (regions : List DamageRegion) :
    (mergePass mergeDistance regions).1.length + (mergePass mergeDistance regions).2.toNat ≤
      regions.length := by
  induction hn : regions.length using Nat.strong_induction_on generalizing regions with
  | _ n ih =>
    cases regions with
    | nil =>
      rw [mergePass]
      exact Nat.zero_le _
    | cons r regions =>
      rw [mergePass_cons]
      have habsorb := absorb_length mergeDistance r regions
      rw [List.length_cons] at hn
      have hnext := ih _ (by omega) (absorb mergeDistance r regions).2.1 rfl
      simp only [List.length_cons]
      cases hchanged : (absorb mergeDistance r regions).2.2 with
      | true =>
        rw [hchanged, Bool.toNat_true] at habsorb
        rw [Bool.true_or, Bool.toNat_true]
        omega
      | false =>
        rw [Bool.false_or]
        omega

/-- Passes, until one merges nothing. -/
def mergeLoop (mergeDistance : ℕ) (regions : List DamageRegion) : List DamageRegion :=
  if (mergePass mergeDistance regions).2 then
    mergeLoop mergeDistance (mergePass mergeDistance regions).1
  else (mergePass mergeDistance regions).1
termination_by regions.length
decreasing_by
  rename_i hchanged
  have h := mergePass_length mergeDistance regions
  rw [hchanged, Bool.toNat_true] at h
  omega

/-- Regions are merged until no two of them are near each other. -/
def mergeRegions (regions : List DamageRegion) (mergeDistance : ℕ) : List DamageRegion :=
  if regions.length ≤ 1 then regions else mergeLoop mergeDistance regions

/-! ### The detector -/

/-- The detector between two frames. -/
structure DamageDetector where
  config : DamageConfig
  previousFrame : Option (List UInt8)
  previousDimensions : Option (ℕ × ℕ)
  tilesX : ℕ
  tilesY : ℕ
  invalidated : Bool

namespace DamageDetector

/-- The first frame has nothing to be compared with. -/
def new (config : DamageConfig) : DamageDetector := ⟨config, none, none, 0, 0, true⟩

/-- The next frame is not compared with the last one. -/
def invalidate (d : DamageDetector) : DamageDetector := { d with invalidated := true }

/-- The number of tiles along a side, the last one possibly cut off. -/
def divCeil (a b : ℕ) : ℕ := (a + b - 1) / b

/-- Whether a tile has more different pixels than the threshold. -/
def tileDirty (d : DamageDetector) (prev curr : List UInt8) (width height tx ty : ℕ) : Bool :=
  let tileX := tx * d.config.tileSize
  let tileY := ty * d.config.tileSize
  let tileWidth := min d.config.tileSize (width - tileX)
  let tileHeight := min d.config.tileSize (height - tileY)
  if tileWidth = 0 ∨ tileHeight = 0 then false
  else
    d.config.diffThreshold (tileWidth * tileHeight % 2 ^ 32) <
      compareTile d.config.pixelThreshold prev curr tileX tileY tileWidth tileHeight (width * 4)

/-- Tiles that have changed, in regions that are large enough. -/
def detectChanges (d : DamageDetector) (prev curr : List UInt8) (width height : ℕ) :
    List DamageRegion :=
  (mergeRegions
    (tilesToRegions (d.tileDirty prev curr width height) d.tilesX d.tilesY d.config.tileSize width
      height) d.config.mergeDistance).filter fun r => d.config.minRegionArea ≤ r.area

/-- The frame to compare with, unless all of the next frame counts as damaged. -/
def reference (d : DamageDetector) (width height : ℕ) : Option (List UInt8) :=
  if d.invalidated ∨ d.previousDimensions ≠ some (width, height) then none else d.previousFrame

/-- The regions that changed. A buffer of another size, or tiles of size zero, are programming
errors. -/
def detect (d : DamageDetector) (frame : List UInt8) (width height : ℕ) :
    Option (List DamageRegion × DamageDetector) :=
  if frame.length ≠ width * height * 4 then none
  else
    match d.reference width height with
    | none =>
      if d.config.tileSize = 0 then none
      else
        some ([.fullFrame width height], {
          config := d.config
          previousFrame := some frame
          previousDimensions := some (width, height)
          tilesX := divCeil width d.config.tileSize
          tilesY := divCeil height d.config.tileSize
          invalidated := false })
    | some prev =>
      some (d.detectChanges prev frame width height, { d with previousFrame := some frame })

end DamageDetector

/-! ### The comparison -/

/-- Two buffers show the same picture: they differ at most in the fourth byte of a pixel. -/
def SamePicture (a b : List UInt8) : Prop :=
  ∀ i c, c < 3 → a.getD (4 * i + c) 0 = b.getD (4 * i + c) 0

theorem SamePicture.refl (a : List UInt8) : SamePicture a a := fun _ _ _ => rfl

theorem SamePicture.trans {a b c : List UInt8} (h : SamePicture a b) (h' : SamePicture b c) :
    SamePicture a c :=
  fun i j hj => (h i j hj).trans (h' i j hj)

theorem eq_of_channelDiff {p c : UInt8} (h : ¬ (0 : UInt8).toNat < channelDiff p c) : p = c := by
  rw [channelDiff, UInt8.toNat_zero] at h
  have hp : p.toNat = c.toNat := by omega
  exact UInt8.toNat_inj.mp hp

/-- The pixels differ by more than the threshold in one of the first three channels. -/
def Differs (threshold width : ℕ) (a b : List UInt8) (p : ℕ × ℕ) : Prop :=
  ∃ c < 3, threshold < channelDiff (a.getD (4 * (p.2 * width + p.1) + c) 0)
    (b.getD (4 * (p.2 * width + p.1) + c) 0)

instance (threshold width : ℕ) (a b : List UInt8) :
    DecidablePred (Differs threshold width a b) :=
  fun _ => inferInstanceAs (Decidable (∃ c < 3, _ < channelDiff _ _))

/-- The pixels that differ by more than the threshold. -/
def differing (threshold width : ℕ) (a b : List UInt8) (pixels : Finset (ℕ × ℕ)) :
    Finset (ℕ × ℕ) :=
  pixels.filter (Differs threshold width a b)

section Row

variable {t : ℕ} {pb pg pr pa cb cg cr ca : UInt8} {prev curr : List UInt8}

theorem differs_cons_zero :
    Differs t 0 (pb :: pg :: pr :: pa :: prev) (cb :: cg :: cr :: ca :: curr) (0, 0) ↔
      t < channelDiff pb cb ∨ t < channelDiff pg cg ∨ t < channelDiff pr cr := by
  constructor
  · rintro ⟨c, hc, h⟩
    match c, hc with
    | 0, _ => exact .inl h
    | 1, _ => exact .inr (.inl h)
    | 2, _ => exact .inr (.inr h)
  · rintro (h | h | h)
    · exact ⟨0, by omega, h⟩
    · exact ⟨1, by omega, h⟩
    · exact ⟨2, by omega, h⟩

theorem differs_cons_succ (i : ℕ) :
    Differs t 0 (pb :: pg :: pr :: pa :: prev) (cb :: cg :: cr :: ca :: curr) (i + 1, 0) ↔
      Differs t 0 prev curr (i, 0) := by
  have hat : ∀ c, 4 * (0 * 0 + (i + 1)) + c = 4 * (0 * 0 + i) + c + 1 + 1 + 1 + 1 := by
    intro c
    omega
  simp only [Differs, hat, List.getD_cons_succ]

end Row

/-- The different pixels of two rows, counted by their places. -/
theorem countDifferentPixels_eq_sum (threshold : UInt8) (n : ℕ) (prev curr : List UInt8)
    (hprev : prev.length = 4 * n) (hcurr : curr.length = 4 * n) :
    countDifferentPixels threshold prev curr =
      ∑ i ∈ Finset.range n, if Differs threshold.toNat 0 prev curr (i, 0) then 1 else 0 := by
  induction n generalizing prev curr with
  | zero =>
    rw [List.length_eq_zero_iff.mp hprev]
    rfl
  | succ n ih =>
    match prev, curr with
    | pb :: pg :: pr :: pa :: prev, cb :: cg :: cr :: ca :: curr =>
      simp only [List.length_cons] at hprev hcurr
      rw [countDifferentPixels, Finset.sum_range_succ', ih prev curr (by omega) (by omega),
        Nat.add_comm]
      simp only [differs_cons_zero, differs_cons_succ]
    | [], _ | [_], _ | [_, _], _ | [_, _, _], _ =>
      simp only [List.length_cons, List.length_nil] at hprev
      omega
    | _ :: _ :: _ :: _ :: _, [] | _ :: _ :: _ :: _ :: _, [_] | _ :: _ :: _ :: _ :: _, [_, _]
    | _ :: _ :: _ :: _ :: _, [_, _, _] =>
      simp only [List.length_cons, List.length_nil] at hcurr
      omega

/-- A row of a tile, in the frames it is part of. -/
theorem compareRow_eq_sum (threshold : UInt8) {prev curr : List UInt8} {width tileX y tileWidth : ℕ}
    (hprev : (y * width + tileX + tileWidth) * 4 ≤ prev.length)
    (hcurr : (y * width + tileX + tileWidth) * 4 ≤ curr.length) :
    compareRow threshold prev curr (y * (width * 4) + tileX * 4) (tileWidth * 4) =
      ∑ i ∈ Finset.range tileWidth,
        if Differs threshold.toNat width prev curr (tileX + i, y) then 1 else 0 := by
  have hoffset : y * (width * 4) + tileX * 4 = (y * width + tileX) * 4 := by ring
  have hrow : ∀ data : List UInt8, (y * width + tileX + tileWidth) * 4 ≤ data.length →
      (tileRow data ((y * width + tileX) * 4) (tileWidth * 4)).length = 4 * tileWidth ∧
      ∀ i c, i < tileWidth → c < 3 →
        (tileRow data ((y * width + tileX) * 4) (tileWidth * 4)).getD (4 * (0 * 0 + i) + c) 0 =
          data.getD (4 * (y * width + (tileX + i)) + c) 0 := by
    intro data hdata
    constructor
    · rw [tileRow, List.length_take, List.length_drop]
      omega
    · intro i c hi hc
      have hat : (y * width + tileX) * 4 + (4 * (0 * 0 + i) + c) =
          4 * (y * width + (tileX + i)) + c := by omega
      rw [tileRow, List.getD_eq_getElem?_getD, List.getD_eq_getElem?_getD,
        List.getElem?_take_of_lt (by omega), List.getElem?_drop, hat]
  obtain ⟨hlen, hget⟩ := hrow prev hprev
  obtain ⟨hlen', hget'⟩ := hrow curr hcurr
  rw [hoffset, compareRow, if_neg (by omega),
    countDifferentPixels_eq_sum threshold tileWidth _ _ hlen hlen']
  refine Finset.sum_congr rfl ?_
  intro i hi
  rw [Finset.mem_range] at hi
  have hiff : Differs threshold.toNat 0 (tileRow prev ((y * width + tileX) * 4) (tileWidth * 4))
      (tileRow curr ((y * width + tileX) * 4) (tileWidth * 4)) (i, 0) ↔
        Differs threshold.toNat width prev curr (tileX + i, y) := by
    refine exists_congr fun c => and_congr_right fun hc => ?_
    dsimp only
    rw [hget i c hi hc, hget' i c hi hc]
  simp only [hiff]

/-- The count of a tile is the number of its pixels that differ. -/
theorem compareTile_eq_card (threshold : UInt8) {prev curr : List UInt8} {width height : ℕ}
    (hprev : prev.length = width * height * 4) (hcurr : curr.length = width * height * 4)
    {tileX tileY tileWidth tileHeight : ℕ} (hx : tileX + tileWidth ≤ width)
    (hy : tileY + tileHeight ≤ height) (hsize : tileWidth * tileHeight < 2 ^ 32) :
    compareTile threshold prev curr tileX tileY tileWidth tileHeight (width * 4) =
      (differing threshold.toNat width prev curr (Finset.Ico tileX (tileX + tileWidth) ×ˢ
        Finset.Ico tileY (tileY + tileHeight))).card := by
  have hcard : (differing threshold.toNat width prev curr (Finset.Ico tileX (tileX + tileWidth) ×ˢ
      Finset.Ico tileY (tileY + tileHeight))).card < 2 ^ 32 := by
    refine (Finset.card_filter_le _ _).trans_lt ?_
    rw [Finset.card_product, Nat.card_Ico, Nat.card_Ico, Nat.add_sub_cancel_left,
      Nat.add_sub_cancel_left]
    exact hsize
  have hsum : ((List.range tileHeight).map fun row => compareRow threshold prev curr
      ((tileY + row) * (width * 4) + tileX * 4) (tileWidth * 4)).sum =
        (differing threshold.toNat width prev curr (Finset.Ico tileX (tileX + tileWidth) ×ˢ
          Finset.Ico tileY (tileY + tileHeight))).card := by
    rw [differing, Finset.card_filter, Finset.sum_product_right, Finset.sum_Ico_eq_sum_range,
      Nat.add_sub_cancel_left]
    show ∑ row ∈ Finset.range tileHeight, _ = _
    refine Finset.sum_congr rfl ?_
    intro row hrow
    rw [Finset.mem_range] at hrow
    have hend : ((tileY + row) * width + tileX + tileWidth) * 4 ≤ width * height * 4 := by
      have hrows : (tileY + row + 1) * width ≤ height * width :=
        Nat.mul_le_mul_right width (by omega)
      rw [Nat.add_mul _ 1, Nat.one_mul] at hrows
      rw [Nat.mul_comm width height]
      omega
    rw [compareRow_eq_sum threshold (hend.trans hprev.ge) (hend.trans hcurr.ge),
      Finset.sum_Ico_eq_sum_range, Nat.add_sub_cancel_left]
  rw [compareTile, hsum, Nat.mod_eq_of_lt hcard]

/-! ### Regions that are kept -/

/-- The region lies in a frame of this size and has at least this many pixels. -/
structure DamageRegion.Kept (width height minArea : ℕ) (r : DamageRegion) : Prop where
  right : r.x + r.width ≤ width
  bottom : r.y + r.height ≤ height
  area : minArea ≤ r.area

section Kept

variable {width height minArea : ℕ} (hwidth : width < 2 ^ 32) (hheight : height < 2 ^ 32)
include hwidth hheight

/-- Inside a frame nothing is cut off by the arithmetic, so a union has the pixels of both. -/
theorem DamageRegion.Kept.union {r s : DamageRegion} (hr : r.Kept width height minArea)
    (hs : s.Kept width height minArea) : (r.union s).Kept width height minArea := by
  have hr1 := hr.right
  have hr2 := hr.bottom
  have hs1 := hs.right
  have hs2 := hs.bottom
  refine ⟨?_, ?_, hr.area.trans (Nat.mul_le_mul ?_ ?_)⟩ <;>
    simp only [DamageRegion.union, DamageRegion.right, DamageRegion.bottom, saturatingAdd] <;> omega

theorem absorb_kept (mergeDistance : ℕ) {current : DamageRegion} {regions : List DamageRegion}
    (hcurrent : current.Kept width height minArea)
    (hregions : ∀ r ∈ regions, r.Kept width height minArea) :
    (absorb mergeDistance current regions).1.Kept width height minArea ∧
      ∀ r ∈ (absorb mergeDistance current regions).2.1, r.Kept width height minArea := by
  have hunion : ∀ r s : DamageRegion, r.Kept width height minArea → s.Kept width height minArea →
      (r.union s).Kept width height minArea := fun r s hr hs => hr.union hwidth hheight hs
  obtain ⟨hmerged, hunused⟩ := absorb_eq mergeDistance current regions
  rw [hmerged, hunused]
  exact Merge.absorb_keeps hunion hcurrent hregions

theorem mergePass_kept (mergeDistance : ℕ) (regions : List DamageRegion)
    (hregions : ∀ r ∈ regions, r.Kept width height minArea) :
    ∀ r ∈ (mergePass mergeDistance regions).1, r.Kept width height minArea := by
  induction hn : regions.length using Nat.strong_induction_on generalizing regions with
  | _ n ih =>
    cases regions with
    | nil =>
      rw [mergePass]
      exact hregions
    | cons r regions =>
      obtain ⟨hmerged, hunused⟩ := absorb_kept hwidth hheight mergeDistance
        (hregions r (List.mem_cons_self ..)) fun s hs => hregions s (List.mem_cons_of_mem _ hs)
      have hlength := absorb_length mergeDistance r regions
      rw [List.length_cons] at hn
      rw [mergePass_cons]
      intro s hs
      rcases List.mem_cons.mp hs with rfl | hs
      · exact hmerged
      · exact ih _ (by omega) _ hunused rfl s hs

end Kept

theorem mergePass_ne_nil (mergeDistance : ℕ) {regions : List DamageRegion} (h : regions ≠ []) :
    (mergePass mergeDistance regions).1 ≠ [] := by
  cases regions with
  | nil => exact absurd rfl h
  | cons r regions =>
    rw [mergePass_cons]
    exact List.cons_ne_nil _ _

/-- Merging loses no damage altogether, and makes no region smaller. -/
theorem mergeRegions_kept {width height minArea : ℕ} (hwidth : width < 2 ^ 32)
    (hheight : height < 2 ^ 32) (mergeDistance : ℕ) {regions : List DamageRegion}
    (hne : regions ≠ []) (hregions : ∀ r ∈ regions, r.Kept width height minArea) :
    mergeRegions regions mergeDistance ≠ [] ∧
      ∀ r ∈ mergeRegions regions mergeDistance, r.Kept width height minArea := by
  rw [mergeRegions]
  split
  · exact ⟨hne, hregions⟩
  · rename_i hmany
    clear hmany
    fun_induction mergeLoop mergeDistance regions with
    | case1 regions hchanged ih =>
      exact ih (mergePass_ne_nil mergeDistance hne)
        (mergePass_kept hwidth hheight mergeDistance regions hregions)
    | case2 regions hchanged =>
      exact ⟨mergePass_ne_nil mergeDistance hne,
        mergePass_kept hwidth hheight mergeDistance regions hregions⟩

/-! ### Soundness -/

/-- Every tile of a frame of this size, those cut off at its edges included, is big enough to be
reported. -/
structure DamageConfig.Reports (config : DamageConfig) (width height : ℕ) : Prop where
  tile_pos : 0 < config.tileSize
  tile_lt : config.tileSize < 2 ^ 32
  area : ∀ tx ty, tx * config.tileSize < width → ty * config.tileSize < height →
    config.minRegionArea ≤
      min config.tileSize (width - tx * config.tileSize) *
        min config.tileSize (height - ty * config.tileSize)

theorem lt_divCeil {a b i : ℕ} (hb : 0 < b) : i < DamageDetector.divCeil a b ↔ i * b < a := by
  rw [DamageDetector.divCeil, ← Nat.succ_le_iff, Nat.le_div_iff_mul_le hb, Nat.succ_mul]
  omega

/-- The regions are those of the dirty tiles of the frame, as far as the size of a tile fits into 32
bits. -/
theorem mem_tilesToRegions_iff {dirty : ℕ → ℕ → Bool} {tileSize width height : ℕ}
    (hpos : 0 < tileSize) (hwidth : width < 2 ^ 32) (hheight : height < 2 ^ 32) {r : DamageRegion} :
    r ∈ tilesToRegions dirty (DamageDetector.divCeil width tileSize)
        (DamageDetector.divCeil height tileSize) tileSize width height ↔
      ∃ tx ty, tx * tileSize < width ∧ ty * tileSize < height ∧ dirty tx ty = true ∧
        0 < tileSize % 2 ^ 32 ∧
        r = ⟨tx * tileSize, ty * tileSize, min (tileSize % 2 ^ 32) (width - tx * tileSize),
          min (tileSize % 2 ^ 32) (height - ty * tileSize)⟩ := by
  rw [tilesToRegions]
  simp only [List.mem_flatMap, List.mem_filterMap, List.mem_range, lt_divCeil hpos]
  constructor
  · rintro ⟨ty, hty, tx, htx, h⟩
    have hx := Nat.mod_eq_of_lt (htx.trans hwidth)
    have hy := Nat.mod_eq_of_lt (hty.trans hheight)
    split at h
    · rename_i hdirty
      split at h
      · rename_i hsome
        rw [Option.some_inj] at h
        refine ⟨tx, ty, htx, hty, hdirty, by omega, ?_⟩
        rw [← h, hx, hy]
      · cases h
    · cases h
  · rintro ⟨tx, ty, htx, hty, hdirty, htile, rfl⟩
    refine ⟨ty, hty, tx, htx, ?_⟩
    have hx := Nat.mod_eq_of_lt (htx.trans hwidth)
    have hy := Nat.mod_eq_of_lt (hty.trans hheight)
    rw [if_pos hdirty, hx, hy, if_pos (by omega)]

namespace DamageDetector

/-- The grid is that of frames of this size. -/
def Gridded (d : DamageDetector) (width height : ℕ) : Prop :=
  d.tilesX = divCeil width d.config.tileSize ∧ d.tilesY = divCeil height d.config.tileSize

section Sound

variable {d : DamageDetector} {dirty : ℕ → ℕ → Bool} {width height : ℕ}
  (hconfig : d.config.Reports width height) (hgrid : d.Gridded width height)
  (hwidth : width < 2 ^ 32) (hheight : height < 2 ^ 32)
include hconfig hgrid hwidth hheight

/-- A region is reported exactly if it is that of a dirty tile. -/
theorem mem_tilesToRegions {r : DamageRegion} :
    r ∈ tilesToRegions dirty d.tilesX d.tilesY d.config.tileSize width height ↔
      ∃ tx ty, tx * d.config.tileSize < width ∧ ty * d.config.tileSize < height ∧
        dirty tx ty = true ∧
        r = ⟨tx * d.config.tileSize, ty * d.config.tileSize,
          min d.config.tileSize (width - tx * d.config.tileSize),
          min d.config.tileSize (height - ty * d.config.tileSize)⟩ := by
  have htile : d.config.tileSize % 2 ^ 32 = d.config.tileSize := Nat.mod_eq_of_lt hconfig.tile_lt
  rw [hgrid.1, hgrid.2, mem_tilesToRegions_iff hconfig.tile_pos hwidth hheight, htile]
  simp only [hconfig.tile_pos, true_and]

/-- Every region is big enough to be reported. -/
theorem tilesToRegions_kept :
    ∀ r ∈ tilesToRegions dirty d.tilesX d.tilesY d.config.tileSize width height,
      r.Kept width height d.config.minRegionArea := by
  intro r hr
  obtain ⟨tx, ty, htx, hty, -, rfl⟩ := (mem_tilesToRegions hconfig hgrid hwidth hheight).mp hr
  refine ⟨?_, ?_, hconfig.area tx ty htx hty⟩
  · show tx * d.config.tileSize + min _ (width - tx * d.config.tileSize) ≤ width
    omega
  · show ty * d.config.tileSize + min _ (height - ty * d.config.tileSize) ≤ height
    omega

/-- Dirty tiles of the frame are reported in some region. -/
theorem filter_mergeRegions_ne_nil {tx ty : ℕ} (htx : tx * d.config.tileSize < width)
    (hty : ty * d.config.tileSize < height) (hdirty : dirty tx ty = true) :
    ((mergeRegions
      (tilesToRegions dirty d.tilesX d.tilesY d.config.tileSize width height)
      d.config.mergeDistance).filter fun r => d.config.minRegionArea ≤ r.area) ≠ [] := by
  have hmem := (mem_tilesToRegions hconfig hgrid hwidth hheight).mpr
    ⟨tx, ty, htx, hty, hdirty, rfl⟩
  obtain ⟨hne, hall⟩ := mergeRegions_kept hwidth hheight d.config.mergeDistance
    (List.ne_nil_of_mem hmem) (tilesToRegions_kept hconfig hgrid hwidth hheight)
  obtain ⟨r, hr⟩ := List.exists_mem_of_ne_nil _ hne
  exact List.ne_nil_of_mem (List.mem_filter.mpr ⟨hr, decide_eq_true (hall r hr).area⟩)

/-- A tile of a frame without damage has no different pixels. -/
theorem compareTile_of_undamaged {prev curr : List UInt8}
    (hdiff : ∀ n, d.config.diffThreshold n = 0)
    (hnil : d.detectChanges prev curr width height = []) {tx ty : ℕ}
    (htx : tx * d.config.tileSize < width) (hty : ty * d.config.tileSize < height) :
    compareTile d.config.pixelThreshold prev curr (tx * d.config.tileSize) (ty * d.config.tileSize)
      (min d.config.tileSize (width - tx * d.config.tileSize))
      (min d.config.tileSize (height - ty * d.config.tileSize)) (width * 4) = 0 := by
  have hpos := hconfig.tile_pos
  by_contra hne
  refine filter_mergeRegions_ne_nil hconfig hgrid hwidth hheight htx hty ?_ hnil
  rw [tileDirty, if_neg (by omega), hdiff]
  exact decide_eq_true (Nat.pos_of_ne_zero hne)

/-- **Soundness.** With thresholds of zero and no tile too small to be reported, a frame without
damage shows the picture it was compared with. -/
theorem detectChanges_sound {prev curr : List UInt8} (hpixel : d.config.pixelThreshold = 0)
    (hdiff : ∀ n, d.config.diffThreshold n = 0) (harea : width * height < 2 ^ 32)
    (hprev : prev.length = width * height * 4) (hcurr : curr.length = width * height * 4)
    (hnil : d.detectChanges prev curr width height = []) : SamePicture prev curr := by
  have hpos := hconfig.tile_pos
  intro i c hc
  by_cases hi : i < width * height
  · have hw : 0 < width := Nat.pos_of_mul_pos_right (lt_of_le_of_lt (Nat.zero_le _) hi)
    -- the row and column of the pixel, its tile, and its place in there
    obtain ⟨x, y, hx, hy, rfl⟩ : ∃ x y, x < width ∧ y < height ∧ i = y * width + x :=
      ⟨i % width, i / width, Nat.mod_lt _ hw, Nat.div_lt_of_lt_mul hi,
        (Nat.div_add_mod' i width).symm⟩
    obtain ⟨tx, dx, hdx, rfl⟩ : ∃ tx dx, dx < d.config.tileSize ∧ x = tx * d.config.tileSize + dx :=
      ⟨_, _, Nat.mod_lt x hpos, (Nat.div_add_mod' x _).symm⟩
    obtain ⟨ty, dy, hdy, rfl⟩ : ∃ ty dy, dy < d.config.tileSize ∧ y = ty * d.config.tileSize + dy :=
      ⟨_, _, Nat.mod_lt y hpos, (Nat.div_add_mod' y _).symm⟩
    have htx : tx * d.config.tileSize < width := by omega
    have hty : ty * d.config.tileSize < height := by omega
    have htile := compareTile_of_undamaged hconfig hgrid hwidth hheight hdiff hnil htx hty
    have hsize : min d.config.tileSize (width - tx * d.config.tileSize) *
        min d.config.tileSize (height - ty * d.config.tileSize) < 2 ^ 32 :=
      lt_of_le_of_lt (Nat.mul_le_mul (by omega) (by omega)) harea
    rw [hpixel, compareTile_eq_card 0 hprev hcurr (by omega) (by omega) hsize,
      Finset.card_eq_zero, differing, Finset.filter_eq_empty_iff] at htile
    have hmem : (tx * d.config.tileSize + dx, ty * d.config.tileSize + dy) ∈
        Finset.Ico (tx * d.config.tileSize) (tx * d.config.tileSize +
            min d.config.tileSize (width - tx * d.config.tileSize)) ×ˢ
          Finset.Ico (ty * d.config.tileSize) (ty * d.config.tileSize +
            min d.config.tileSize (height - ty * d.config.tileSize)) := by
      rw [Finset.mem_product, Finset.mem_Ico, Finset.mem_Ico]
      dsimp only
      omega
    exact eq_of_channelDiff fun hlt => htile hmem ⟨c, hc, hlt⟩
  · rw [List.getD_eq_getElem?_getD, List.getD_eq_getElem?_getD, List.getElem?_eq_none (by omega),
      List.getElem?_eq_none (by omega)]

end Sound

/-! ### What a detection leaves behind -/

theorem reference_eq_some {d : DamageDetector} {width height : ℕ} {prev : List UInt8} :
    d.reference width height = some prev ↔
      d.invalidated = false ∧ d.previousDimensions = some (width, height) ∧
        d.previousFrame = some prev := by
  rw [reference]
  split
  · rename_i h
    constructor
    · intro hnone
      cases hnone
    · rintro ⟨hinvalidated, hdimensions, -⟩
      rw [hinvalidated] at h
      exact absurd hdimensions (h.resolve_left Bool.false_ne_true)
  · rename_i h
    rw [not_or, not_not, Bool.not_eq_true] at h
    exact ⟨fun hprev => ⟨h.1, h.2, hprev⟩, fun hall => hall.2.2⟩

theorem reference_invalidate (d : DamageDetector) (width height : ℕ) :
    d.invalidate.reference width height = none := if_pos (Or.inl rfl)

/-- After a detection the frame is what the next of its size is compared with. -/
theorem reference_detect {d next : DamageDetector} {frame : List UInt8} {width height : ℕ}
    {regions : List DamageRegion} (h : d.detect frame width height = some (regions, next)) :
    frame.length = width * height * 4 ∧ next.config = d.config ∧
      ∀ width' height' prev, next.reference width' height' = some prev →
        (width', height') = (width, height) ∧ prev = frame := by
  rw [detect] at h
  split at h
  · cases h
  · rename_i hlength
    refine ⟨not_not.mp hlength, ?_⟩
    split at h
    · split at h
      · cases h
      · cases h
        refine ⟨rfl, ?_⟩
        intro width' height' prev hprev
        obtain ⟨-, hdimensions, hframe⟩ := reference_eq_some.mp hprev
        exact ⟨(Option.some_inj.mp hdimensions).symm, (Option.some_inj.mp hframe).symm⟩
    · rename_i prev' href
      cases h
      refine ⟨rfl, ?_⟩
      intro width' height' prev hprev
      obtain ⟨-, hdimensions, hframe⟩ := reference_eq_some.mp hprev
      rw [(reference_eq_some.mp href).2.1] at hdimensions
      exact ⟨(Option.some_inj.mp hdimensions).symm, (Option.some_inj.mp hframe).symm⟩

/-- The report is the full frame, or what a comparison finds. -/
theorem detect_report {d next : DamageDetector} {frame : List UInt8} {width height : ℕ}
    {regions : List DamageRegion} (h : d.detect frame width height = some (regions, next)) :
    (d.reference width height = none ∧ regions = [.fullFrame width height] ∧
        next.Gridded width height) ∨
      ∃ prev, d.reference width height = some prev ∧
        regions = d.detectChanges prev frame width height ∧
        (d.Gridded width height → next.Gridded width height) := by
  rw [detect] at h
  split at h
  · cases h
  · split at h
    · rename_i href
      split at h
      · cases h
      · cases h
        exact Or.inl ⟨href, rfl, rfl, rfl⟩
    · rename_i prev href
      cases h
      exact Or.inr ⟨prev, href, rfl, id⟩

end DamageDetector

end Graphics

end Cheirizo
