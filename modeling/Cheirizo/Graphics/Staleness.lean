import Cheirizo.Graphics.Coverage

/-!
# How far a client falls behind the detector

A frame is compared with the frame before it, and not with the picture that a client has. A change
that stays below the thresholds is forgotten when the next frame arrives, so that small changes add
up. What a client is behind is bounded by the number of frames since a tile was last sent: with
every frame at most the threshold's number of pixels are added, each by at most the pixel threshold.

A dirty tile is sent unless the region it ended up in is left out for its size. Until it is sent
again nothing is known about such a tile.

## Main definitions

* `copyRegions` — what a client makes of the regions and the frame
* `Viewer` — a detector and a client that copies its regions, with the age of every tile

## Main results

* `clean_or_copied` — what a comparison leaves to be done
* `staleness_bounded` — the bound, after every sequence of frames
-/

namespace Cheirizo

namespace Graphics

/-! ### Pictures -/

/-- A picture of this size. -/
abbrev Picture (width height : ℕ) := { data : List UInt8 // data.length = width * height * 4 }

/-- The pixels of a tile, as far as they are in the frame. -/
def DamageConfig.tilePixels (config : DamageConfig) (width height tx ty : ℕ) : Finset (ℕ × ℕ) :=
  Finset.Ico (tx * config.tileSize)
      (tx * config.tileSize + min config.tileSize (width - tx * config.tileSize)) ×ˢ
    Finset.Ico (ty * config.tileSize)
      (ty * config.tileSize + min config.tileSize (height - ty * config.tileSize))

/-- The number of pixels of the tile that may differ. -/
def DamageConfig.tileThreshold (config : DamageConfig) (width height tx ty : ℕ) : ℕ :=
  config.diffThreshold (min config.tileSize (width - tx * config.tileSize) *
    min config.tileSize (height - ty * config.tileSize) % 2 ^ 32)

/-! ### The client -/

/-- Copy the pixels of the regions. -/
def copyRegions (width : ℕ) (regions : List DamageRegion) (frame image : List UInt8) : List UInt8 :=
  (List.range frame.length).map fun i =>
    if regions.any fun r => r.contains (i / 4 % width) (i / 4 / width) then frame.getD i 0
    else image.getD i 0

namespace DamageDetector

/-- The regions of a comparison, before the small ones are left out. -/
def mergedRegions (d : DamageDetector) (prev curr : List UInt8) (width height : ℕ) :
    List DamageRegion :=
  mergeRegions (tilesToRegions (d.tileDirty prev curr width height) d.tilesX d.tilesY
    d.config.tileSize width height) d.config.mergeDistance

/-- A region with a pixel of the tile is left out for its size. -/
def Discards (d : DamageDetector) (frame : List UInt8) (width height tx ty : ℕ) : Prop :=
  ∃ prev ∈ d.reference width height, ∃ r ∈ d.mergedRegions prev frame width height,
    r.area < d.config.minRegionArea ∧
      ∃ p ∈ d.config.tilePixels width height tx ty, r.contains p.1 p.2 = true

instance (d : DamageDetector) (frame : List UInt8) (width height tx ty : ℕ) :
    Decidable (d.Discards frame width height tx ty) :=
  inferInstanceAs (Decidable (∃ prev ∈ d.reference width height, _))

end DamageDetector

/-- Every one of the pixels is in a region. -/
def Copied (regions : List DamageRegion) (pixels : Finset (ℕ × ℕ)) : Prop :=
  ∀ p ∈ pixels, ∃ r ∈ regions, r.contains p.1 p.2 = true

instance (regions : List DamageRegion) (pixels : Finset (ℕ × ℕ)) :
    Decidable (Copied regions pixels) :=
  inferInstanceAs (Decidable (∀ p ∈ pixels, _))

/-- A detector and a client that copies its regions. The age of a tile is the number of frames since
it was copied; it has none after it was left out. -/
structure Viewer where
  detector : DamageDetector
  image : List UInt8
  age : ℕ → ℕ → Option ℕ

namespace Viewer

/-- Nothing was shown. -/
def new (config : DamageConfig) : Viewer := ⟨.new config, [], fun _ _ => none⟩

/-- Copy the regions of the frame. -/
def update {width height : ℕ} (v : Viewer) (frame : Picture width height)
    (regions : List DamageRegion) (next : DamageDetector) : Viewer where
  detector := next
  image := copyRegions width regions frame v.image
  age := fun tx ty =>
    if Copied regions (v.detector.config.tilePixels width height tx ty) then some 0
    else if v.detector.Discards frame width height tx ty then none
    else (v.age tx ty).map (· + 1)

/-- The next frame. -/
def view {width height : ℕ} (v : Viewer) (frame : Picture width height) : Option Viewer :=
  (v.detector.detect frame width height).map fun out => v.update frame out.1 out.2

/-- One frame after the other. -/
def viewAll {width height : ℕ} (config : DamageConfig) (frames : List (Picture width height)) :
    Option Viewer :=
  frames.foldlM view (new config)

end Viewer

/-! ### Comparison -/

theorem Differs.triangle {s t width : ℕ} {a b c : List UInt8} {p : ℕ × ℕ}
    (h : Differs (s + t) width a c p) : Differs s width a b p ∨ Differs t width b c p := by
  obtain ⟨i, hi, h⟩ := h
  by_cases hfirst : s < channelDiff (a.getD (4 * (p.2 * width + p.1) + i) 0)
      (b.getD (4 * (p.2 * width + p.1) + i) 0)
  · exact .inl ⟨i, hi, hfirst⟩
  · refine .inr ⟨i, hi, ?_⟩
    rw [channelDiff] at h hfirst ⊢
    omega

theorem not_differs_self {t width : ℕ} {a b : List UInt8} {p : ℕ × ℕ}
    (h : ∀ c < 3, a.getD (4 * (p.2 * width + p.1) + c) 0 = b.getD (4 * (p.2 * width + p.1) + c) 0) :
    ¬ Differs t width a b p := by
  rintro ⟨c, hc, hlt⟩
  rw [h c hc, channelDiff] at hlt
  omega

/-! ### One frame -/

theorem mem_tilePixels {config : DamageConfig} {width height tx ty : ℕ} {p : ℕ × ℕ} :
    p ∈ config.tilePixels width height tx ty ↔
      (tx * config.tileSize ≤ p.1 ∧
        p.1 < tx * config.tileSize + min config.tileSize (width - tx * config.tileSize)) ∧
      ty * config.tileSize ≤ p.2 ∧
        p.2 < ty * config.tileSize + min config.tileSize (height - ty * config.tileSize) := by
  rw [DamageConfig.tilePixels, Finset.mem_product, Finset.mem_Ico, Finset.mem_Ico]

section Frame

variable {d : DamageDetector} {prev curr : List UInt8} {width height tx ty : ℕ}
  (hpos : 0 < d.config.tileSize) (hlt : d.config.tileSize < 2 ^ 32)
  (hgrid : d.Gridded width height) (hwidth : width < 2 ^ 32) (hheight : height < 2 ^ 32)
  (href : d.reference width height = some prev)
include hpos hlt hgrid hwidth hheight href

/-- A dirty tile is copied, unless it is left out for its size. -/
theorem copied_of_dirty (hdirty : d.tileDirty prev curr width height tx ty = true)
    (hkept : ¬ d.Discards curr width height tx ty) :
    Copied (d.detectChanges prev curr width height) (d.config.tilePixels width height tx ty) := by
  intro p hp
  have hp' := mem_tilePixels.mp hp
  have htile := Nat.mod_eq_of_lt hlt
  have hall : ∀ r ∈ tilesToRegions (d.tileDirty prev curr width height) d.tilesX d.tilesY
      d.config.tileSize width height, r.Kept width height 0 := by
    intro r hr
    rw [hgrid.1, hgrid.2] at hr
    obtain ⟨sx, sy, hsx, hsy, -, -, rfl⟩ := (mem_tilesToRegions_iff hpos hwidth hheight).mp hr
    refine ⟨?_, ?_, Nat.zero_le _⟩
    · show sx * d.config.tileSize + min _ (width - sx * d.config.tileSize) ≤ width
      omega
    · show sy * d.config.tileSize + min _ (height - sy * d.config.tileSize) ≤ height
      omega
  have hmem : (⟨tx * d.config.tileSize, ty * d.config.tileSize,
      min (d.config.tileSize % 2 ^ 32) (width - tx * d.config.tileSize),
      min (d.config.tileSize % 2 ^ 32) (height - ty * d.config.tileSize)⟩ : DamageRegion) ∈
        tilesToRegions (d.tileDirty prev curr width height) d.tilesX d.tilesY d.config.tileSize
          width height := by
    rw [hgrid.1, hgrid.2]
    exact (mem_tilesToRegions_iff hpos hwidth hheight).mpr
      ⟨tx, ty, by omega, by omega, hdirty, by omega, rfl⟩
  have hin : DamageRegion.contains ⟨tx * d.config.tileSize, ty * d.config.tileSize,
      min (d.config.tileSize % 2 ^ 32) (width - tx * d.config.tileSize),
      min (d.config.tileSize % 2 ^ 32) (height - ty * d.config.tileSize)⟩ p.1 p.2 = true := by
    rw [(hall _ hmem).contains_iff hwidth hheight, htile]
    dsimp only
    omega
  obtain ⟨r, hr, hrin⟩ :=
    mergeRegions_covers hwidth hheight d.config.mergeDistance hall ⟨_, hmem, hin⟩
  refine ⟨r, List.mem_filter.mpr ⟨hr, decide_eq_true ?_⟩, hrin⟩
  by_contra harea
  exact hkept ⟨prev, href, r, hr, not_le.mp harea, p, hp, hrin⟩

/-- What a comparison leaves to be done: a tile that is neither copied nor left out has no more
different pixels than the threshold. -/
theorem clean_of_not_copied (hprev : prev.length = width * height * 4)
    (hcurr : curr.length = width * height * 4) (htx : tx * d.config.tileSize < width)
    (hty : ty * d.config.tileSize < height)
    (hsize : (d.config.tilePixels width height tx ty).card < 2 ^ 32)
    (hcopied : ¬ Copied (d.detectChanges prev curr width height)
      (d.config.tilePixels width height tx ty))
    (hkept : ¬ d.Discards curr width height tx ty) :
    (differing d.config.pixelThreshold.toNat width prev curr
      (d.config.tilePixels width height tx ty)).card ≤
        d.config.tileThreshold width height tx ty := by
  rw [DamageConfig.tilePixels, Finset.card_product, Nat.card_Ico, Nat.card_Ico,
    Nat.add_sub_cancel_left, Nat.add_sub_cancel_left] at hsize
  have hclean : ¬ d.tileDirty prev curr width height tx ty = true := by
    intro hdirty
    exact hcopied (copied_of_dirty hpos hlt hgrid hwidth hheight href hdirty hkept)
  rw [DamageDetector.tileDirty, if_neg (by omega), decide_eq_true_eq,
    compareTile_eq_card d.config.pixelThreshold hprev hcurr (by omega) (by omega) hsize] at hclean
  exact not_lt.mp hclean

end Frame

/-- If every tile is big enough to be reported, none is left out. -/
theorem not_discards_of_reports {d : DamageDetector} {curr : List UInt8} {width height : ℕ}
    (hconfig : d.config.Reports width height) (hgrid : d.Gridded width height)
    (hwidth : width < 2 ^ 32) (hheight : height < 2 ^ 32) (tx ty : ℕ) :
    ¬ d.Discards curr width height tx ty := by
  rintro ⟨prev, -, r, hr, hsmall, -⟩
  have hkept := mergeRegions_all_kept hwidth hheight d.config.mergeDistance
    (DamageDetector.tilesToRegions_kept hconfig hgrid hwidth hheight) r hr
  exact not_le.mpr hsmall hkept.area

/-! ### Copying -/

/-- A pixel of the copy is that of the frame, or outside of the regions that of the image. -/
theorem getD_copyRegions {width height : ℕ} (regions : List DamageRegion) (image : List UInt8)
    (frame : Picture width height) {x y c : ℕ} (hx : x < width) (hy : y < height) (hc : c < 3) :
    (copyRegions width regions frame image).getD (4 * (y * width + x) + c) 0 =
      if ∃ r ∈ regions, r.contains x y = true then frame.1.getD (4 * (y * width + x) + c) 0
      else image.getD (4 * (y * width + x) + c) 0 := by
  have hpixel : (4 * (y * width + x) + c) / 4 = y * width + x := by omega
  have hrow : (y + 1) * width ≤ height * width := Nat.mul_le_mul_right width hy
  have hlen : 4 * (y * width + x) + c < frame.1.length := by
    rw [frame.2, Nat.mul_comm width height]
    rw [Nat.add_mul, Nat.one_mul] at hrow
    omega
  have hcolumn : (y * width + x) % width = x := Nat.mul_add_mod_of_lt hx
  have hline : (y * width + x) / width = y := by
    rw [Nat.mul_comm, Nat.mul_add_div (by omega), Nat.div_eq_of_lt hx, Nat.add_zero]
  rw [copyRegions, List.getD_eq_getElem?_getD, List.getElem?_map, List.getElem?_range hlen]
  simp only [Option.map_some, Option.getD_some, hpixel, hcolumn, hline, List.any_eq_true]

/-- What still differs after the regions were copied differed before, and is in none of them. -/
theorem differs_copyRegions {width height t : ℕ} {regions : List DamageRegion} {image : List UInt8}
    {frame : Picture width height} {p : ℕ × ℕ} (hx : p.1 < width) (hy : p.2 < height)
    (h : Differs t width (copyRegions width regions frame image) frame p) :
    (¬ ∃ r ∈ regions, r.contains p.1 p.2 = true) ∧ Differs t width image frame p := by
  by_cases hin : ∃ r ∈ regions, r.contains p.1 p.2 = true
  · refine absurd h (not_differs_self ?_)
    intro c hc
    rw [getD_copyRegions regions image frame hx hy hc, if_pos hin]
  · obtain ⟨c, hc, h⟩ := h
    rw [getD_copyRegions regions image frame hx hy hc, if_neg hin] at h
    exact ⟨hin, c, hc, h⟩

/-! ### Runs -/

namespace Viewer

/-- The client is no further behind the frame than the ages of the tiles allow. -/
structure Tracks {width height : ℕ} (config : DamageConfig) (frame : Picture width height)
    (count : ℕ) (v : Viewer) : Prop where
  same_config : v.detector.config = config
  grid : v.detector.Gridded width height
  reference : v.detector.reference width height = some frame.1
  bound : ∀ tx ty n, tx * config.tileSize < width → ty * config.tileSize < height →
    (config.tilePixels width height tx ty).card < 2 ^ 32 → v.age tx ty = some n →
    (differing (n * config.pixelThreshold.toNat) width v.image frame
      (config.tilePixels width height tx ty)).card ≤ n * config.tileThreshold width height tx ty
  aged : config.Reports width height → ∀ tx ty, tx * config.tileSize < width →
    ty * config.tileSize < height → ∃ n ≤ count, v.age tx ty = some n

variable {width height : ℕ} {config : DamageConfig}

/-- A tile that was copied does not differ. -/
theorem differing_of_copied {regions : List DamageRegion} {image : List UInt8}
    {frame : Picture width height} {tx ty t : ℕ}
    (h : Copied regions (config.tilePixels width height tx ty)) :
    differing t width (copyRegions width regions frame image) frame
      (config.tilePixels width height tx ty) = ∅ := by
  rw [differing, Finset.filter_eq_empty_iff]
  intro p hp hdiffers
  have hp' := mem_tilePixels.mp hp
  exact (differs_copyRegions (by omega) (by omega) hdiffers).1 (h p hp)

/-- What differs after a frame that was not copied differed before, or changed with the frame. -/
theorem differing_succ_subset {prev : List UInt8} {frame : Picture width height}
    {image : List UInt8} {tx ty pixelThreshold : ℕ} (m : ℕ) (regions : List DamageRegion) :
    differing ((m + 1) * pixelThreshold) width (copyRegions width regions frame image) frame
        (config.tilePixels width height tx ty) ⊆
      differing (m * pixelThreshold) width image prev (config.tilePixels width height tx ty) ∪
        differing pixelThreshold width prev frame (config.tilePixels width height tx ty) := by
  intro p hp
  obtain ⟨hp, hdiffers⟩ := Finset.mem_filter.mp hp
  have hp' := mem_tilePixels.mp hp
  have hbefore := (differs_copyRegions (by omega) (by omega) hdiffers).2
  rw [Nat.succ_mul] at hbefore
  rw [Finset.mem_union]
  exact hbefore.triangle.imp (fun h => Finset.mem_filter.mpr ⟨hp, h⟩)
    fun h => Finset.mem_filter.mpr ⟨hp, h⟩

section

variable (hpos : 0 < config.tileSize) (hlt : config.tileSize < 2 ^ 32) (hwidth : width < 2 ^ 32)
  (hheight : height < 2 ^ 32)
include hpos hlt hwidth hheight

omit hlt in
/-- The first frame is copied as a whole. -/
theorem view_first (frame : Picture width height) :
    ∃ v, (new config).view frame = some v ∧ v.Tracks config frame 0 := by
  have hcopied : ∀ tx ty, Copied [.fullFrame width height]
      (config.tilePixels width height tx ty) := by
    intro tx ty p hp
    have hp' := mem_tilePixels.mp hp
    exact ⟨_, List.mem_singleton_self _,
      DamageRegion.contains_fullFrame hwidth hheight (by omega) (by omega)⟩
  have hdetect : (DamageDetector.new config).detect frame width height =
      some ([.fullFrame width height], {
        config := config
        previousFrame := some frame.1
        previousDimensions := some (width, height)
        tilesX := DamageDetector.divCeil width config.tileSize
        tilesY := DamageDetector.divCeil height config.tileSize
        invalidated := false }) := by
    rw [DamageDetector.detect, if_neg (not_not.mpr frame.2)]
    show (if config.tileSize = 0 then none else _) = _
    rw [if_neg hpos.ne']
    rfl
  have hage : ∀ tx ty, (if Copied [.fullFrame width height]
      (config.tilePixels width height tx ty) then some 0
      else if (DamageDetector.new config).Discards frame width height tx ty then none
      else none) = some 0 := fun tx ty => if_pos (hcopied tx ty)
  refine ⟨_, (congrArg _ hdetect).trans rfl, rfl, ⟨rfl, rfl⟩, ?_, ?_, ?_⟩
  · exact DamageDetector.reference_eq_some.mpr ⟨rfl, rfl, rfl⟩
  · intro tx ty n _ _ _ _
    show (differing _ width (copyRegions width _ frame []) frame _).card ≤ _
    rw [differing_of_copied (hcopied tx ty), Finset.card_empty]
    exact Nat.zero_le _
  · intro _ tx ty _ _
    exact ⟨0, le_refl _, hage tx ty⟩

/-- The next frame adds at most the threshold of each tile. -/
theorem Tracks.view {v : Viewer} {prev : Picture width height} {count : ℕ}
    (h : v.Tracks config prev count) (frame : Picture width height) :
    ∃ v', v.view frame = some v' ∧ v'.Tracks config frame (count + 1) := by
  obtain ⟨rfl, hgrid, href, hbound, haged⟩ := h
  have hdetect : v.detector.detect frame width height =
      some (v.detector.detectChanges prev frame width height,
        { v.detector with previousFrame := some frame.1 }) := by
    rw [DamageDetector.detect, if_neg (not_not.mpr frame.2), href]
  obtain ⟨hinvalidated, hdimensions, -⟩ := DamageDetector.reference_eq_some.mp href
  refine ⟨_, (congrArg _ hdetect).trans rfl, rfl, hgrid, ?_, ?_, ?_⟩
  · exact DamageDetector.reference_eq_some.mpr ⟨hinvalidated, hdimensions, rfl⟩
  · intro tx ty n htx hty hsize hage
    dsimp only [update] at hage ⊢
    split at hage
    · rename_i hcopied
      rw [differing_of_copied hcopied, Finset.card_empty]
      exact Nat.zero_le _
    · rename_i hcopied
      split at hage
      · cases hage
      · rename_i hkept
        obtain ⟨m, hm, rfl⟩ := Option.map_eq_some_iff.mp hage
        have hclean := clean_of_not_copied hpos hlt hgrid hwidth hheight href prev.2 frame.2 htx hty
          hsize hcopied hkept
        have hbefore := hbound tx ty m htx hty hsize hm
        calc _ ≤ _ := Finset.card_le_card (differing_succ_subset m _)
          _ ≤ _ := Finset.card_union_le _ _
          _ ≤ _ := Nat.add_le_add hbefore hclean
          _ = _ := (Nat.succ_mul m _).symm
  · intro hreports tx ty htx hty
    obtain ⟨n, hn, hage⟩ := haged hreports tx ty htx hty
    have hkept : ¬ v.detector.Discards frame width height tx ty :=
      not_discards_of_reports hreports hgrid hwidth hheight tx ty
    dsimp only [update]
    by_cases hcopied : Copied (v.detector.detectChanges prev frame width height)
        (v.detector.config.tilePixels width height tx ty)
    · exact ⟨0, Nat.zero_le _, if_pos hcopied⟩
    · refine ⟨n + 1, Nat.succ_le_succ hn, ?_⟩
      rw [if_neg hcopied, if_neg hkept, hage]
      rfl

/-- A step for every frame. -/
theorem Tracks.foldlM {v : Viewer} {prev : Picture width height} {count : ℕ}
    (h : v.Tracks config prev count) (frames : List (Picture width height)) :
    ∃ v', frames.foldlM Viewer.view v = some v' ∧
      v'.Tracks config ((prev :: frames).getLast (List.cons_ne_nil _ _))
        (count + frames.length) := by
  induction frames generalizing v prev count with
  | nil => exact ⟨v, rfl, h⟩
  | cons frame frames ih =>
    obtain ⟨next, hview, hnext⟩ := h.view hpos hlt hwidth hheight frame
    obtain ⟨last, hrun, hlast⟩ := ih hnext
    refine ⟨last, ?_, ?_⟩
    · rw [List.foldlM_cons, hview]
      exact hrun
    · rw [List.getLast_cons (List.cons_ne_nil _ _), List.length_cons, Nat.add_comm frames.length 1,
        ← Nat.add_assoc]
      exact hlast

end

/-- **Bounded staleness.** After every sequence of frames, a tile that was copied `n` frames ago and
not left out for its size since then has at most `n` times its threshold of pixels that differ from
the latest frame by more than `n` times the pixel threshold. If every tile is big enough to be
reported, every tile has such an age. -/
theorem staleness_bounded (hpos : 0 < config.tileSize) (hlt : config.tileSize < 2 ^ 32)
    (hwidth : width < 2 ^ 32) (hheight : height < 2 ^ 32) (first : Picture width height)
    (frames : List (Picture width height)) :
    ∃ v, viewAll config (first :: frames) = some v ∧
      ∀ tx ty, tx * config.tileSize < width → ty * config.tileSize < height →
        (∀ n, (config.tilePixels width height tx ty).card < 2 ^ 32 → v.age tx ty = some n →
          (differing (n * config.pixelThreshold.toNat) width v.image
            ((first :: frames).getLast (List.cons_ne_nil _ _)).1
            (config.tilePixels width height tx ty)).card ≤
              n * config.tileThreshold width height tx ty) ∧
        (config.Reports width height → ∃ n ≤ frames.length, v.age tx ty = some n) := by
  obtain ⟨start, hview, hstart⟩ := view_first hpos hwidth hheight first
  obtain ⟨v, hrun, hv⟩ := hstart.foldlM hpos hlt hwidth hheight frames
  refine ⟨v, ?_, ?_⟩
  · rw [viewAll, List.foldlM_cons, hview]
    exact hrun
  · intro tx ty htx hty
    refine ⟨fun n hsize hage => hv.bound tx ty n htx hty hsize hage, ?_⟩
    intro hreports
    rw [← Nat.zero_add frames.length]
    exact hv.aged hreports tx ty htx hty

/-- A picture of one pixel. -/
def grey (level : UInt8) : Picture 1 1 := ⟨[level, level, level, 0], rfl⟩

/-- One pixel is a tile, and it may change by one. -/
def singleConfig : DamageConfig := ⟨1, fun _ => 0, 1, 0, 1⟩

/-- A pixel that becomes lighter by one and again by one is two frames old. -/
theorem staleness_of_drift : 0 < singleConfig.tileSize ∧ singleConfig.tileSize < 2 ^ 32 ∧
    ∃ v, viewAll singleConfig [grey 0, grey 1, grey 2] = some v ∧ v.age 0 0 = some 2 ∧
      (differing 2 1 v.image (grey 2).1 (singleConfig.tilePixels 1 1 0 0)).card = 0 := by
  have hpos : 0 < singleConfig.tileSize := by decide
  have hlt : singleConfig.tileSize < 2 ^ 32 := by decide
  have hage : (viewAll singleConfig [grey 0, grey 1, grey 2]).map (fun v => v.age 0 0) =
      some (some 2) := by decide
  obtain ⟨v, hv, hbound⟩ := staleness_bounded hpos hlt (by decide) (by decide) (grey 0)
    [grey 1, grey 2]
  rw [hv] at hage
  have hage := Option.some_inj.mp hage
  have hcard := (hbound 0 0 (by decide) (by decide)).1 2 (by decide) hage
  exact ⟨hpos, hlt, v, hv, hage, Nat.le_zero.mp hcard⟩

/-- No tile has more pixels than its threshold that differ from the latest frame by more than the
pixel threshold. -/
def Fresh (config : DamageConfig) (first : Picture width height)
    (frames : List (Picture width height)) : Prop :=
  ∃ v ∈ viewAll config (first :: frames), ∀ tx ty, tx * config.tileSize < width →
    ty * config.tileSize < height →
    (differing config.pixelThreshold.toNat width v.image
      ((first :: frames).getLast (List.cons_ne_nil _ _)).1
      (config.tilePixels width height tx ty)).card ≤ config.tileThreshold width height tx ty

/-- Two changes that are each too small to be reported make one that is not. -/
theorem not_fresh_of_drift : ¬ Fresh singleConfig (grey 0) [grey 1, grey 2] := by
  have hlate : (viewAll singleConfig [grey 0, grey 1, grey 2]).map (fun v =>
      (differing 1 1 v.image (grey 2).1 (singleConfig.tilePixels 1 1 0 0)).card) = some 1 := by
    decide
  rintro ⟨v, hv, hfresh⟩
  rw [Option.mem_def.mp hv] at hlate
  have hle := hfresh 0 0 (by decide) (by decide)
  exact absurd ((Option.some_inj.mp hlate).ge.trans hle) (by decide)

end Viewer

end Graphics

end Cheirizo
