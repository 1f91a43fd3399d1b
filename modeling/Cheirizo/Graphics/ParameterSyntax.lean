import Cheirizo.Graphics.ParameterBuffers

/-!
# Parameter sets as a decoder reads them

The parameter sets that the VA-API encoder writes are meant to say what its buffers say to the
driver. A decoder knows only the stream. `readSps` and `readPps` follow the syntax tables of H.264,
for streams without interlacing, scaling matrices and slice groups, and `Sps.Matches` and
`Pps.Matches` compare what they return with the buffers.

`egfx/h264/level.rs` has the limits of the levels. The encoder picks the level from the size alone,
with limits of its own.

## Main definitions

* `readSps`, `readPps` — the syntax
* `Sps.Matches`, `Pps.Matches` — parameter sets and buffers say the same
* `H264Level.limits`, `Admits` — what a level allows

## Main results

* `readSps_spsElements`, `readPps_ppsElements` — what a decoder reads
* `buildParameterSets_decode` — the picture that a decoder shows has the size of the encoder's
* `matches_iff` — when the parameter sets say what the buffers say
* `admits_getH264Level_iff` — when the level allows the pictures
-/

namespace Cheirizo

namespace Graphics

open AnnexB Bits NalUnit

/-! ### Reading parameter sets -/

/-- How colours are stored. Only some profiles say so. -/
structure ChromaFormat where
  chromaFormatIdc : ℕ
  bitDepthLumaMinus8 : ℕ
  bitDepthChromaMinus8 : ℕ
  deriving DecidableEq, Repr

/-- The offsets of the cropping rectangle. -/
structure FrameCrop where
  left : ℕ
  right : ℕ
  top : ℕ
  bottom : ℕ
  deriving DecidableEq, Repr

/-- How long a frame lasts. -/
structure Timing where
  numUnitsInTick : ℕ
  timeScale : ℕ
  fixedFrameRate : Bool
  deriving DecidableEq, Repr

/-- A sequence parameter set of progressive pictures. -/
structure Sps where
  profileIdc : ℕ
  levelIdc : ℕ
  seqParameterSetId : ℕ
  chroma : ChromaFormat
  log2MaxFrameNumMinus4 : ℕ
  log2MaxPicOrderCntLsbMinus4 : ℕ
  maxNumRefFrames : ℕ
  picWidthInMbs : ℕ
  picHeightInMbs : ℕ
  direct8x8Inference : Bool
  crop : Option FrameCrop
  timing : Option Timing
  deriving DecidableEq, Repr

/-- A picture parameter set. -/
structure Pps where
  picParameterSetId : ℕ
  seqParameterSetId : ℕ
  entropyCodingMode : Bool
  bottomFieldPicOrder : Bool
  numRefIdxL0Minus1 : ℕ
  numRefIdxL1Minus1 : ℕ
  weightedPred : Bool
  weightedBipredIdc : ℕ
  picInitQp : ℤ
  chromaQpIndexOffset : ℤ
  deblockingFilterControlPresent : Bool
  constrainedIntraPred : Bool
  redundantPicCntPresent : Bool
  transform8x8Mode : Bool
  secondChromaQpIndexOffset : ℤ
  deriving DecidableEq, Repr

/-- Streams in which this is not so are not read. -/
def expect (b : Bool) : Reader Unit := fun bits =>
  if b then some ((), bits) else none

/-- The profiles whose parameter sets have the fields of the chroma format. -/
def highProfiles : List ℕ :=
  [100, 110, 122, 244, 44, 83, 86, 118, 128, 138, 139, 134, 135]

/-- Without its fields the chroma format is 4:2:0 with eight bits. -/
def readChroma (profileIdc : ℕ) : Reader ChromaFormat :=
  if profileIdc ∈ highProfiles then do
    let chromaFormatIdc ← readGolomb
    expect (chromaFormatIdc ≠ 3)
    let bitDepthLumaMinus8 ← readGolomb
    let bitDepthChromaMinus8 ← readGolomb
    let _qpprime ← readBit
    let scalingMatrix ← readBit
    expect (!scalingMatrix)
    pure ⟨chromaFormatIdc, bitDepthLumaMinus8, bitDepthChromaMinus8⟩
  else pure ⟨1, 0, 0⟩

/-- What is cut off, if anything is. -/
def readCropOffsets (cropping : Bool) : Reader (Option FrameCrop) :=
  if cropping then do
    let left ← readGolomb
    let right ← readGolomb
    let top ← readGolomb
    let bottom ← readGolomb
    pure (some ⟨left, right, top, bottom⟩)
  else pure none

/-- The timing, if it is given. -/
def readTiming (present : Bool) : Reader (Option Timing) :=
  if present then do
    let numUnitsInTick ← readFixed 32
    let timeScale ← readFixed 32
    let fixedFrameRate ← readBit
    pure (some ⟨numUnitsInTick, timeScale, fixedFrameRate⟩)
  else pure none

/-- Usability information that has at most the timing. -/
def readVui (present : Bool) : Reader (Option Timing) :=
  if present then do
    let aspectRatio ← readBit
    let overscan ← readBit
    let videoSignal ← readBit
    let chromaLoc ← readBit
    expect (!aspectRatio && !overscan && !videoSignal && !chromaLoc)
    let timingPresent ← readBit
    let timing ← readTiming timingPresent
    let nalHrd ← readBit
    let vclHrd ← readBit
    expect (!nalHrd && !vclHrd)
    let _picStruct ← readBit
    let bitstreamRestriction ← readBit
    expect (!bitstreamRestriction)
    pure timing
  else pure none

/-- A sequence parameter set, as far as this encoder writes any. Others are not read. -/
def readSps : Reader Sps := do
  let profileIdc ← readFixed 8
  let _constraints ← readFixed 8
  let levelIdc ← readFixed 8
  let seqParameterSetId ← readGolomb
  let chroma ← readChroma profileIdc
  let log2MaxFrameNumMinus4 ← readGolomb
  let picOrderCntType ← readGolomb
  expect (picOrderCntType = 0)
  let log2MaxPicOrderCntLsbMinus4 ← readGolomb
  let maxNumRefFrames ← readGolomb
  let _gaps ← readBit
  let picWidthInMbsMinus1 ← readGolomb
  let picHeightInMbsMinus1 ← readGolomb
  let frameMbsOnly ← readBit
  expect frameMbsOnly
  let direct8x8Inference ← readBit
  let cropping ← readBit
  let crop ← readCropOffsets cropping
  let vui ← readBit
  let timing ← readVui vui
  pure ⟨profileIdc, levelIdc, seqParameterSetId, chroma, log2MaxFrameNumMinus4,
    log2MaxPicOrderCntLsbMinus4, maxNumRefFrames, picWidthInMbsMinus1 + 1,
    picHeightInMbsMinus1 + 1, direct8x8Inference, crop, timing⟩

/-- Whether fields follow is seen from what is left. -/
def readMore : Reader Bool := fun bits =>
  some (moreData bits, bits)

/-- Without their fields there is no transform of that size, and both offsets are the same. -/
def readTransform (more : Bool) (chromaQpIndexOffset : ℤ) : Reader (Bool × ℤ) :=
  if more then do
    let transform8x8Mode ← readBit
    let scalingMatrix ← readBit
    expect (!scalingMatrix)
    let secondChromaQpIndexOffset ← readSigned
    pure (transform8x8Mode, secondChromaQpIndexOffset)
  else pure (false, chromaQpIndexOffset)

/-- A picture parameter set, as far as this encoder writes any. Others are not read. -/
def readPps : Reader Pps := do
  let picParameterSetId ← readGolomb
  let seqParameterSetId ← readGolomb
  let entropyCodingMode ← readBit
  let bottomFieldPicOrder ← readBit
  let numSliceGroupsMinus1 ← readGolomb
  expect (numSliceGroupsMinus1 = 0)
  let numRefIdxL0Minus1 ← readGolomb
  let numRefIdxL1Minus1 ← readGolomb
  let weightedPred ← readBit
  let weightedBipredIdc ← readFixed 2
  let picInitQpMinus26 ← readSigned
  let _picInitQsMinus26 ← readSigned
  let chromaQpIndexOffset ← readSigned
  let deblockingFilterControlPresent ← readBit
  let constrainedIntraPred ← readBit
  let redundantPicCntPresent ← readBit
  let more ← readMore
  let transform ← readTransform more chromaQpIndexOffset
  pure ⟨picParameterSetId, seqParameterSetId, entropyCodingMode, bottomFieldPicOrder,
    numRefIdxL0Minus1, numRefIdxL1Minus1, weightedPred, weightedBipredIdc, picInitQpMinus26 + 26,
    chromaQpIndexOffset, deblockingFilterControlPresent, constrainedIntraPred,
    redundantPicCntPresent, transform.1, transform.2⟩

namespace Sps

/-- The width of the picture that is shown. -/
def croppedWidth (s : Sps) : ℤ :=
  16 * s.picWidthInMbs - match s.crop with
    | none => 0
    | some crop => 2 * (crop.left + crop.right)

/-- The height that is shown. -/
def croppedHeight (s : Sps) : ℤ :=
  16 * s.picHeightInMbs - match s.crop with
    | none => 0
    | some crop => 2 * (crop.top + crop.bottom)

end Sps

/-! ### What a decoder reads -/

/-- A number that fits its width is read as it was written. -/
theorem readFixed_code {n : ℕ} {v : UInt32} (h : v.toNat < 2 ^ n) (rest : List Bool) :
    readFixed n ((Element.bits n v).code ++ rest) = some (v.toNat, rest) :=
  readFixed_fixed h rest

/-- An Exp-Golomb number is read as it was written. -/
theorem readGolomb_code (v : UInt32) (rest : List Bool) :
    readGolomb ((Element.ue v).code ++ rest) = some (v.toNat, rest) :=
  readGolomb_golomb (Nat.add_one_pos _) rest

/-- So is a signed one. -/
theorem readSigned_code (v : Int32) (rest : List Bool) :
    readSigned ((Element.se v).code ++ rest) = some (v.toInt, rest) :=
  readSigned_golomb v.toInt rest

theorem readBit_code (b : Bool) (rest : List Bool) :
    readBit ((Element.flag b).code ++ rest) = some (b, rest) := rfl

theorem expect_true {b : Bool} (h : b = true) (bits : List Bool) :
    expect b bits = some ((), bits) :=
  if_pos h

namespace VaapiConfig

variable (c : VaapiConfig)

/-- The width in macroblocks is rounded up. -/
theorem toNat_mbWidth : c.mbWidth.toNat = (c.width.toNat + 15) / 16 :=
  toNat_divCeil c.width

/-- So is the height. -/
theorem toNat_mbHeight : c.mbHeight.toNat = (c.height.toNat + 15) / 16 :=
  toNat_divCeil c.height

/-- The cropping rectangle in the sequence parameter set. -/
def frameCrop : Option FrameCrop :=
  if c.cropRight ≠ 0 ∨ c.cropBottom ≠ 0 then
    some ⟨0, (c.cropRight / 2).toNat, 0, (c.cropBottom / 2).toNat⟩
  else none

/-- The sequence parameter set that a decoder reads. -/
def sps : Sps where
  profileIdc := c.profileIdc.toNat
  levelIdc := c.getH264Level.toNat
  seqParameterSetId := 0
  chroma := ⟨1, 0, 0⟩
  log2MaxFrameNumMinus4 := 4
  log2MaxPicOrderCntLsbMinus4 := 4
  maxNumRefFrames := 1
  picWidthInMbs := (c.mbWidth - 1).toNat + 1
  picHeightInMbs := (c.mbHeight - 1).toNat + 1
  direct8x8Inference := true
  crop := c.frameCrop
  timing := some ⟨1, 30, false⟩

/-- The picture parameter set that a decoder reads. -/
def pps : Pps where
  picParameterSetId := 0
  seqParameterSetId := 0
  entropyCodingMode := true
  bottomFieldPicOrder := false
  numRefIdxL0Minus1 := 0
  numRefIdxL1Minus1 := 0
  weightedPred := false
  weightedBipredIdc := 0
  picInitQp := c.preset.qp.toNat
  chromaQpIndexOffset := 0
  deblockingFilterControlPresent := true
  constrainedIntraPred := false
  redundantPicCntPresent := false
  transform8x8Mode := c.profileIdc = 100
  secondChromaQpIndexOffset := 0

/-- The chroma format is written for the high profile only, and is otherwise what a decoder
infers. -/
theorem readChroma_code (rest : List Bool) :
    readChroma c.profileIdc.toUInt32.toNat (c.chromaElements.flatMap Element.code ++ rest) =
      some (⟨1, 0, 0⟩, rest) := by
  obtain hprofile | hprofile := c.profile
  · rw [chromaElements, if_pos hprofile, readChroma, hprofile, if_pos (by decide)]
    simp only [List.flatMap_cons, List.flatMap_nil, List.append_assoc, List.nil_append]
    rw [bind_of_eq (readGolomb_code 1 _), bind_of_eq (expect_true (by decide) _),
      bind_of_eq (readGolomb_code 0 _), bind_of_eq (readGolomb_code 0 _),
      bind_of_eq (readBit_code false _), bind_of_eq (readBit_code false _),
      bind_of_eq (expect_true (by rfl) _)]
    rfl
  · rw [chromaElements, hprofile, if_neg (by decide), readChroma, if_neg (by decide)]
    rfl

/-- The flag is read by the caller. -/
theorem readCropOffsets_code (rest : List Bool) :
    (readBit >>= readCropOffsets) (c.cropElements.flatMap Element.code ++ rest) =
      some (c.frameCrop, rest) := by
  rw [cropElements, frameCrop]
  split
  · simp only [List.flatMap_cons, List.flatMap_nil, List.append_assoc, List.nil_append]
    rw [bind_of_eq (readBit_code true _), readCropOffsets, if_pos rfl,
      bind_of_eq (readGolomb_code 0 _), bind_of_eq (readGolomb_code _ _),
      bind_of_eq (readGolomb_code 0 _), bind_of_eq (readGolomb_code _ _)]
    rfl
  · rfl

/-- The timing that is written. -/
theorem readVui_code (rest : List Bool) :
    readVui true (vuiElements.flatMap Element.code ++ rest) =
      some (some ⟨1, 30, false⟩, rest) := by
  have htiming : readTiming true ((Element.bits 32 1).code ++ ((Element.bits 32 30).code ++
      ((Element.flag false).code ++ ((Element.flag false).code ++ ((Element.flag false).code ++
        ((Element.flag false).code ++ ((Element.flag false).code ++ rest))))))) =
      some (some ⟨1, 30, false⟩, (Element.flag false).code ++ ((Element.flag false).code ++
        ((Element.flag false).code ++ ((Element.flag false).code ++ rest)))) := by
    rw [readTiming, if_pos rfl, bind_of_eq (readFixed_code (by decide) _),
      bind_of_eq (readFixed_code (by decide) _), bind_of_eq (readBit_code false _)]
    rfl
  rw [readVui, if_pos rfl, vuiElements]
  simp only [List.flatMap_cons, List.flatMap_nil, List.append_assoc, List.nil_append]
  rw [bind_of_eq (readBit_code false _), bind_of_eq (readBit_code false _),
    bind_of_eq (readBit_code false _), bind_of_eq (readBit_code false _),
    bind_of_eq (expect_true (by rfl) _), bind_of_eq (readBit_code true _), bind_of_eq htiming,
    bind_of_eq (readBit_code false _), bind_of_eq (readBit_code false _),
    bind_of_eq (expect_true (by rfl) _), bind_of_eq (readBit_code false _),
    bind_of_eq (readBit_code false _), bind_of_eq (expect_true (by rfl) _)]
  rfl

end VaapiConfig

namespace VaapiConfig

variable (c : VaapiConfig)

/-- A decoder reads the sequence parameters that the buffers have. -/
theorem readSps_spsElements (rest : List Bool) :
    readSps (c.spsElements.flatMap Element.code ++ rest) = some (c.sps, rest) := by
  have hcrop : ∀ {α : Type} (f : Option FrameCrop → Reader α) (bits : List Bool),
      (readBit >>= fun cropping => readCropOffsets cropping >>= f)
        (c.cropElements.flatMap Element.code ++ bits) = f c.frameCrop bits := by
    intro α f bits
    rw [← bind_assoc, bind_of_eq (c.readCropOffsets_code bits)]
  rw [readSps, spsElements]
  simp only [List.flatMap_append, List.flatMap_cons, List.flatMap_nil, List.append_assoc,
    List.nil_append]
  rw [bind_of_eq (readFixed_code c.profileIdc.toNat_lt _),
    bind_of_eq (readFixed_code (by decide) _),
    bind_of_eq (readFixed_code c.getH264Level.toNat_lt _), bind_of_eq (readGolomb_code 0 _),
    bind_of_eq (c.readChroma_code _), bind_of_eq (readGolomb_code 4 _),
    bind_of_eq (readGolomb_code 0 _), bind_of_eq (expect_true (by rfl) _),
    bind_of_eq (readGolomb_code 4 _), bind_of_eq (readGolomb_code 1 _),
    bind_of_eq (readBit_code false _), bind_of_eq (readGolomb_code _ _),
    bind_of_eq (readGolomb_code _ _), bind_of_eq (readBit_code true _),
    bind_of_eq (expect_true (by rfl) _), bind_of_eq (readBit_code true _), hcrop,
    bind_of_eq (readBit_code true _), bind_of_eq (readVui_code _)]
  rfl

/-- Whether there is more in the picture parameters is told by the trailing bits. -/
theorem readTransform_code {rest : List Bool} (hrest : Trailing rest) :
    (readMore >>= fun more => readTransform more 0)
        (c.transformElements.flatMap Element.code ++ rest) =
      some ((decide (c.profileIdc = 100), 0), rest) := by
  rw [transformElements]
  split
  · rename_i hprofile
    have hmore : readMore ([Element.flag true, .flag false, .se 0].flatMap Element.code ++ rest) =
        some (true, [Element.flag true, .flag false, .se 0].flatMap Element.code ++ rest) := by
      rw [readMore, moreData_append (by decide) hrest]
    rw [bind_of_eq hmore, readTransform, if_pos rfl]
    simp only [List.flatMap_cons, List.flatMap_nil, List.append_assoc, List.nil_append]
    rw [bind_of_eq (readBit_code true _), bind_of_eq (readBit_code false _),
      bind_of_eq (expect_true (by rfl) _), bind_of_eq (readSigned_code 0 _), hprofile]
    rfl
  · rename_i hprofile
    have hmore : readMore rest = some (false, rest) := by
      rw [readMore, moreData_of_trailing hrest]
    rw [decide_eq_false hprofile]
    exact bind_of_eq hmore

/-- A decoder reads the picture parameters that the buffers have. -/
theorem readPps_ppsElements {rest : List Bool} (hrest : Trailing rest) :
    readPps (c.ppsElements.flatMap Element.code ++ rest) = some (c.pps, rest) := by
  have htransform : ∀ {α : Type} (f : Bool × ℤ → Reader α),
      (readMore >>= fun more => readTransform more (0 : Int32).toInt >>= f)
        (c.transformElements.flatMap Element.code ++ rest) =
          f (decide (c.profileIdc = 100), 0) rest := by
    intro α f
    rw [← bind_assoc]
    exact bind_of_eq (c.readTransform_code hrest)
  have hqp : (Int32.ofNat c.preset.qp.toNat - 26).toInt + 26 = c.preset.qp.toNat := by
    cases c.preset <;> rfl
  rw [readPps, ppsElements]
  simp only [List.flatMap_append, List.flatMap_cons, List.flatMap_nil, List.append_assoc,
    List.nil_append]
  rw [bind_of_eq (readGolomb_code 0 _), bind_of_eq (readGolomb_code 0 _),
    bind_of_eq (readBit_code true _), bind_of_eq (readBit_code false _),
    bind_of_eq (readGolomb_code 0 _), bind_of_eq (expect_true (by rfl) _),
    bind_of_eq (readGolomb_code 0 _), bind_of_eq (readGolomb_code 0 _),
    bind_of_eq (readBit_code false _), bind_of_eq (readFixed_code (by decide) _),
    bind_of_eq (readSigned_code _ _), bind_of_eq (readSigned_code 0 _),
    bind_of_eq (readSigned_code 0 _), bind_of_eq (readBit_code true _),
    bind_of_eq (readBit_code false _), bind_of_eq (readBit_code false _), htransform, hqp]
  rfl

/-! ### The sizes -/

theorem mbWidth_pos : 0 < c.mbWidth.toNat := by
  have hne : c.width.toNat ≠ 0 := fun h => c.width_ne (UInt32.toNat_inj.mp h)
  rw [toNat_mbWidth]
  omega

theorem mbHeight_pos : 0 < c.mbHeight.toNat := by
  have hne : c.height.toNat ≠ 0 := fun h => c.height_ne (UInt32.toNat_inj.mp h)
  rw [toNat_mbHeight]
  omega

theorem toNat_pred {n : UInt32} (h : 0 < n.toNat) : (n - 1).toNat + 1 = n.toNat := by
  have hone : (1 : UInt32) ≤ n := UInt32.le_iff_toNat_le.mpr h
  rw [UInt32.toNat_sub_of_le _ _ hone]
  exact Nat.sub_add_cancel h

/-- The width that a decoder reads. -/
theorem picWidthInMbs_sps : c.sps.picWidthInMbs = (c.width.toNat + 15) / 16 :=
  (toNat_pred c.mbWidth_pos).trans c.toNat_mbWidth

/-- The height that a decoder reads. -/
theorem picHeightInMbs_sps : c.sps.picHeightInMbs = (c.height.toNat + 15) / 16 :=
  (toNat_pred c.mbHeight_pos).trans c.toNat_mbHeight

/-- What a decoder cuts off on the right. -/
theorem toNat_cropRight :
    c.cropRight.toNat = (c.width.toNat + 15) / 16 * 16 - c.width.toNat :=
  toNat_crop c.width

/-- What a decoder cuts off at the bottom. -/
theorem toNat_cropBottom :
    c.cropBottom.toNat = (c.height.toNat + 15) / 16 * 16 - c.height.toNat :=
  toNat_crop c.height

/-- The width is even, as it has to be for a cropping in units of two. -/
theorem width_mod : c.width.toNat % 2 = 0 :=
  congrArg UInt32.toNat c.width_even

theorem height_mod : c.height.toNat % 2 = 0 :=
  congrArg UInt32.toNat c.height_even

/-- Nothing is cropped from whole macroblocks. -/
theorem frameCrop_eq_none :
    c.frameCrop = none ↔ c.width.toNat % 16 = 0 ∧ c.height.toNat % 16 = 0 := by
  have hzero : ∀ n : UInt32, n = 0 ↔ n.toNat = 0 := fun n => UInt32.toNat_inj.symm
  rw [frameCrop]
  split
  · rename_i hcrop
    rw [ne_eq, ne_eq, hzero, hzero, toNat_cropRight, toNat_cropBottom] at hcrop
    refine ⟨fun h => absurd h (Option.some_ne_none _), fun h => ?_⟩
    omega
  · rename_i hcrop
    rw [ne_eq, ne_eq, hzero, hzero, toNat_cropRight, toNat_cropBottom] at hcrop
    refine ⟨fun _ => ?_, fun _ => rfl⟩
    omega

/-- The cropping leaves the size that the encoder was created with. -/
theorem cropped_sps :
    c.sps.croppedWidth = c.width.toNat ∧ c.sps.croppedHeight = c.height.toNat := by
  have hwidth := c.width_mod
  have hheight := c.height_mod
  have hright := c.toNat_cropRight
  have hbottom := c.toNat_cropBottom
  have hhalf : ∀ n : UInt32, (n / 2).toNat = n.toNat / 2 := fun n => UInt32.toNat_div n 2
  have hcrop : c.sps.crop = c.frameCrop := rfl
  rw [Sps.croppedWidth, Sps.croppedHeight, picWidthInMbs_sps, picHeightInMbs_sps, hcrop]
  cases h : c.frameCrop with
  | none =>
    obtain ⟨hw, hh⟩ := c.frameCrop_eq_none.mp h
    dsimp only
    omega
  | some crop =>
    rw [frameCrop] at h
    split at h
    · cases h
      dsimp only
      rw [hhalf, hhalf]
      omega
    · cases h

/-! ### The units -/

/-- Every element has a code. -/
theorem fits_spsElements : ∀ e ∈ c.spsElements, e.Fits := by
  have hnotMax : ∀ n : UInt32, n.toNat < 2 ^ 31 → n ≠ 0xFFFFFFFF := by
    rintro n hlt rfl
    exact absurd hlt (by decide)
  have hw := toNat_pred c.mbWidth_pos
  have hh := toNat_pred c.mbHeight_pos
  rw [toNat_mbWidth] at hw
  rw [toNat_mbHeight] at hh
  have hwidth := c.width.toNat_lt
  have hheight := c.height.toNat_lt
  have hhalf : ∀ n : UInt32, n / 2 ≠ 0xFFFFFFFF := by
    intro n
    refine hnotMax _ ?_
    have hlt := n.toNat_lt
    rw [UInt32.toNat_div]
    show n.toNat / 2 < 2 ^ 31
    omega
  have hchroma : ∀ e ∈ c.chromaElements, e.Fits := by
    rw [chromaElements]
    split
    · decide
    · exact fun _ h => absurd h (List.not_mem_nil)
  have hcrop : ∀ e ∈ c.cropElements, e.Fits := by
    rw [cropElements]
    split
    · simp [Element.Fits, hhalf]
    · decide
  have hvui : ∀ e ∈ vuiElements, e.Fits := by
    decide
  intro e he
  simp only [spsElements, List.append_assoc, List.mem_append] at he
  obtain he | he | he | he | he | he := he
  · simp only [List.mem_cons, List.not_mem_nil, or_false] at he
    obtain rfl | rfl | rfl | rfl := he
    · exact ⟨by decide, c.profileIdc.toNat_lt⟩
    · decide
    · exact ⟨by decide, c.getH264Level.toNat_lt⟩
    · decide
  · exact hchroma e he
  · simp only [List.mem_cons, List.not_mem_nil, or_false] at he
    obtain rfl | rfl | rfl | rfl | rfl | rfl | rfl | rfl | rfl := he
    · decide
    · decide
    · decide
    · decide
    · decide
    · exact hnotMax _ (by omega)
    · exact hnotMax _ (by omega)
    · decide
    · decide
  · exact hcrop e he
  · rw [List.mem_singleton.mp he]
    decide
  · exact hvui e he

theorem fits_ppsElements : ∀ e ∈ c.ppsElements, e.Fits := by
  have htransform : ∀ e ∈ c.transformElements, e.Fits := by
    rw [transformElements]
    split
    · decide
    · exact fun _ h => absurd h (List.not_mem_nil)
  rw [ppsElements]
  refine List.forall_mem_append.mpr ⟨?_, htransform⟩
  cases c.preset <;> decide

end VaapiConfig

/-- What a decoder reads from a unit. Nothing but the trailing bits may follow. -/
def Decodes {α : Type} (reader : Reader α) (u : NalUnit) (a : α) : Prop :=
  ∃ rest, Trailing rest ∧ reader (bytesBits (unescape u.payload.tail)) = some (a, rest)

/-! ### The parameter sets and the buffers -/

/-- The sequence parameter set says what the buffer says. -/
structure Sps.Matches (s : Sps) (b : EncSequenceParameterBufferH264) : Prop where
  id : s.seqParameterSetId = b.seqParameterSetId.toNat
  level : s.levelIdc = b.levelIdc.toNat
  chroma : s.chroma = ⟨b.seqFields.chromaFormatIdc.toNat, b.bitDepthLumaMinus8.toNat,
    b.bitDepthChromaMinus8.toNat⟩
  frameNum : s.log2MaxFrameNumMinus4 = b.seqFields.log2MaxFrameNumMinus4.toNat
  pocLsb : s.log2MaxPicOrderCntLsbMinus4 = b.seqFields.log2MaxPicOrderCntLsbMinus4.toNat
  refFrames : s.maxNumRefFrames = b.maxNumRefFrames.toNat
  width : s.picWidthInMbs = b.pictureWidthInMbs.toNat
  height : s.picHeightInMbs = b.pictureHeightInMbs.toNat
  direct8x8 : s.direct8x8Inference = (b.seqFields.direct8x8InferenceFlag != 0)
  crop : s.crop =
    b.frameCrop.map fun c => ⟨c.left.toNat, c.right.toNat, c.top.toNat, c.bottom.toNat⟩
  timing : s.timing = b.vuiFields.bind fun vui =>
    if vui.timingInfoPresentFlag = 0 then none
    else some ⟨b.numUnitsInTick.toNat, b.timeScale.toNat, vui.fixedFrameRateFlag != 0⟩

/-- The picture parameter set says what the buffer says. -/
structure Pps.Matches (p : Pps) (b : EncPictureParameterBufferH264) : Prop where
  id : p.picParameterSetId = b.picParameterSetId.toNat
  seqId : p.seqParameterSetId = b.seqParameterSetId.toNat
  entropy : p.entropyCodingMode = (b.picFields.entropyCodingModeFlag != 0)
  picOrder : p.bottomFieldPicOrder = (b.picFields.picOrderPresentFlag != 0)
  l0 : p.numRefIdxL0Minus1 = b.numRefIdxL0ActiveMinus1.toNat
  l1 : p.numRefIdxL1Minus1 = b.numRefIdxL1ActiveMinus1.toNat
  weighted : p.weightedPred = (b.picFields.weightedPredFlag != 0)
  bipred : p.weightedBipredIdc = b.picFields.weightedBipredIdc.toNat
  qp : p.picInitQp = b.picInitQp.toNat
  chromaQp : p.chromaQpIndexOffset = b.chromaQpIndexOffset.toInt
  deblocking : p.deblockingFilterControlPresent =
    (b.picFields.deblockingFilterControlPresentFlag != 0)
  intraPred : p.constrainedIntraPred = (b.picFields.constrainedIntraPredFlag != 0)
  redundant : p.redundantPicCntPresent = (b.picFields.redundantPicCntPresentFlag != 0)
  transform : p.transform8x8Mode = (b.picFields.transform8x8ModeFlag != 0)
  secondChromaQp : p.secondChromaQpIndexOffset = b.secondChromaQpIndexOffset.toInt

namespace VaapiConfig

variable (c : VaapiConfig)

/-- The size goes into the buffer with the higher bits cut off, and the buffer has no cropping. -/
theorem matches_sps :
    c.sps.Matches (c.buildSequenceParams c.mbWidth.toUInt16 c.mbHeight.toUInt16) ↔
      c.frameCrop = none ∧ c.mbWidth.toNat < 2 ^ 16 ∧ c.mbHeight.toNat < 2 ^ 16 := by
  have hw : c.sps.picWidthInMbs = c.mbWidth.toNat := toNat_pred c.mbWidth_pos
  have hh : c.sps.picHeightInMbs = c.mbHeight.toNat := toNat_pred c.mbHeight_pos
  have hcut : ∀ n : UInt32, n.toUInt16.toNat = n.toNat % 2 ^ 16 := fun n => UInt32.toNat_toUInt16 n
  refine ⟨fun h => ?_, fun h => ?_⟩
  · have hwidth := hw.symm.trans (h.width.trans (hcut c.mbWidth))
    have hheight := hh.symm.trans (h.height.trans (hcut c.mbHeight))
    exact ⟨h.crop, by omega, by omega⟩
  · obtain ⟨hcrop, hwidth, hheight⟩ := h
    exact {
      id := rfl
      level := rfl
      chroma := rfl
      frameNum := rfl
      pocLsb := rfl
      refFrames := rfl
      width := hw.trans ((hcut c.mbWidth).trans (Nat.mod_eq_of_lt hwidth)).symm
      height := hh.trans ((hcut c.mbHeight).trans (Nat.mod_eq_of_lt hheight)).symm
      direct8x8 := rfl
      crop := hcrop
      timing := rfl }

/-- One reference or none, and the field holds one less, if that can be. -/
theorem numRefIdx_buildPictureParams (lastRef : Option DpbEntry)
    (reconSurfaceId codedBufId : UInt32) (isIdr : Bool) (frameNum : UInt16) (poc : Int32) :
    (c.buildPictureParams lastRef reconSurfaceId codedBufId isIdr frameNum
      poc).numRefIdxL0ActiveMinus1 = 0 := by
  have h : ∀ referenced : Bool, (if (if referenced then (1 : UInt8) else 0) > 0 then
      (if referenced then (1 : UInt8) else 0) - 1 else 0) = 0 := by
    decide
  exact h _

/-- Of both profiles the buffer asks for the transform of the high one. -/
theorem matches_pps (lastRef : Option DpbEntry) (reconSurfaceId codedBufId : UInt32) (isIdr : Bool)
    (frameNum : UInt16) (poc : Int32) :
    c.pps.Matches (c.buildPictureParams lastRef reconSurfaceId codedBufId isIdr frameNum poc) ↔
      c.profileIdc = 100 := by
  refine ⟨fun h => of_decide_eq_true h.transform, fun h => ?_⟩
  exact {
    id := rfl
    seqId := rfl
    entropy := rfl
    picOrder := rfl
    l0 := (congrArg UInt8.toNat (c.numRefIdx_buildPictureParams ..)).symm
    l1 := rfl
    weighted := rfl
    bipred := rfl
    qp := rfl
    chromaQp := rfl
    deblocking := rfl
    intraPred := rfl
    redundant := rfl
    transform := decide_eq_true h
    secondChromaQp := rfl }

/-- What `buildParameterSets` writes: two units, from which a decoder reads the parameter sets. -/
theorem exists_units_buildParameterSets :
    ∃ spsUnit ppsUnit : NalUnit, c.buildParameterSets = stream [spsUnit, ppsUnit] ∧
      spsUnit.kind = 7 ∧ ppsUnit.kind = 8 ∧
      Decodes readSps spsUnit c.sps ∧ Decodes readPps ppsUnit c.pps := by
  obtain ⟨spsUnit, hsps, hspsKind, hspsPayload⟩ := exists_unit_annexBNal
    (show (0x67 : UInt8) ≠ 0 by decide)
    (c.spsElements.foldl H264BitWriter.write .default).getLast?_finishRbsp
  obtain ⟨ppsUnit, hpps, hppsKind, hppsPayload⟩ := exists_unit_annexBNal
    (show (0x68 : UInt8) ≠ 0 by decide)
    (c.ppsElements.foldl H264BitWriter.write .default).getLast?_finishRbsp
  obtain ⟨spsRest, hspsRest, hspsBits⟩ :=
    (c.spsElements.foldl H264BitWriter.write .default).bits_finishRbsp
  obtain ⟨ppsRest, hppsRest, hppsBits⟩ :=
    (c.ppsElements.foldl H264BitWriter.write .default).bits_finishRbsp
  refine ⟨spsUnit, ppsUnit, ?_, hspsKind, hppsKind, ⟨spsRest, hspsRest, ?_⟩,
    ⟨ppsRest, hppsRest, ?_⟩⟩
  · rw [buildParameterSets, hsps, hpps, stream, List.flatMap_cons, List.flatMap_singleton]
  · rw [hspsPayload, hspsBits, H264BitWriter.bits_foldl_write _ c.fits_spsElements,
      H264BitWriter.bits_default, List.nil_append]
    exact c.readSps_spsElements spsRest
  · rw [hppsPayload, hppsBits, H264BitWriter.bits_foldl_write _ c.fits_ppsElements,
      H264BitWriter.bits_default, List.nil_append]
    exact c.readPps_ppsElements hppsRest

/-- **A decoder shows what is encoded.** Whatever sizes, profile and preset the encoder was created
with, its parameter sets are two units of the byte stream, and what a decoder reads from them has
the profile, the level and the quantiser of the encoder and, after cropping, the size of its
pictures. -/
theorem buildParameterSets_decode :
    ∃ (spsUnit ppsUnit : NalUnit) (s : Sps) (p : Pps),
      c.buildParameterSets = stream [spsUnit, ppsUnit] ∧
      spsUnit.kind = 7 ∧ Decodes readSps spsUnit s ∧ ppsUnit.kind = 8 ∧ Decodes readPps ppsUnit p ∧
      s.profileIdc = c.profileIdc.toNat ∧ s.levelIdc = c.getH264Level.toNat ∧
      s.croppedWidth = c.width.toNat ∧ s.croppedHeight = c.height.toNat ∧
      p.picInitQp = c.preset.qp.toNat ∧ p.seqParameterSetId = s.seqParameterSetId := by
  obtain ⟨spsUnit, ppsUnit, hstream, hspsKind, hppsKind, hsps, hpps⟩ :=
    c.exists_units_buildParameterSets
  obtain ⟨hwidth, hheight⟩ := c.cropped_sps
  exact ⟨spsUnit, ppsUnit, c.sps, c.pps, hstream, hspsKind, hsps, hppsKind, hpps, rfl, rfl, hwidth,
    hheight, rfl, rfl⟩

/-- **The parameter sets and the buffers.** They say the same exactly for the high profile and
pictures of whole macroblocks, as many as the buffer can count. -/
theorem matches_iff (lastRef : Option DpbEntry) (reconSurfaceId codedBufId : UInt32) (isIdr : Bool)
    (frameNum : UInt16) (poc : Int32) :
    ∃ (spsUnit ppsUnit : NalUnit) (s : Sps) (p : Pps),
      c.buildParameterSets = stream [spsUnit, ppsUnit] ∧ Decodes readSps spsUnit s ∧
      Decodes readPps ppsUnit p ∧
      ((s.Matches (c.buildSequenceParams c.mbWidth.toUInt16 c.mbHeight.toUInt16) ∧
        p.Matches (c.buildPictureParams lastRef reconSurfaceId codedBufId isIdr frameNum poc)) ↔
          c.profileIdc = 100 ∧ c.width.toNat % 16 = 0 ∧ c.height.toNat % 16 = 0 ∧
            c.width.toNat < 2 ^ 20 ∧ c.height.toNat < 2 ^ 20) := by
  obtain ⟨spsUnit, ppsUnit, hstream, -, -, hsps, hpps⟩ := c.exists_units_buildParameterSets
  refine ⟨spsUnit, ppsUnit, c.sps, c.pps, hstream, hsps, hpps, ?_⟩
  rw [matches_sps, matches_pps, frameCrop_eq_none, toNat_mbWidth, toNat_mbHeight]
  constructor
  · rintro ⟨⟨⟨hw, hh⟩, hwidth, hheight⟩, hprofile⟩
    exact ⟨hprofile, hw, hh, by omega, by omega⟩
  · rintro ⟨hprofile, hw, hh, hwidth, hheight⟩
    exact ⟨⟨⟨hw, hh⟩, by omega, by omega⟩, hprofile⟩

end VaapiConfig

/-! ### The level -/

/-- The largest frame of a level, and how many macroblocks a second it may take. -/
structure Limits where
  frame : UInt32
  rate : UInt32
  deriving DecidableEq, Repr

/-- The levels that the encoder chooses from. -/
inductive H264Level where
  | l30
  | l31
  | l32
  | l40
  | l41
  | l42
  | l50
  | l51
  | l52
  deriving DecidableEq, Repr

namespace H264Level

/-- The macroblocks of a picture, and those of a second. -/
def limits : H264Level → Limits
  | l30 => ⟨1620, 40500⟩
  | l31 => ⟨3600, 108000⟩
  | l32 => ⟨5120, 216000⟩
  | l40 | l41 => ⟨8192, 245760⟩
  | l42 => ⟨8704, 522240⟩
  | l50 => ⟨22080, 589824⟩
  | l51 => ⟨36864, 983040⟩
  | l52 => ⟨36864, 2073600⟩

/-- The number of a level is ten times its name. -/
def toIdc : H264Level → UInt8
  | l30 => 30
  | l31 => 31
  | l32 => 32
  | l40 => 40
  | l41 => 41
  | l42 => 42
  | l50 => 50
  | l51 => 51
  | l52 => 52

theorem toIdc_injective : Function.Injective toIdc := by
  intro a b h
  cases a <;> cases b <;> first | rfl | exact absurd h (by decide)

theorem exists_toIdc {P : H264Level → Prop} (level : H264Level) :
    (∃ l : H264Level, l.toIdc = level.toIdc ∧ P l) ↔ P level :=
  ⟨fun ⟨_, hl, h⟩ => toIdc_injective hl ▸ h, fun h => ⟨level, rfl, h⟩⟩

end H264Level

namespace VaapiConfig

variable (c : VaapiConfig)

/-- The pictures of the stream, counted in macroblocks, and their rate are within the limits. -/
def Admits (limits : Limits) : Prop :=
  c.mbWidth.toNat * c.mbHeight.toNat ≤ limits.frame.toNat ∧
    c.mbWidth.toNat * c.mbHeight.toNat * 30 ≤ limits.rate.toNat

/-- The rate is computed in 32 bits, from a size that is rounded down. -/
theorem toNat_macroblocksPerSec :
    ((c.width / 16) * (c.height / 16) * 30).toNat =
      (c.width.toNat / 16) * (c.height.toNat / 16) * 30 % 2 ^ 32 := by
  rw [UInt32.toNat_mul, UInt32.toNat_mul, UInt32.toNat_div, UInt32.toNat_div]
  show c.width.toNat / 16 * (c.height.toNat / 16) % 2 ^ 32 * 30 % 2 ^ 32 = _
  omega

/-- **The announced level.** It admits thirty pictures a second exactly up to the rate of level 4.0,
unless rounding the size down to whole macroblocks has led to a level below that of the picture. -/
theorem admits_getH264Level_iff :
    (∃ level : H264Level, level.toIdc = c.getH264Level ∧ c.Admits level.limits) ↔
      c.mbWidth.toNat * c.mbHeight.toNat * 30 ≤ 245760 ∧
      ((c.width.toNat / 16) * (c.height.toNat / 16) * 30 ≤ 40500 →
        c.mbWidth.toNat * c.mbHeight.toNat * 30 ≤ 40500) ∧
      ((c.width.toNat / 16) * (c.height.toNat / 16) * 30 ≤ 108000 →
        c.mbWidth.toNat * c.mbHeight.toNat * 30 ≤ 108000) := by
  have hfloor : (c.width.toNat / 16) * (c.height.toNat / 16) ≤
      c.mbWidth.toNat * c.mbHeight.toNat := by
    rw [toNat_mbWidth, toNat_mbHeight]
    exact Nat.mul_le_mul (by omega) (by omega)
  have hrate : ∀ n : UInt32, (c.width / 16) * (c.height / 16) * 30 ≤ n ↔
      (c.width.toNat / 16) * (c.height.toNat / 16) * 30 % 2 ^ 32 ≤ n.toNat := fun n => by
    rw [UInt32.le_iff_toNat_le, toNat_macroblocksPerSec]
  rw [getH264Level]
  simp only [hrate, UInt32.reduceToNat]
  generalize hmbs : c.mbWidth.toNat * c.mbHeight.toNat = mbs at hfloor
  generalize (c.width.toNat / 16) * (c.height.toNat / 16) = whole at hfloor
  -- the rate wraps around only for pictures that no level admits
  have hle := Nat.mod_le (whole * 30) (2 ^ 32)
  have hsame : mbs * 30 ≤ 983040 → whole * 30 % 2 ^ 32 = whole * 30 := fun h =>
    Nat.mod_eq_of_lt (by omega)
  generalize whole * 30 % 2 ^ 32 = announced at hle hsame
  have hadmits : ∀ level : H264Level, (∃ l : H264Level, l.toIdc = level.toIdc ∧
      c.Admits l.limits) ↔ mbs ≤ level.limits.frame.toNat ∧ mbs * 30 ≤ level.limits.rate.toNat := by
    intro level
    rw [H264Level.exists_toIdc, Admits, hmbs]
  split
  · exact (hadmits .l30).trans (by show mbs ≤ 1620 ∧ mbs * 30 ≤ 40500 ↔ _; omega)
  split
  · exact (hadmits .l31).trans (by show mbs ≤ 3600 ∧ mbs * 30 ≤ 108000 ↔ _; omega)
  split
  · exact (hadmits .l40).trans (by show mbs ≤ 8192 ∧ mbs * 30 ≤ 245760 ↔ _; omega)
  split
  · exact (hadmits .l41).trans (by show mbs ≤ 8192 ∧ mbs * 30 ≤ 245760 ↔ _; omega)
  split
  · exact (hadmits .l50).trans (by show mbs ≤ 22080 ∧ mbs * 30 ≤ 589824 ↔ _; omega)
  · exact (hadmits .l51).trans (by show mbs ≤ 36864 ∧ mbs * 30 ≤ 983040 ↔ _; omega)

end VaapiConfig

end Graphics

end Cheirizo
