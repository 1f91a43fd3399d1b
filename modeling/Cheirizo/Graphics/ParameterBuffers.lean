import Cheirizo.Graphics.BitWriter

/-!
# The parameter buffers of the VA-API encoder

`egfx/hardware/vaapi/mod.rs`. The encoder tells the driver what it encodes in parameter buffers, and
where the driver puts no parameter sets into the stream it writes them itself. Both are here as the
encoder fills them in, the parameter sets as the elements that are written one after the other.

## Main definitions

* `VaapiConfig`, `VaapiConfig.new` — what an encoder is created with
* `getH264Level`, `buildParameterSets` — the level, and the parameter sets of the stream
* `buildSequenceParams`, `buildPictureParams` — the buffers

## Main results

* `toNat_divCeil`, `toNat_crop` — sizes in macroblocks, without overflow
-/

namespace Cheirizo

namespace Graphics

open AnnexB Bits

/-! ### What an encoder is created with -/

/-- What the user can choose. -/
inductive QualityPreset where
  | speed
  | balanced
  | quality
  deriving DecidableEq, Repr

namespace QualityPreset

/-- How many kilobits a second may take. -/
def bitrateKbps : QualityPreset → UInt32
  | speed => 3000
  | balanced => 5000
  | quality => 10000

/-- How many frames there are from one keyframe to the next. -/
def gopSize : QualityPreset → UInt32
  | speed => 60
  | balanced => 30
  | quality => 15

/-- The quantiser that parameter sets and buffers start from. -/
def qp : QualityPreset → UInt8
  | speed => 28
  | balanced => 23
  | quality => 18

end QualityPreset

/-- The profiles that a driver may offer. Only two of them are looked for. -/
inductive VAProfile where
  | h264High
  | h264Main
  | other
  deriving DecidableEq, Repr

/-- What stays the same for the life of an encoder. -/
structure VaapiConfig where
  width : UInt32
  height : UInt32
  profileIdc : UInt8
  preset : QualityPreset
  width_ne : width ≠ 0
  height_ne : height ≠ 0
  width_even : width % 2 = 0
  height_even : height % 2 = 0
  profile : profileIdc = 100 ∨ profileIdc = 77

/-- Why there is no frame. -/
inductive HardwareEncoderError where
  | invalidDimensions (width height : UInt32) (reason : String)
  | h264NotSupported
  | encodeFailed (message : String)
  deriving DecidableEq, Repr

namespace VaapiConfig

/-- The checks of `VaapiEncoder::new`, with the profiles that the driver lists. -/
def new (profiles : List VAProfile) (width height : UInt32) (preset : QualityPreset) :
    Except HardwareEncoderError VaapiConfig :=
  if hdims : width = 0 ∨ height = 0 ∨ width % 2 ≠ 0 ∨ height % 2 ≠ 0 then
    .error (.invalidDimensions width height "dimensions must be non-zero and even")
  else
    have hdims : width ≠ 0 ∧ height ≠ 0 ∧ width % 2 = 0 ∧ height % 2 = 0 := by
      simpa only [not_or, not_not] using hdims
    if VAProfile.h264High ∈ profiles then
      .ok ⟨width, height, 100, preset, hdims.1, hdims.2.1, hdims.2.2.1, hdims.2.2.2, .inl rfl⟩
    else if VAProfile.h264Main ∈ profiles then
      .ok ⟨width, height, 77, preset, hdims.1, hdims.2.1, hdims.2.2.1, hdims.2.2.2, .inr rfl⟩
    else .error .h264NotSupported

variable (c : VaapiConfig)

/-- The same in bits. -/
def bitrateBps : UInt32 :=
  c.preset.bitrateKbps * 1000

/-- Every group of pictures begins with an IDR frame. -/
def idrInterval : UInt32 :=
  c.preset.gopSize

/-- Rounded down to whole macroblocks, thirty times a second. -/
def getH264Level : UInt8 :=
  let macroblocks := (c.width / 16) * (c.height / 16)
  let macroblocksPerSec := macroblocks * 30
  if macroblocksPerSec ≤ 40500 then 30
  else if macroblocksPerSec ≤ 108000 then 31
  else if macroblocksPerSec ≤ 245760 then 40
  else if macroblocksPerSec ≤ 589824 then 41
  else if macroblocksPerSec ≤ 983040 then 50
  else 51

end VaapiConfig

/-- Division of machine integers, rounded up. -/
def divCeil (a b : UInt32) : UInt32 :=
  if a % b > 0 then a / b + 1 else a / b

theorem toNat_divCeil (a : UInt32) : (divCeil a 16).toNat = (a.toNat + 15) / 16 := by
  have hlt := a.toNat_lt
  have hmod : a % 16 > 0 ↔ 0 < a.toNat % 16 := UInt32.lt_iff_toNat_lt
  rw [divCeil]
  split
  · rename_i hpos
    have hpos := hmod.mp hpos
    rw [UInt32.toNat_add, UInt32.toNat_div]
    show (a.toNat / 16 + 1) % 2 ^ 32 = _
    omega
  · rename_i hpos
    have hpos := mt hmod.mpr hpos
    rw [UInt32.toNat_div]
    show a.toNat / 16 = _
    omega

/-- What is missing to whole macroblocks. The product may wrap around, the difference wraps back. -/
theorem toNat_crop (a : UInt32) :
    (divCeil a 16 * 16 - a).toNat = (a.toNat + 15) / 16 * 16 - a.toNat := by
  have hlt := a.toNat_lt
  rw [UInt32.toNat_sub, UInt32.toNat_mul, toNat_divCeil]
  show (2 ^ 32 - a.toNat + (a.toNat + 15) / 16 * 16 % 2 ^ 32) % 2 ^ 32 = _
  omega

/-! ### The parameter sets -/

namespace VaapiConfig

variable (c : VaapiConfig)

/-- How many macroblocks a row has. -/
def mbWidth : UInt32 :=
  divCeil c.width 16

/-- How many rows of macroblocks there are. -/
def mbHeight : UInt32 :=
  divCeil c.height 16

/-- The pixels that only fill up the last macroblocks of the rows. -/
def cropRight : UInt32 :=
  c.mbWidth * 16 - c.width

/-- The rows that only fill up the last macroblocks. -/
def cropBottom : UInt32 :=
  c.mbHeight * 16 - c.height

/-- The fields of the chroma format, which only the high profile has. -/
def chromaElements : List Element :=
  if c.profileIdc = 100 then [.ue 1, .ue 0, .ue 0, .flag false, .flag false] else []

/-- The offsets of the cropping rectangle, in steps of two pixels. -/
def cropElements : List Element :=
  if c.cropRight ≠ 0 ∨ c.cropBottom ≠ 0 then
    [.flag true, .ue 0, .ue (c.cropRight / 2), .ue 0, .ue (c.cropBottom / 2)]
  else [.flag false]

/-- Usability information with nothing but the timing, at thirty ticks a second. -/
def vuiElements : List Element :=
  [.flag false, .flag false, .flag false, .flag false, .flag true, .bits 32 1, .bits 32 30,
    .flag false, .flag false, .flag false, .flag false, .flag false]

/-- The sequence parameter set. -/
def spsElements : List Element :=
  [.bits 8 c.profileIdc.toUInt32, .bits 8 0, .bits 8 c.getH264Level.toUInt32, .ue 0] ++
    c.chromaElements ++
    [.ue 4, .ue 0, .ue 4, .ue 1, .flag false, .ue (c.mbWidth - 1), .ue (c.mbHeight - 1),
      .flag true, .flag true] ++
    c.cropElements ++ [.flag true] ++ vuiElements

/-- The fields of the picture parameter set that only the high profile has. -/
def transformElements : List Element :=
  if c.profileIdc = 100 then [.flag true, .flag false, .se 0] else []

/-- The picture parameter set. -/
def ppsElements : List Element :=
  [.ue 0, .ue 0, .flag true, .flag false, .ue 0, .ue 0, .ue 0, .flag false, .bits 2 0,
    .se (Int32.ofNat c.preset.qp.toNat - 26), .se 0, .se 0, .flag true, .flag false,
    .flag false] ++ c.transformElements

/-- An SPS and a PPS, each as a unit of its own. -/
def buildParameterSets : List UInt8 :=
  let sps := c.spsElements.foldl H264BitWriter.write .default
  let pps := c.ppsElements.foldl H264BitWriter.write .default
  annexBNal 0x67 sps.finishRbsp ++ annexBNal 0x68 pps.finishRbsp

end VaapiConfig

/-! ### The parameter buffers -/

/-- The bits of a sequence buffer. -/
structure H264EncSeqFields where
  chromaFormatIdc : UInt32
  frameMbsOnlyFlag : UInt32
  mbAdaptiveFrameFieldFlag : UInt32
  seqScalingMatrixPresentFlag : UInt32
  direct8x8InferenceFlag : UInt32
  log2MaxFrameNumMinus4 : UInt32
  picOrderCntType : UInt32
  log2MaxPicOrderCntLsbMinus4 : UInt32
  deltaPicOrderAlwaysZeroFlag : UInt32
  deriving DecidableEq, Repr

/-- The bits about the video's usability. -/
structure H264VuiFields where
  aspectRatioInfoPresentFlag : UInt32
  timingInfoPresentFlag : UInt32
  bitstreamRestrictionFlag : UInt32
  log2MaxMvLengthHorizontal : UInt32
  log2MaxMvLengthVertical : UInt32
  fixedFrameRateFlag : UInt32
  lowDelayHrdFlag : UInt32
  motionVectorsOverPicBoundariesFlag : UInt32
  deriving DecidableEq, Repr

/-- What is cut off a picture for display. -/
structure H264EncFrameCropOffsets where
  left : UInt32
  right : UInt32
  top : UInt32
  bottom : UInt32
  deriving DecidableEq, Repr

/-- `VAEncSequenceParameterBufferH264`, which tells the driver what the SPS tells a decoder. -/
structure EncSequenceParameterBufferH264 where
  seqParameterSetId : UInt8
  levelIdc : UInt8
  intraPeriod : UInt32
  intraIdrPeriod : UInt32
  ipPeriod : UInt32
  bitsPerSecond : UInt32
  maxNumRefFrames : UInt32
  pictureWidthInMbs : UInt16
  pictureHeightInMbs : UInt16
  seqFields : H264EncSeqFields
  bitDepthLumaMinus8 : UInt8
  bitDepthChromaMinus8 : UInt8
  numRefFramesInPicOrderCntCycle : UInt8
  offsetForNonRefPic : Int32
  offsetForTopToBottomField : Int32
  offsetForRefFrame : List Int32
  frameCrop : Option H264EncFrameCropOffsets
  vuiFields : Option H264VuiFields
  aspectRatioIdc : UInt8
  sarWidth : UInt32
  sarHeight : UInt32
  numUnitsInTick : UInt32
  timeScale : UInt32
  deriving DecidableEq, Repr

/-- The bits of a picture buffer. -/
structure H264EncPicFields where
  idrPicFlag : UInt32
  referencePicFlag : UInt32
  entropyCodingModeFlag : UInt32
  weightedPredFlag : UInt32
  weightedBipredIdc : UInt32
  constrainedIntraPredFlag : UInt32
  transform8x8ModeFlag : UInt32
  deblockingFilterControlPresentFlag : UInt32
  redundantPicCntPresentFlag : UInt32
  picOrderPresentFlag : UInt32
  picScalingMatrixPresentFlag : UInt32
  deriving DecidableEq, Repr

/-- A picture as the driver is told of it. -/
structure PictureH264 where
  pictureId : UInt32
  frameIdx : UInt32
  flags : UInt32
  topFieldOrderCnt : Int32
  bottomFieldOrderCnt : Int32
  deriving DecidableEq, Repr

/-- A place for a reference that holds none. -/
def VA_INVALID_SURFACE : UInt32 := 0xFFFFFFFF

/-- The flag of such a place. -/
def VA_PICTURE_H264_INVALID : UInt32 := 1

/-- The flag of a picture that others refer to. -/
def VA_PICTURE_H264_SHORT_TERM_REFERENCE : UInt32 := 8

/-- An entry of a list of references that is not used. -/
def PictureH264.unused : PictureH264 :=
  ⟨VA_INVALID_SURFACE, 0, VA_PICTURE_H264_INVALID, 0, 0⟩

/-- `VAEncPictureParameterBufferH264`, which is made for every frame. -/
structure EncPictureParameterBufferH264 where
  currPic : PictureH264
  referenceFrames : List PictureH264
  codedBuf : UInt32
  picParameterSetId : UInt8
  seqParameterSetId : UInt8
  lastPicture : UInt8
  frameNum : UInt16
  picInitQp : UInt8
  numRefIdxL0ActiveMinus1 : UInt8
  numRefIdxL1ActiveMinus1 : UInt8
  chromaQpIndexOffset : Int8
  secondChromaQpIndexOffset : Int8
  picFields : H264EncPicFields
  deriving DecidableEq, Repr

/-- The last picture that was reconstructed. -/
structure DpbEntry where
  surfaceId : UInt32
  frameNum : UInt16
  poc : Int32
  deriving DecidableEq, Repr

/-- A decoded picture as a reference. -/
def DpbEntry.picture (entry : DpbEntry) : PictureH264 :=
  ⟨entry.surfaceId, entry.frameNum.toUInt32, VA_PICTURE_H264_SHORT_TERM_REFERENCE, entry.poc,
    entry.poc⟩

/-- A list of references with the last picture in the first place, unless the picture stands on its
own. -/
def references (length : ℕ) (lastRef : Option DpbEntry) (isIdr : Bool) : List PictureH264 :=
  let unused := List.replicate length PictureH264.unused
  if isIdr then unused
  else match lastRef with
    | some entry => unused.set 0 entry.picture
    | none => unused

namespace VaapiConfig

variable (c : VaapiConfig)

/-- The buffer that goes with every keyframe. -/
def buildSequenceParams (mbWidth mbHeight : UInt16) : EncSequenceParameterBufferH264 where
  seqParameterSetId := 0
  levelIdc := c.getH264Level
  intraPeriod := c.idrInterval
  intraIdrPeriod := c.idrInterval
  ipPeriod := 1
  bitsPerSecond := c.bitrateBps
  maxNumRefFrames := 1
  pictureWidthInMbs := mbWidth
  pictureHeightInMbs := mbHeight
  seqFields := ⟨1, 1, 0, 0, 1, 4, 0, 4, 0⟩
  bitDepthLumaMinus8 := 0
  bitDepthChromaMinus8 := 0
  numRefFramesInPicOrderCntCycle := 0
  offsetForNonRefPic := 0
  offsetForTopToBottomField := 0
  offsetForRefFrame := List.replicate 256 0
  frameCrop := none
  vuiFields := some ⟨0, 1, 0, 16, 16, 0, 0, 1⟩
  aspectRatioIdc := 0
  sarWidth := 1
  sarHeight := 1
  numUnitsInTick := 1
  timeScale := 30

/-- The buffer of one frame. Of the sixteen places for references only the first is ever taken. -/
def buildPictureParams (lastRef : Option DpbEntry) (reconSurfaceId codedBufId : UInt32)
    (isIdr : Bool) (frameNum : UInt16) (poc : Int32) : EncPictureParameterBufferH264 where
  currPic :=
    ⟨reconSurfaceId, frameNum.toUInt32, VA_PICTURE_H264_SHORT_TERM_REFERENCE, poc, poc⟩
  referenceFrames := references 16 lastRef isIdr
  codedBuf := codedBufId
  picParameterSetId := 0
  seqParameterSetId := 0
  lastPicture := 0
  frameNum := frameNum
  picInitQp := c.preset.qp
  numRefIdxL0ActiveMinus1 :=
    let numRefL0 : UInt8 := if !isIdr && lastRef.isSome then 1 else 0
    if numRefL0 > 0 then numRefL0 - 1 else 0
  numRefIdxL1ActiveMinus1 := 0
  chromaQpIndexOffset := 0
  secondChromaQpIndexOffset := 0
  picFields := ⟨if isIdr then 1 else 0, 1, 1, 0, 0, 0, 1, 1, 0, 0, 0⟩

end VaapiConfig

end Graphics

end Cheirizo
