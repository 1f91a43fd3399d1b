import Cheirizo.Graphics.ParameterSyntax
import Cheirizo.Graphics.ParameterSets
import Cheirizo.Lib.Machine

/-!
# The VA-API encoder

`egfx/hardware/vaapi/mod.rs`, `VaapiEncoder`. A call uploads a picture, tells the driver what to
encode and takes the coded bytes from it. Each of these can fail, and by then the encoder has moved
on in its pools of surfaces, forgotten its reference or taken a new one.

Pictures refer to the last one that was reconstructed. There are two surfaces to reconstruct into,
used by turns. A call moves to the next surface even if it fails, so after one failed call the
driver is told to write a picture into the surface that it predicts it from, after two it is not.

## Main definitions

* `VaapiEncoder`, `encodeBgra`, `forceKeyframe` — the encoder, and a call with the driver's answers
* `VaapiEncoder.machine` — calls one after the other
* `lostSinceSync`, `lastUnmapped` — what a run of calls has left behind

## Main results

* `Tracks.exec` — the reference, after any calls
* `reference_of_rendered` — what a predicted picture refers to
* `returned_frames` — every frame carries the parameter sets
-/

namespace Cheirizo

namespace Graphics

open AnnexB Bits NalUnit

/-! ### The driver -/

/-- How many frames can wait to be encoded. -/
def INPUT_SURFACE_POOL_SIZE : ℕ := 3

/-- One picture to make, and one to refer to. -/
def RECON_SURFACE_POOL_SIZE : ℕ := 2

/-- How many buffers take coded data. -/
def CODED_BUFFER_COUNT : ℕ := 3

/-- A slice that refers to no other picture. -/
def SLICE_TYPE_I : UInt8 := 2

/-- A slice that refers to one picture. -/
def SLICE_TYPE_P : UInt8 := 0

/-- No object of the driver. -/
def VA_INVALID_ID : UInt32 := 0xFFFFFFFF

/-- What an encoder asks of the driver in a call, one after the other. -/
inductive VaOp where
  | createImage
  | createSeqBuffer
  | createRateControlBuffer (index : ℕ)
  | createPicBuffer
  | createSliceBuffer
  | beginPicture
  | renderPicture
  | endPicture
  | syncSurface
  | mapCodedBuffer
  deriving DecidableEq, Repr

/-- The text of a call that failed, as the source has it at that call. -/
def VaOp.message : VaOp → String → String
  | createImage, e => "Failed to create image: " ++ e
  | createSeqBuffer, e => "Failed to create seq buffer: " ++ e
  | createRateControlBuffer _, e => "Failed to create rate control buffer: " ++ e
  | createPicBuffer, e => "Failed to create pic buffer: " ++ e
  | createSliceBuffer, e => "Failed to create slice buffer: " ++ e
  | beginPicture, e => "vaBeginPicture failed: " ++ e
  | renderPicture, e => "vaRenderPicture failed: " ++ e
  | endPicture, e => "vaEndPicture failed: " ++ e
  | syncSurface, e => "vaSyncSurface failed: " ++ e
  | mapCodedBuffer, e => "Failed to map coded buffer: " ++ e

/-- The driver during a call: the operations that fail, with their errors, and the segments of the
coded buffer. -/
structure VaDriver where
  fails : VaOp → Option String
  segments : List (List UInt8)

/-- The error of the first operation that fails. -/
def VaDriver.run (va : VaDriver) (ops : List VaOp) : Option HardwareEncoderError :=
  ops.findSome? fun op => (va.fails op).map fun e => .encodeFailed (op.message e)

/-- What the driver has coded, segment after segment. -/
def VaDriver.coded (va : VaDriver) : List UInt8 :=
  va.segments.flatten

/-- The further buffers that control the rate. -/
inductive EncMiscParameter where
  | rateControl (bitsPerSecond targetPercentage windowSize initialQp minQp basicUnitSize
      disableFrameSkip icqQualityFactor maxQp qualityFactor targetFrameSize : UInt32)
  | hrd (initialBufferFullness bufferSize : UInt32)
  | frameRate (framerate framerateFlags : UInt32)
  deriving DecidableEq, Repr

/-- `VAEncSliceParameterBufferH264`. A frame is one slice. -/
structure EncSliceParameterBufferH264 where
  macroblockAddress : UInt32
  numMacroblocks : UInt32
  macroblockInfo : UInt32
  sliceType : UInt8
  picParameterSetId : UInt8
  idrPicId : UInt16
  picOrderCntLsb : UInt16
  numRefIdxActiveOverrideFlag : UInt8
  numRefIdxL0ActiveMinus1 : UInt8
  refPicList0 : List PictureH264
  refPicList1 : List PictureH264
  deriving DecidableEq, Repr

/-! ### The encoder -/

/-- The surfaces and buffers of an encoder. The driver gives them different identifiers. -/
structure VaapiPools where
  inputSurfaces : List UInt32
  reconSurfaces : List UInt32
  codedBuffers : List UInt32
  length_input : inputSurfaces.length = INPUT_SURFACE_POOL_SIZE
  length_recon : reconSurfaces.length = RECON_SURFACE_POOL_SIZE
  length_coded : codedBuffers.length = CODED_BUFFER_COUNT
  nodup_recon : reconSurfaces.Nodup

/-- The encoder between two frames. -/
structure VaapiEncoder extends VaapiConfig, VaapiPools where
  currentInputSurface : ℕ
  currentReconSurface : ℕ
  currentCodedBuffer : ℕ
  lastRef : Option DpbEntry
  cachedSpsPps : Option (List UInt8)
  frameCount : UInt64
  forceIdr : Bool

/-- A picture with its time, and how the driver behaves. The pixels only go to the driver. -/
structure VaapiCall where
  length : ℕ
  width : UInt32
  height : UInt32
  timestampMs : UInt64
  driver : VaDriver

/-- A frame of a hardware encoder. -/
structure Hardware.H264Frame where
  data : List UInt8
  isKeyframe : Bool
  timestampMs : UInt64
  size : ℕ
  deriving DecidableEq, Repr

/-- What the driver is given to render. -/
structure Rendered where
  isIdr : Bool
  input : UInt32
  seq : Option EncSequenceParameterBufferH264
  rateControl : List EncMiscParameter
  pic : EncPictureParameterBufferH264
  slice : EncSliceParameterBufferH264

/-- How a call ends: refused for the size of its picture, lost before the surface was synchronised,
without its coded bytes, or with a frame. With each of them what the driver was given to render. -/
inductive CallEnd where
  | refused (error : HardwareEncoderError)
  | lost (rendered : Option Rendered) (error : HardwareEncoderError)
  | unmapped (rendered : Rendered) (error : HardwareEncoderError)
  | returned (rendered : Rendered) (frame : Hardware.H264Frame)

namespace CallEnd

/-- What the driver was given in the call, if it got that far. -/
def rendered : CallEnd → Option Rendered
  | refused _ => none
  | lost rendered _ => rendered
  | unmapped rendered _ => some rendered
  | returned rendered _ => some rendered

/-- What the caller gets. -/
def result : CallEnd → Except HardwareEncoderError Hardware.H264Frame
  | refused error => .error error
  | lost _ error => .error error
  | unmapped _ error => .error error
  | returned _ frame => .ok frame

end CallEnd

/-- From a position on. -/
def containsNalTypeFrom (data : List UInt8) (wanted : UInt8) (i : ℕ) : Bool :=
  if i + 3 < data.length then
    if [0, 0, 0, 1] <+: data.drop i then
      if i + 4 < data.length ∧ data.getD (i + 4) 0 &&& 0x1F = wanted then true
      else containsNalTypeFrom data wanted (i + 4)
    else if [0, 0, 1] <+: data.drop i then
      if i + 3 < data.length ∧ data.getD (i + 3) 0 &&& 0x1F = wanted then true
      else containsNalTypeFrom data wanted (i + 3)
    else containsNalTypeFrom data wanted (i + 1)
  else false
termination_by data.length - i

namespace VaapiEncoder

/-- A unit of the given type begins somewhere in the data. -/
def containsNalType (data : List UInt8) (wanted : UInt8) : Bool :=
  containsNalTypeFrom data wanted 0

/-- The same scanner as that of the AVC444 encoder. -/
def extractSpsPps (data : List UInt8) : Option (List UInt8) :=
  Graphics.extractSpsPps data

/-- A new encoder. Its first picture stands on its own. -/
def create (c : VaapiConfig) (pools : VaapiPools) : VaapiEncoder where
  toVaapiConfig := c
  toVaapiPools := pools
  currentInputSurface := 0
  currentReconSurface := 0
  currentCodedBuffer := 0
  lastRef := none
  cachedSpsPps := none
  frameCount := 0
  forceIdr := true

variable (e : VaapiEncoder)

/-- A keyframe is due by the count, or was asked for. -/
def isIdrFrame : Bool :=
  e.forceIdr || e.frameCount % e.idrInterval.toUInt64 = 0

/-- The bounds of the quantizer follow the preset. -/
def buildRateControlBuffers : List EncMiscParameter :=
  let (minQp, maxQp) : UInt32 × UInt32 := match e.preset with
    | .speed => (20, 45)
    | .balanced => (18, 40)
    | .quality => (15, 35)
  [.rateControl e.bitrateBps 100 1000 0 minQp 0 1 0 maxQp 0 0,
    .hrd (e.bitrateBps / 2) e.bitrateBps, .frameRate 30 0]

/-- The one slice of a frame. -/
def buildSliceParams (numMacroblocks : UInt32) (isIdr : Bool) (frameNum : UInt16) (poc : Int32) :
    EncSliceParameterBufferH264 where
  macroblockAddress := 0
  numMacroblocks := numMacroblocks
  macroblockInfo := VA_INVALID_ID
  sliceType := if isIdr then SLICE_TYPE_I else SLICE_TYPE_P
  picParameterSetId := 0
  idrPicId := frameNum
  picOrderCntLsb := poc.toUInt32.toUInt16
  numRefIdxActiveOverrideFlag := if !isIdr && e.lastRef.isSome then 1 else 0
  numRefIdxL0ActiveMinus1 := 0
  refPicList0 := references 32 e.lastRef isIdr
  refPicList1 := List.replicate 32 .unused

/-- The next surfaces and buffers of the pools. -/
def advance : VaapiEncoder :=
  { e with
    currentInputSurface := (e.currentInputSurface + 1) % e.inputSurfaces.length
    currentReconSurface := (e.currentReconSurface + 1) % e.reconSurfaces.length
    currentCodedBuffer := (e.currentCodedBuffer + 1) % e.codedBuffers.length }

/-- The number of a frame in its sequence, as the driver is told it. -/
def frameNum : UInt16 :=
  (e.frameCount % 65536).toUInt16

/-- The order of display. It counts fields, two for each frame. -/
def poc : Int32 :=
  (e.frameCount * 2).toUInt32.toInt32

/-- Where the picture is made that the next frame refers to. -/
def reconSurface : UInt32 :=
  e.reconSurfaces.getD e.currentReconSurface 0

/-- The buffers of a picture, which go to the surfaces that are next. -/
def render (isIdr : Bool) (lastRef : Option DpbEntry) : Rendered where
  isIdr := isIdr
  input := e.inputSurfaces.getD e.currentInputSurface 0
  seq := if isIdr then some (e.buildSequenceParams e.mbWidth.toUInt16 e.mbHeight.toUInt16) else none
  rateControl := if isIdr then e.buildRateControlBuffers else []
  pic := e.buildPictureParams lastRef e.reconSurface (e.codedBuffers.getD e.currentCodedBuffer 0)
    isIdr e.frameNum e.poc
  slice := { e with lastRef }.buildSliceParams (e.mbWidth * e.mbHeight) isIdr e.frameNum e.poc

/-- The operations up to the rendering. A picture that stands on its own has further buffers. -/
def renderOps (isIdr : Bool) : List VaOp :=
  (if isIdr then [.createSeqBuffer, .createRateControlBuffer 0, .createRateControlBuffer 1,
    .createRateControlBuffer 2] else []) ++
    [.createPicBuffer, .createSliceBuffer, .beginPicture, .renderPicture]

/-- Puts the parameter sets in front of the coded bytes: in front of a picture that stands on its
own unless the driver has written both, and in front of any other those of the last such picture. -/
def withHeaders (isIdr : Bool) (coded : List UInt8) : List UInt8 × Option (List UInt8) :=
  if isIdr then
    let hasSps := containsNalType coded 7
    let hasPps := containsNalType coded 8
    let coded := if !hasSps || !hasPps then e.buildParameterSets ++ coded else coded
    (coded, extractSpsPps coded)
  else
    match e.cachedSpsPps with
    | some parameterSets => (parameterSets ++ coded, e.cachedSpsPps)
    | none => (coded, e.cachedSpsPps)

/-- `VaapiEncoder::encode_bgra`. A frame that fails is not counted, but the surfaces are not used
again at once. -/
def encodeBgra (call : VaapiCall) : VaapiEncoder × CallEnd :=
  if call.width ≠ e.width ∨ call.height ≠ e.height then
    (e, .refused (.invalidDimensions call.width call.height
      ("resolution mismatch: encoder configured for " ++ toString e.width ++ "x" ++
        toString e.height)))
  else if call.length < (call.width * call.height * 4).toNat then
    (e, .refused (.invalidDimensions call.width call.height
      ("buffer too small: " ++ toString call.length ++ " < " ++
        toString (call.width * call.height * 4) ++ " bytes")))
  else
    let isIdr := e.isIdrFrame
    let moved := e.advance
    match call.driver.run [.createImage] with
    | some error => (moved, .lost none error)
    | none =>
      -- a picture that stands on its own empties the list of references first
      let moved := if isIdr then { moved with lastRef := none } else moved
      match call.driver.run (renderOps isIdr) with
      | some error => (moved, .lost none error)
      | none =>
        let rendered := e.render isIdr moved.lastRef
        match call.driver.run [.endPicture, .syncSurface] with
        | some error => (moved, .lost (some rendered) error)
        | none =>
          let synced :=
            { moved with lastRef := some ⟨e.reconSurface, e.frameNum, e.poc⟩ }
          match call.driver.run [.mapCodedBuffer] with
          | some error => (synced, .unmapped rendered error)
          | none =>
            let (data, cached) := e.withHeaders isIdr call.driver.coded
            ({ synced with
                cachedSpsPps := cached
                forceIdr := false
                frameCount := e.frameCount + 1 },
              .returned rendered ⟨data, isIdr, call.timestampMs, data.length⟩)

/-- The next frame is a keyframe. -/
def forceKeyframe : VaapiEncoder :=
  { e with forceIdr := true }

end VaapiEncoder

/-! ### Runs -/

/-- What is asked of an encoder. -/
inductive VaapiEvent where
  | encode (call : VaapiCall)
  | forceKeyframe

/-- Calls one after the other. Each of them ends in some way. -/
def VaapiEncoder.machine : Machine VaapiEncoder VaapiEvent CallEnd where
  step e
    | .encode call => ((e.encodeBgra call).1, [(e.encodeBgra call).2])
    | .forceKeyframe => (e.forceKeyframe, [])

/-- The calls lost since a surface was last synchronised. -/
def lostSinceSync (lost : ℕ) : CallEnd → ℕ
  | .refused _ => lost
  | .lost _ _ => lost + 1
  | .unmapped _ _ => 0
  | .returned _ _ => 0

/-- Whether the coded bytes of the last synchronised picture could not be had. -/
def lastUnmapped (unmapped : Bool) : CallEnd → Bool
  | .refused _ => unmapped
  | .lost _ _ => unmapped
  | .unmapped _ _ => true
  | .returned _ _ => false

/-! ### One call -/

namespace VaapiEncoder

variable (e : VaapiEncoder)

/-- What the driver is given to render. A picture that stands on its own has no reference. -/
def picture : Rendered :=
  e.render e.isIdrFrame (if e.isIdrFrame then none else e.lastRef)

/-- What is kept of a picture to predict the next one from. -/
def entry : DpbEntry :=
  ⟨e.reconSurface, e.frameNum, e.poc⟩

/-- The encoder and the end of a call, in each of the cases. -/
inductive EncodeStep (call : VaapiCall) : VaapiEncoder × CallEnd → Prop
  | refused (error : HardwareEncoderError) : EncodeStep call (e, .refused error)
  | lost (lastRef : Option DpbEntry) (rendered : Option Rendered) (error : HardwareEncoderError)
      (href : lastRef = e.lastRef ∨ lastRef = none ∧ e.isIdrFrame = true)
      (hrendered : ∀ r ∈ rendered, r = e.picture) :
      EncodeStep call ({ e.advance with lastRef }, .lost rendered error)
  | unmapped (error : HardwareEncoderError) :
      EncodeStep call ({ e.advance with lastRef := some e.entry }, .unmapped e.picture error)
  | returned (data : List UInt8) (cached : Option (List UInt8))
      (hdata : e.withHeaders e.isIdrFrame call.driver.coded = (data, cached)) :
      EncodeStep call
        ({ e.advance with
            lastRef := some e.entry
            cachedSpsPps := cached
            forceIdr := false
            frameCount := e.frameCount + 1 },
          .returned e.picture ⟨data, e.isIdrFrame, call.timestampMs, data.length⟩)

theorem encodeStep (call : VaapiCall) : e.EncodeStep call (e.encodeBgra call) := by
  have hmoved : (if e.isIdrFrame then { e.advance with lastRef := none } else e.advance) =
      { e.advance with lastRef := if e.isIdrFrame then none else e.lastRef } := by
    split <;> rfl
  have href : (if e.isIdrFrame then none else e.lastRef) = e.lastRef ∨
      (if e.isIdrFrame then none else e.lastRef) = none ∧ e.isIdrFrame = true := by
    cases e.isIdrFrame
    · exact Or.inl rfl
    · exact Or.inr ⟨rfl, rfl⟩
  rw [encodeBgra]
  split
  · exact .refused _
  split
  · exact .refused _
  dsimp only
  split
  · exact .lost e.lastRef none _ (Or.inl rfl) (fun _ h => absurd h (Option.not_mem_none _))
  rw [hmoved]
  split
  · exact .lost _ none _ href (fun _ h => absurd h (Option.not_mem_none _))
  split
  · exact .lost _ (some e.picture) _ href fun r h => (Option.mem_some_iff.mp h).symm
  split
  · exact .unmapped _
  · exact .returned _ _ rfl

theorem length_recon_eq : e.reconSurfaces.length = 2 :=
  e.length_recon

theorem frameNum_eq : e.frameNum = e.frameCount.toUInt16 := by
  rw [frameNum, ← UInt16.toNat_inj, UInt64.toNat_toUInt16, UInt64.toNat_toUInt16, UInt64.toNat_mod]
  show e.frameCount.toNat % 65536 % 65536 = e.frameCount.toNat % 65536
  exact Nat.mod_mod _ _

end VaapiEncoder

/-! ### The reference -/

/-- Where the reference of an encoder is, after some lost calls. -/
structure Tracks (e : VaapiEncoder) (lost : ℕ) (unmapped : Bool) : Prop where
  recon : e.currentReconSurface < 2
  surface : ∀ entry, e.lastRef = some entry →
    entry.surfaceId = e.reconSurfaces.getD ((e.currentReconSurface + 1 + lost) % 2) 0
  frame : ∀ entry, e.lastRef = some entry → entry.frameNum = e.frameNum - if unmapped then 0 else 1
  idr : e.isIdrFrame = false → e.lastRef.isSome

theorem tracks_create (c : VaapiConfig) (pools : VaapiPools) :
    Tracks (VaapiEncoder.create c pools) 0 false where
  recon := Nat.two_pos
  surface _ h := absurd h (Option.some_ne_none _).symm
  frame _ h := absurd h (Option.some_ne_none _).symm
  idr h := absurd h Bool.noConfusion

theorem Tracks.forceKeyframe {e : VaapiEncoder} {lost : ℕ} {unmapped : Bool}
    (h : Tracks e lost unmapped) : Tracks e.forceKeyframe lost unmapped where
  recon := h.recon
  surface := h.surface
  frame := h.frame
  idr hidr := absurd hidr Bool.noConfusion

/-- The next surface is the other one. -/
theorem Tracks.advance_recon {e : VaapiEncoder} {lost : ℕ} {unmapped : Bool}
    (_ : Tracks e lost unmapped) :
    e.advance.currentReconSurface = (e.currentReconSurface + 1) % 2 := by
  show (e.currentReconSurface + 1) % e.reconSurfaces.length = _
  rw [e.length_recon_eq]

theorem Tracks.encodeBgra {e : VaapiEncoder} {lost : ℕ} {unmapped : Bool}
    (h : Tracks e lost unmapped) (call : VaapiCall) :
    Tracks (e.encodeBgra call).1 (lostSinceSync lost (e.encodeBgra call).2)
      (lastUnmapped unmapped (e.encodeBgra call).2) := by
  have hstep := e.encodeStep call
  have hnext := h.advance_recon
  have hrecon := h.recon
  have hentry : e.entry.surfaceId =
      e.reconSurfaces.getD (((e.currentReconSurface + 1) % 2 + 1 + 0) % 2) 0 := by
    have hindex : ((e.currentReconSurface + 1) % 2 + 1 + 0) % 2 = e.currentReconSurface := by
      omega
    rw [hindex]
    rfl
  generalize e.encodeBgra call = r at hstep ⊢
  cases hstep with
  | refused error => exact h
  | lost lastRef rendered error href =>
    obtain rfl | ⟨rfl, hidr⟩ := href
    · refine ⟨by rw [hnext]; omega, fun entry hlast => ?_, h.frame, h.idr⟩
      have hindex : ((e.currentReconSurface + 1) % 2 + 1 + (lost + 1)) % 2 =
          (e.currentReconSurface + 1 + lost) % 2 := by
        omega
      show entry.surfaceId =
        e.reconSurfaces.getD ((e.advance.currentReconSurface + 1 + (lost + 1)) % 2) 0
      rw [hnext, hindex]
      exact h.surface entry hlast
    · exact ⟨by rw [hnext]; omega, fun _ hlast => absurd hlast (Option.some_ne_none _).symm,
        fun _ hlast => absurd hlast (Option.some_ne_none _).symm,
        fun hnot => absurd (hidr.symm.trans hnot) Bool.noConfusion⟩
  | unmapped error =>
    refine ⟨by rw [hnext]; omega, fun entry hlast => ?_, fun entry hlast => ?_, fun _ => rfl⟩
    · rw [← Option.some_inj.mp hlast, hentry, ← hnext]
      rfl
    · rw [← Option.some_inj.mp hlast]
      exact (UInt16.sub_zero _).symm
  | returned data cached hdata =>
    refine ⟨by rw [hnext]; omega, fun entry hlast => ?_, fun entry hlast => ?_, fun _ => rfl⟩
    · rw [← Option.some_inj.mp hlast, hentry, ← hnext]
      rfl
    · rw [← Option.some_inj.mp hlast, VaapiEncoder.frameNum_eq]
      show e.frameNum = (e.frameCount + 1).toUInt16 - 1
      rw [UInt64.toUInt16_add, VaapiEncoder.frameNum_eq]
      exact (UInt16.add_sub_cancel _ _).symm

/-- **The reference, after any calls.** By turns with the calls lost since it was reconstructed, it
is in the surface that is next or in the other one. -/
theorem Tracks.exec {e : VaapiEncoder} {lost : ℕ} {unmapped : Bool} (h : Tracks e lost unmapped)
    (events : List VaapiEvent) :
    Tracks (VaapiEncoder.machine.exec e events)
      ((VaapiEncoder.machine.trace e events).foldl lostSinceSync lost)
      ((VaapiEncoder.machine.trace e events).foldl lastUnmapped unmapped) := by
  induction events generalizing e lost unmapped with
  | nil => exact h
  | cons event events ih =>
    cases event with
    | encode call => exact ih (h.encodeBgra call)
    | forceKeyframe => exact ih h.forceKeyframe

/-- What is rendered is the picture of the encoder, however the call ends. -/
theorem eq_picture_of_rendered {e : VaapiEncoder} {call : VaapiCall} {r : Rendered}
    (h : (e.encodeBgra call).2.rendered = some r) : r = e.picture := by
  have hstep := e.encodeStep call
  generalize e.encodeBgra call = result at h hstep
  cases hstep with
  | refused error => cases h
  | lost lastRef rendered error href hrendered => exact hrendered r (Option.mem_def.mpr h)
  | unmapped error => exact (Option.some_inj.mp h).symm
  | returned data cached hdata => exact (Option.some_inj.mp h).symm

/-- The two surfaces are different ones. -/
theorem recon_eq_iff (e : VaapiEncoder) {i j : ℕ} (hi : i < 2) (hj : j < 2) :
    e.reconSurfaces.getD i 0 = e.reconSurfaces.getD j 0 ↔ i = j := by
  have hi : i < e.reconSurfaces.length := by rw [e.length_recon_eq]; exact hi
  have hj : j < e.reconSurfaces.length := by rw [e.length_recon_eq]; exact hj
  rw [List.getD_eq_getElem _ _ hi, List.getD_eq_getElem _ _ hj]
  exact e.nodup_recon.getElem_inj_iff

/-- **What a predicted picture refers to.** In every run, the driver is given exactly one reference
for a picture that does not stand on its own. The surface it is told to write is that of the
reference if and only if an odd number of calls was lost since the reference was reconstructed, and
the picture has the number of its reference if and only if the coded bytes of that one could not be
had. -/
theorem reference_of_rendered (c : VaapiConfig) (pools : VaapiPools) (events : List VaapiEvent)
    (call : VaapiCall) {r : Rendered}
    (hr : ((VaapiEncoder.machine.exec (VaapiEncoder.create c pools) events).encodeBgra
      call).2.rendered = some r) (hidr : r.isIdr = false) :
    ∃ entry : DpbEntry,
      r.pic.referenceFrames = entry.picture :: List.replicate 15 .unused ∧
      r.slice.refPicList0 = entry.picture :: List.replicate 31 .unused ∧
      (entry.surfaceId = r.pic.currPic.pictureId ↔
        (VaapiEncoder.machine.trace (VaapiEncoder.create c pools) events).foldl lostSinceSync 0 % 2
          = 1) ∧
      (entry.frameNum = r.pic.frameNum ↔
        (VaapiEncoder.machine.trace (VaapiEncoder.create c pools) events).foldl lastUnmapped
          false = true) := by
  have htracks := (tracks_create c pools).exec events
  generalize VaapiEncoder.machine.exec (VaapiEncoder.create c pools) events = e at hr htracks
  generalize (VaapiEncoder.machine.trace (VaapiEncoder.create c pools) events).foldl
    lostSinceSync 0 = lost at htracks ⊢
  generalize (VaapiEncoder.machine.trace (VaapiEncoder.create c pools) events).foldl
    lastUnmapped false = unmapped at htracks ⊢
  obtain rfl := eq_picture_of_rendered hr
  have hidr : e.isIdrFrame = false := hidr
  obtain ⟨entry, hentry⟩ := Option.isSome_iff_exists.mp (htracks.idr hidr)
  have hlast : (if e.isIdrFrame then none else e.lastRef) = some entry := by
    rw [hidr, ← hentry]
    rfl
  have hrecon := htracks.recon
  refine ⟨entry, ?_, ?_, ?_, ?_⟩
  · show references 16 (if e.isIdrFrame then none else e.lastRef) e.isIdrFrame = _
    rw [hlast, hidr]
    rfl
  · show references 32 (if e.isIdrFrame then none else e.lastRef) e.isIdrFrame = _
    rw [hlast, hidr]
    rfl
  · show entry.surfaceId = e.reconSurfaces.getD e.currentReconSurface 0 ↔ _
    rw [htracks.surface entry hentry, recon_eq_iff e (Nat.mod_lt _ Nat.two_pos) hrecon]
    omega
  · show entry.frameNum = e.frameNum ↔ _
    rw [htracks.frame entry hentry]
    cases unmapped
    · refine iff_of_false (fun h => ?_) Bool.noConfusion
      have hlt := e.frameNum.toNat_lt
      have hnat := congrArg UInt16.toNat h
      rw [UInt16.toNat_sub] at hnat
      have hone : (2 ^ 16 - 1 + e.frameNum.toNat) % 2 ^ 16 = e.frameNum.toNat := hnat
      omega
    · exact iff_of_true (UInt16.sub_zero _) rfl

theorem macroblock_ne_zero : (16 : UInt32) ≠ 0 := by decide

theorem macroblock_even : (16 : UInt32) % 2 = 0 := by decide

theorem high_profile : (100 : UInt8) = 100 ∨ (100 : UInt8) = 77 := .inl rfl

/-- A config of one macroblock, for a run on fixed inputs. -/
def VaapiConfig.single : VaapiConfig where
  width := 16
  height := 16
  profileIdc := 100
  preset := .speed
  width_ne := macroblock_ne_zero
  height_ne := macroblock_ne_zero
  width_even := macroblock_even
  height_even := macroblock_even
  profile := high_profile

/-- Surfaces and buffers with numbers of their own. -/
def VaapiPools.numbered : VaapiPools where
  inputSurfaces := [1, 2, 3]
  reconSurfaces := [4, 5]
  codedBuffers := [6, 7, 8]
  length_input := rfl
  length_recon := rfl
  length_coded := rfl
  nodup_recon := by decide

/-- A call whose driver does everything and codes one slice. -/
def VaapiCall.single : VaapiCall where
  length := 1024
  width := 16
  height := 16
  timestampMs := 0
  driver := ⟨fun _ => none, [[0, 0, 1, 0x65]]⟩

/-- A call that the driver does not begin. -/
def VaapiCall.lost : VaapiCall :=
  { single with driver := ⟨fun op => if op = .beginPicture then some "busy" else none, []⟩ }

/-- After one lost call a picture is to be written over its reference. -/
theorem reference_of_rendered_lost :
    ∃ (r : Rendered) (entry : DpbEntry), r.isIdr = false ∧
      r.pic.referenceFrames = entry.picture :: List.replicate 15 .unused ∧
      entry.surfaceId = r.pic.currPic.pictureId := by
  obtain ⟨entry, hframes, -, hsurface, -⟩ :=
    reference_of_rendered .single .numbered [.encode .single, .encode .lost] .single
      (r := (VaapiEncoder.machine.exec (VaapiEncoder.create .single .numbered)
        [.encode .single, .encode .lost]).picture) rfl rfl
  exact ⟨_, entry, rfl, hframes, hsurface.mpr rfl⟩

/-! ### The parameter sets of a frame -/

theorem containsNalTypeFrom_step {data : List UInt8} {wanted : UInt8} {i : ℕ}
    (h : ¬ StartsUnit (data.drop i)) :
    containsNalTypeFrom data wanted i = containsNalTypeFrom data wanted (i + 1) := by
  rw [StartsUnit, not_or] at h
  by_cases hi : i + 3 < data.length
  · rw [containsNalTypeFrom, if_pos hi, if_neg h.2, if_neg h.1]
  · rw [containsNalTypeFrom, if_neg hi, containsNalTypeFrom, if_neg (by omega)]

/-- The scanner finds the types of the units, and no others. -/
theorem containsNalTypeFrom_stream {data : List UInt8} (wanted : UInt8) {i : ℕ}
    {units : List NalUnit} (h : data.drop i = stream units) :
    containsNalTypeFrom data wanted i = units.any fun u => u.kind = wanted := by
  induction units generalizing i with
  | nil =>
    have hi : data.length ≤ i := List.drop_eq_nil_iff.mp h
    rw [containsNalTypeFrom, if_neg (by omega)]
    rfl
  | cons u units ih =>
    rw [stream_cons] at h
    have hpayload := drop_add h
    have hnext := drop_add hpayload
    have hpos := List.length_pos_of_ne_nil u.payload_ne_nil
    have hthree := u.three_le_length
    have hlength : i + u.startCode.length < data.length := by
      have hall := congrArg List.length h
      rw [List.length_drop, List.length_append, List.length_append] at hall
      omega
    have hkind : data.getD (i + u.startCode.length) 0 &&& 0x1F = u.kind := by
      rw [List.getD_eq_getElem?_getD, ← List.head?_drop, hpayload,
        List.head?_append_of_ne_nil _ u.payload_ne_nil, List.head?_eq_some_head u.payload_ne_nil]
      rfl
    have hscan : containsNalTypeFrom data wanted i =
        if u.kind = wanted then true
        else containsNalTypeFrom data wanted (i + u.startCode.length) := by
      rw [containsNalTypeFrom, if_pos (by omega), h]
      rw [startCode] at hlength hkind ⊢
      split at hlength
      · rename_i hlong
        rw [if_pos hlong] at hkind ⊢
        have hlt : i + 4 < data.length := hlength
        have hkind : data.getD (i + 4) 0 &&& 0x1F = u.kind := hkind
        rw [if_pos (List.prefix_append _ _), hkind]
        exact if_congr (and_iff_right hlt) rfl rfl
      · rename_i hlong
        rw [if_neg hlong] at hkind ⊢
        have hlt : i + 3 < data.length := hlength
        have hkind : data.getD (i + 3) 0 &&& 0x1F = u.kind := hkind
        rw [if_neg (by simp [List.cons_prefix_cons]), if_pos (List.prefix_append _ _), hkind]
        exact if_congr (and_iff_right hlt) rfl rfl
    rw [hscan, List.any_cons, scan_quiet (fun _ _ => containsNalTypeFrom_step) u.quiet_payload
      hpayload, ih hnext]
    by_cases hwanted : u.kind = wanted
    · rw [if_pos hwanted, decide_eq_true hwanted, Bool.true_or]
    · rw [if_neg hwanted, decide_eq_false hwanted, Bool.false_or]

namespace VaapiEncoder

theorem containsNalType_stream (units : List NalUnit) (wanted : UInt8) :
    containsNalType (stream units) wanted = true ↔ ∃ u ∈ units, u.kind = wanted := by
  rw [containsNalType, containsNalTypeFrom_stream wanted rfl, List.any_eq_true]
  simp only [decide_eq_true_eq]

end VaapiEncoder

/-- Units among which there are both parameter sets. -/
def Complete (units : List NalUnit) : Prop :=
  (∃ u ∈ units, u.kind = 7) ∧ ∃ u ∈ units, u.kind = 8

theorem Complete.append_left {units : List NalUnit} (h : Complete units) (more : List NalUnit) :
    Complete (units ++ more) := by
  obtain ⟨⟨s, hs, hsKind⟩, ⟨p, hp, hpKind⟩⟩ := h
  exact ⟨⟨s, List.mem_append_left more hs, hsKind⟩, ⟨p, List.mem_append_left more hp, hpKind⟩⟩

theorem Complete.filter {units : List NalUnit} (h : Complete units) :
    Complete (units.filter IsParameterSet) := by
  obtain ⟨⟨s, hs, hsKind⟩, ⟨p, hp, hpKind⟩⟩ := h
  refine ⟨⟨s, List.mem_filter.mpr ⟨hs, ?_⟩, hsKind⟩, ⟨p, List.mem_filter.mpr ⟨hp, ?_⟩, hpKind⟩⟩
  · exact decide_eq_true (Or.inl hsKind)
  · exact decide_eq_true (Or.inr hpKind)

theorem extractSpsPps_complete {units : List NalUnit} (h : Complete units) :
    VaapiEncoder.extractSpsPps (stream units) = some (stream (units.filter IsParameterSet)) := by
  obtain ⟨⟨s, hs, -⟩, -⟩ := h.filter
  rw [VaapiEncoder.extractSpsPps, extractSpsPps_stream, if_neg (List.ne_nil_of_mem hs)]

/-- The last frame that was returned with a picture that stands on its own. -/
def lastKeyframe (key : Option Hardware.H264Frame) : CallEnd → Option Hardware.H264Frame
  | .returned _ frame => if frame.isKeyframe then some frame else key
  | .refused _ | .lost _ _ | .unmapped _ _ => key

/-- What is put in front of a picture that does not stand on its own: the parameter sets among the
units of the last frame that did. -/
structure Headers (e : VaapiEncoder) (key : Option Hardware.H264Frame) (units : List NalUnit) :
    Prop where
  key : ∃ frame, key = some frame ∧ frame.data = stream units
  complete : Complete units
  cached : e.cachedSpsPps = some (stream (units.filter IsParameterSet))

/-- A picture that does not stand on its own gets the cached parameter sets. -/
theorem Headers.withHeaders {e : VaapiEncoder} {key : Option Hardware.H264Frame}
    {units : List NalUnit} (h : Headers e key units) (coded : List NalUnit) :
    e.withHeaders false (stream coded) =
      (stream (units.filter IsParameterSet ++ coded), e.cachedSpsPps) := by
  rw [VaapiEncoder.withHeaders, if_neg Bool.noConfusion, h.cached, stream_append]

/-- A picture that stands on its own keeps what the driver has coded if both parameter sets are
among it, and gets those of the encoder otherwise. The sets are cached. -/
theorem withHeaders_key (e : VaapiEncoder) (coded : List NalUnit) :
    ∃ front : List NalUnit,
      (Complete coded → front = []) ∧ (¬ Complete coded → stream front = e.buildParameterSets) ∧
      (∀ u ∈ front, IsParameterSet u) ∧ Complete (front ++ coded) ∧
      e.withHeaders true (stream coded) =
        (stream (front ++ coded), some (stream ((front ++ coded).filter IsParameterSet))) := by
  have hfinish : ∀ front : List NalUnit, Complete (front ++ coded) →
      (if !VaapiEncoder.containsNalType (stream coded) 7 ||
        !VaapiEncoder.containsNalType (stream coded) 8 then
          e.buildParameterSets ++ stream coded else stream coded) = stream (front ++ coded) →
      e.withHeaders true (stream coded) =
        (stream (front ++ coded), some (stream ((front ++ coded).filter IsParameterSet))) := by
    intro front hcomplete hdata
    rw [VaapiEncoder.withHeaders, if_pos rfl]
    dsimp only
    rw [hdata, extractSpsPps_complete hcomplete]
  by_cases hboth : Complete coded
  · refine ⟨[], fun _ => rfl, fun hnot => absurd hboth hnot, fun _ hu => absurd hu List.not_mem_nil,
      hboth, hfinish [] hboth ?_⟩
    rw [(VaapiEncoder.containsNalType_stream coded 7).mpr hboth.1,
      (VaapiEncoder.containsNalType_stream coded 8).mpr hboth.2]
    rfl
  · obtain ⟨spsUnit, ppsUnit, hsets, hsps, hpps, -, -⟩ :=
      e.toVaapiConfig.exists_units_buildParameterSets
    have hcomplete : Complete ([spsUnit, ppsUnit] ++ coded) :=
      Complete.append_left ⟨⟨spsUnit, List.mem_cons_self, hsps⟩,
        ⟨ppsUnit, List.mem_cons_of_mem _ List.mem_cons_self, hpps⟩⟩ coded
    refine ⟨[spsUnit, ppsUnit], fun hcoded => absurd hcoded hboth, fun _ => hsets.symm, ?_,
      hcomplete, hfinish _ hcomplete ?_⟩
    · intro u hu
      obtain rfl | hu := List.mem_cons.mp hu
      · exact Or.inl hsps
      · rw [List.mem_singleton.mp hu]
        exact Or.inr hpps
    · have hmissing : (!VaapiEncoder.containsNalType (stream coded) 7 ||
          !VaapiEncoder.containsNalType (stream coded) 8) = true := by
        rw [Bool.or_eq_true, Bool.not_eq_true', Bool.not_eq_true', ← Bool.not_eq_true,
          ← Bool.not_eq_true, VaapiEncoder.containsNalType_stream,
          VaapiEncoder.containsNalType_stream, ← not_and_or]
        exact hboth
      rw [if_pos hmissing, stream_append, ← hsets]

/-- The driver codes units. -/
def VaapiEvent.CodesUnits : VaapiEvent → Prop
  | encode call => ∃ coded : List NalUnit, call.driver.coded = stream coded
  | forceKeyframe => True

/-- A call keeps the headers: those of the last picture that stood on its own. -/
theorem headers_encodeBgra {e : VaapiEncoder} {key : Option Hardware.H264Frame}
    (h : e.isIdrFrame = false → ∃ units, Headers e key units)
    {call : VaapiCall} (hcall : VaapiEvent.CodesUnits (.encode call))
    (hidr : (e.encodeBgra call).1.isIdrFrame = false) :
    ∃ units, Headers (e.encodeBgra call).1 (lastKeyframe key (e.encodeBgra call).2) units := by
  obtain ⟨coded, hcoded⟩ := hcall
  have hstep := e.encodeStep call
  generalize e.encodeBgra call = result at hidr hstep ⊢
  cases hstep with
  | refused error => exact h hidr
  | lost lastRef rendered error href =>
    obtain ⟨units, hunits⟩ := h hidr
    exact ⟨units, hunits.key, hunits.complete, hunits.cached⟩
  | unmapped error =>
    obtain ⟨units, hunits⟩ := h hidr
    exact ⟨units, hunits.key, hunits.complete, hunits.cached⟩
  | returned data cached hdata =>
    rw [hcoded] at hdata
    cases hkey : e.isIdrFrame with
    | true =>
      rw [hkey] at hdata
      obtain ⟨front, -, -, -, hcomplete, hwith⟩ := withHeaders_key e coded
      obtain ⟨hdata', hcached⟩ := Prod.mk.inj (hdata.symm.trans hwith)
      exact ⟨front ++ coded, ⟨_, rfl, hdata'⟩, hcomplete, hcached⟩
    | false =>
      rw [hkey] at hdata
      obtain ⟨units, hunits⟩ := h hkey
      obtain ⟨-, hcached⟩ := Prod.mk.inj (hdata.symm.trans (hunits.withHeaders coded))
      exact ⟨units, hunits.key, hunits.complete, hcached.trans hunits.cached⟩

theorem headers_exec {e : VaapiEncoder} {key : Option Hardware.H264Frame}
    (h : e.isIdrFrame = false → ∃ units, Headers e key units) {events : List VaapiEvent}
    (hevents : ∀ event ∈ events, event.CodesUnits) :
    (VaapiEncoder.machine.exec e events).isIdrFrame = false →
      ∃ units, Headers (VaapiEncoder.machine.exec e events)
        ((VaapiEncoder.machine.trace e events).foldl lastKeyframe key) units := by
  induction events generalizing e key with
  | nil => exact h
  | cons event events ih =>
    have hrest : ∀ event ∈ events, event.CodesUnits :=
      fun event hmem => hevents event (List.mem_cons_of_mem _ hmem)
    cases event with
    | encode call =>
      exact ih (headers_encodeBgra h (hevents _ List.mem_cons_self)) hrest
    | forceKeyframe =>
      exact ih (e := e.forceKeyframe) (fun hidr => absurd hidr Bool.noConfusion) hrest

/-- No call changes the configuration. -/
theorem config_exec (e : VaapiEncoder) (events : List VaapiEvent) :
    (VaapiEncoder.machine.exec e events).toVaapiConfig = e.toVaapiConfig := by
  induction events generalizing e with
  | nil => rfl
  | cons event events ih =>
    cases event with
    | encode call =>
      have hstep := e.encodeStep call
      have hnext : (e.encodeBgra call).1.toVaapiConfig = e.toVaapiConfig := by
        generalize e.encodeBgra call = result at hstep ⊢
        cases hstep with
        | refused error => rfl
        | lost lastRef rendered error href hrendered => rfl
        | unmapped error => rfl
        | returned data cached hdata => rfl
      exact (ih _).trans hnext
    | forceKeyframe => exact ih e.forceKeyframe

/-- **Every frame carries the parameter sets.** In every run in which the driver codes units, a
frame that is returned is a stream of units: parameter sets and nothing else in front of what the
driver has coded, and both of them are among the units. On a picture that stands on its own those
in front are none, if the driver has coded both, or those that the encoder builds; on any other they
are those of the last frame returned with a picture that stands on its own. So a client can begin
with any frame whose picture does. -/
theorem returned_frames (c : VaapiConfig) (pools : VaapiPools) {events : List VaapiEvent}
    (hevents : ∀ event ∈ events, event.CodesUnits) {call : VaapiCall} (coded : List NalUnit)
    (hcoded : call.driver.coded = stream coded) {r : Rendered} {frame : Hardware.H264Frame}
    (hframe : ((VaapiEncoder.machine.exec (VaapiEncoder.create c pools) events).encodeBgra
      call).2 = .returned r frame) :
    frame.isKeyframe = r.isIdr ∧ frame.timestampMs = call.timestampMs ∧
      frame.size = frame.data.length ∧
      ∃ front : List NalUnit, frame.data = stream (front ++ coded) ∧
        (∀ u ∈ front, IsParameterSet u) ∧ (∃ u ∈ front ++ coded, u.kind = 7) ∧
        (∃ u ∈ front ++ coded, u.kind = 8) ∧
        (r.isIdr = true →
          (Complete coded → front = []) ∧
          (¬ Complete coded → stream front = c.buildParameterSets)) ∧
        (r.isIdr = false → ∃ key units, front = units.filter IsParameterSet ∧
          key.data = stream units ∧
          (VaapiEncoder.machine.trace (VaapiEncoder.create c pools) events).foldl lastKeyframe
            none = some key) := by
  have hfresh : (VaapiEncoder.create c pools).isIdrFrame = false →
      ∃ units, Headers (VaapiEncoder.create c pools) none units :=
    fun hidr => absurd hidr Bool.noConfusion
  have hheaders := headers_exec hfresh hevents
  have hconfig : (VaapiEncoder.machine.exec (VaapiEncoder.create c pools) events).toVaapiConfig =
      c := config_exec (VaapiEncoder.create c pools) events
  generalize VaapiEncoder.machine.exec (VaapiEncoder.create c pools) events = e
    at hframe hheaders hconfig
  have hstep := e.encodeStep call
  generalize e.encodeBgra call = result at hframe hstep
  cases hstep with
  | refused error => cases hframe
  | lost lastRef rendered error href hrendered => cases hframe
  | unmapped error => cases hframe
  | returned data cached hdata =>
    rw [hcoded] at hdata
    cases hframe
    have hisIdr : e.picture.isIdr = e.isIdrFrame := rfl
    refine ⟨rfl, rfl, rfl, ?_⟩
    cases hkey : e.isIdrFrame with
    | true =>
      rw [hkey] at hdata
      obtain ⟨front, hown, hbuilt, hsets, hcomplete, hwith⟩ := withHeaders_key e coded
      obtain ⟨hdata', -⟩ := Prod.mk.inj (hdata.symm.trans hwith)
      rw [hconfig] at hbuilt
      refine ⟨front, hdata', hsets, hcomplete.1, hcomplete.2, fun _ => ⟨hown, hbuilt⟩,
        fun hnot => ?_⟩
      exact absurd ((hisIdr.trans hkey).symm.trans hnot) Bool.noConfusion
    | false =>
      rw [hkey] at hdata
      obtain ⟨units, hunits⟩ := hheaders hkey
      obtain ⟨key, hlast, hunitsData⟩ := hunits.key
      obtain ⟨hdata', -⟩ := Prod.mk.inj (hdata.symm.trans (hunits.withHeaders coded))
      have hcomplete := hunits.complete.filter.append_left coded
      refine ⟨units.filter IsParameterSet, hdata', ?_, hcomplete.1, hcomplete.2, fun hyes => ?_,
        fun _ => ⟨key, units, rfl, hunitsData, hlast⟩⟩
      · exact fun u hu => of_decide_eq_true (List.mem_filter.mp hu).2
      · exact absurd ((hisIdr.trans hkey).symm.trans hyes) Bool.noConfusion

/-- The unit that the driver codes on fixed inputs. -/
def VaapiCall.unit : NalUnit where
  longCode := false
  payload := [0x65]
  payload_ne_nil := List.cons_ne_nil _ _
  clean := by decide
  last := by decide

theorem returned_frames_second :
    ∃ (r : Rendered) (frame key : Hardware.H264Frame) (front units : List NalUnit),
      ((VaapiEncoder.machine.exec (VaapiEncoder.create .single .numbered)
        [.encode .single]).encodeBgra .single).2 = .returned r frame ∧ r.isIdr = false ∧
      frame.data = stream (front ++ [VaapiCall.unit]) ∧
      (∃ u ∈ front ++ [VaapiCall.unit], u.kind = 7) ∧
      front = units.filter IsParameterSet ∧ key.data = stream units ∧
      (VaapiEncoder.machine.trace (VaapiEncoder.create .single .numbered)
        [.encode .single]).foldl lastKeyframe none = some key := by
  have hevents : ∀ event ∈ [VaapiEvent.encode .single], event.CodesUnits := by
    intro event hevent
    rw [List.mem_singleton.mp hevent]
    exact ⟨[VaapiCall.unit], rfl⟩
  have hframe : ((VaapiEncoder.machine.exec (VaapiEncoder.create .single .numbered)
      [.encode .single]).encodeBgra .single).2 = .returned _ _ := rfl
  obtain ⟨-, -, -, front, hdata, -, hsps, -, -, hlater⟩ :=
    returned_frames .single .numbered hevents [VaapiCall.unit] rfl hframe
  obtain ⟨key, units, hfront, hkey, hlast⟩ := hlater rfl
  exact ⟨_, _, key, front, units, hframe, rfl, hdata, hsps, hfront, hkey, hlast⟩

end Graphics

end Cheirizo
