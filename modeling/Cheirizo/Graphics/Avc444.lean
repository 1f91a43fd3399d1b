import Cheirizo.Clock
import Cheirizo.Graphics.Packing

/-!
# The AVC444 encoder

`egfx/h264/avc444/encoder.rs`. One H.264 encoder is given the main view of a frame and then, unless
it is left out, the auxiliary view. A frame comes with the parameter sets of the last keyframe put
in front of it.

## The shared encoder

The H.264 library is not modelled: each call of `encodeBgra` comes with what it answers for either
view, a bitstream, an empty one where its rate control skips the picture, or an error.

## Main definitions

* `precheckAuxStreamPolicy`, `shouldSendAux` — when the auxiliary view is encoded
* `extractSpsPps`, `handleSpsPps` — the parameter sets
* `encodeBgra` — one call

## Main results

* `encodeBgra_accepted`, `encodeBgra_refused` — a call encodes, or leaves the encoder as it is
* `shouldSendAux_snd` — the decision consumes the force flag
* `finish_frame` — what was put in front of a main stream can be taken off again
-/

namespace Cheirizo

namespace Graphics

/-! ### Parameter sets -/

/-- The length of the start code at a position. -/
def startCodeLen (data : List UInt8) (i : ℕ) : Option ℕ :=
  if i + 4 ≤ data.length ∧ (data.drop i).take 4 = [0x00, 0x00, 0x00, 0x01] then some 4
  else if i + 3 ≤ data.length ∧ (data.drop i).take 3 = [0x00, 0x00, 0x01] then some 3
  else none

/-- The position of the next start code, or the end. -/
def findNalEnd (data : List UInt8) (nalStart : ℕ) : ℕ :=
  ((List.range' (nalStart + 1) (data.length - 2 - (nalStart + 1))).find? fun j =>
    (data.drop j).take 3 = [0x00, 0x00, 0x01] ∨
      (j + 3 < data.length ∧ (data.drop j).take 4 = [0x00, 0x00, 0x00, 0x01])).getD data.length

theorem lt_findNalEnd {data : List UInt8} {nalStart : ℕ} (h : nalStart < data.length) :
    nalStart < findNalEnd data nalStart := by
  rw [findNalEnd]
  cases hfind : (List.range' (nalStart + 1) (data.length - 2 - (nalStart + 1))).find? fun j =>
    (data.drop j).take 3 = [0x00, 0x00, 0x01] ∨
      (j + 3 < data.length ∧ (data.drop j).take 4 = [0x00, 0x00, 0x00, 0x01]) with
  | none => exact h
  | some j =>
    have hj := List.mem_of_find?_eq_some hfind
    rw [List.mem_range'_1] at hj
    exact hj.1

/-- The parameter sets from a position on, after those found before it. -/
def extractFrom (data : List UInt8) (i : ℕ) (spsPps : List UInt8) : List UInt8 :=
  if hi : i < data.length then
    match startCodeLen data i with
    | none => extractFrom data (i + 1) spsPps
    | some startCode =>
      let nalStart := i + startCode
      if hnal : nalStart < data.length then
        let nalType := data[nalStart] &&& 0x1F
        let nalEnd := findNalEnd data nalStart
        let spsPps :=
          if nalType = 7 ∨ nalType = 8 then spsPps ++ (data.drop i).take (nalEnd - i) else spsPps
        if nalEnd = data.length then spsPps else extractFrom data nalEnd spsPps
      else spsPps
  else spsPps
termination_by data.length - i
decreasing_by
  · omega
  · have hend : i + startCode < findNalEnd data (i + startCode) := lt_findNalEnd hnal
    omega

/-- The sequence and picture parameter sets of a bitstream. -/
def extractSpsPps (data : List UInt8) : Option (List UInt8) :=
  let spsPps := extractFrom data 0 []
  if spsPps = [] then none else some spsPps

/-! ### State and answers -/

/-- What the shared encoder answers. -/
inductive Encoded where
  | failed (message : String)
  | bitstream (data : List UInt8) (keyframe : Bool)
  deriving DecidableEq, Repr

namespace Encoded

/-- The bitstreams an answer adds to what was produced: none if it is empty. -/
def produced : Encoded → List (List UInt8)
  | failed _ => []
  | bitstream data _ => if data = [] then [] else [data]

end Encoded

/-- Why there is no frame. -/
inductive EncoderError where
  | invalidDimensions (width height : UInt32)
  | encodeFailed (message : String)
  deriving DecidableEq, Repr

/-- A frame of two streams, of which the second may be left out. -/
structure Avc444Frame where
  stream1Data : List UInt8
  stream2Data : Option (List UInt8)
  isKeyframe : Bool
  timestampMs : UInt64
  totalSize : ℕ
  deriving DecidableEq, Repr

/-- What is kept from frame to frame. -/
structure Avc444Encoder where
  colorMatrix : ColorMatrix
  cachedSpsPps : Option (List UInt8)
  lastAuxHash : Option UInt64
  framesSinceAux : UInt32
  maxAuxInterval : UInt32
  enableAuxOmission : Bool
  lastIdrTime : Instant
  periodicIdrIntervalSecs : UInt32
  forceNextIdr : Bool
  forceAuxOnNextFrame : Bool
  deriving DecidableEq, Repr

/-- A call of `encodeBgra`, with the time it is made at and the answers of the shared encoder. -/
structure EncodeCall where
  bgraData : List UInt8
  width : UInt32
  height : UInt32
  timestampMs : UInt64
  now : Instant
  main : Encoded
  aux : Encoded
  deriving DecidableEq, Repr

/-! ### The policy for the auxiliary view -/

/-- For so many frames after one with an auxiliary view there is none. -/
def MIN_AUX_INTERVAL : UInt32 := 10

/-- What can be said before the content is looked at. -/
inductive AuxStreamPrecheck where
  | sendForced
  | sendOmissionDisabled
  | sendFirstFrame
  | sendMaxInterval
  | skipRateLimited
  | compareContentHash
  deriving DecidableEq, Repr

/-- The reasons in their order. -/
def precheckAuxStreamPolicy (forceAux omissionEnabled hasPreviousAux : Bool)
    (framesSinceAux maxAuxInterval : UInt32) : AuxStreamPrecheck :=
  if forceAux then .sendForced
  else if !omissionEnabled then .sendOmissionDisabled
  else if !hasPreviousAux then .sendFirstFrame
  else if maxAuxInterval ≤ framesSinceAux then .sendMaxInterval
  else if framesSinceAux < MIN_AUX_INTERVAL then .skipRateLimited
  else .compareContentHash

/-- The FNV-1a hash of the three planes. -/
def hashYuv420 (frame : Yuv420Frame) : UInt64 :=
  (frame.y ++ frame.u ++ frame.v).foldl
    (fun hash byte => (hash ^^^ byte.toUInt64) * 0x100000001b3) 0xcbf29ce484222325

namespace Avc444Encoder

/-- Until it is configured, the encoder sends every auxiliary view. -/
def new (colorMatrix : ColorMatrix) (now : Instant) : Avc444Encoder where
  colorMatrix
  cachedSpsPps := none
  lastAuxHash := none
  framesSinceAux := 0
  maxAuxInterval := 30
  enableAuxOmission := false
  lastIdrTime := now
  periodicIdrIntervalSecs := 5
  forceNextIdr := false
  forceAuxOnNextFrame := false

/-- An interval between one and 120 frames. -/
def configureAuxOmission (e : Avc444Encoder) (enable : Bool) (maxInterval : UInt32) :
    Avc444Encoder :=
  { e with
    enableAuxOmission := enable
    maxAuxInterval := min (max maxInterval 1) 120 }

/-- The interval counts from now on. -/
def configurePeriodicIdr (e : Avc444Encoder) (intervalSecs : UInt32) (now : Instant) :
    Avc444Encoder :=
  { e with periodicIdrIntervalSecs := intervalSecs, lastIdrTime := now }

/-- The next frame is to stand on its own. -/
def requestIdr (e : Avc444Encoder) : Avc444Encoder :=
  { e with forceNextIdr := true }

/-- Whether a refresh is due: one was requested, or the interval is over. -/
def isPeriodicIdrDue (e : Avc444Encoder) (now : Instant) : Bool :=
  e.forceNextIdr ||
    (0 < e.periodicIdrIntervalSecs &&
      seconds e.periodicIdrIntervalSecs.toNat ≤ now - e.lastIdrTime)

/-- A request comes before the interval. Either brings the auxiliary view along. -/
def shouldForceIdr (e : Avc444Encoder) (now : Instant) : Bool × Avc444Encoder :=
  if e.forceNextIdr then
    (true, { e with forceNextIdr := false, forceAuxOnNextFrame := true, lastIdrTime := now })
  else if 0 < e.periodicIdrIntervalSecs ∧
      seconds e.periodicIdrIntervalSecs.toNat ≤ now - e.lastIdrTime then
    (true, { e with lastIdrTime := now, forceAuxOnNextFrame := true })
  else (false, e)

/-- The same by the encoder's own state. -/
def precheck (e : Avc444Encoder) : AuxStreamPrecheck :=
  precheckAuxStreamPolicy e.forceAuxOnNextFrame e.enableAuxOmission e.lastAuxHash.isSome
    e.framesSinceAux e.maxAuxInterval

/-- A forced view is used up by being sent. One that is compared is sent if it has changed. -/
def shouldSendAux (e : Avc444Encoder) (auxFrame : Yuv420Frame) : Bool × Avc444Encoder :=
  match e.precheck with
  | .sendForced => (true, { e with forceAuxOnNextFrame := false })
  | .sendOmissionDisabled => (true, e)
  | .sendFirstFrame => (true, e)
  | .sendMaxInterval => (true, e)
  | .skipRateLimited => (false, e)
  | .compareContentHash => (e.lastAuxHash.any fun previous => hashYuv420 auxFrame ≠ previous, e)

/-- Keep the parameter sets of a keyframe; put those kept in front of any other picture. -/
def handleSpsPps (e : Avc444Encoder) (data : List UInt8) (isKeyframe : Bool) :
    List UInt8 × Avc444Encoder :=
  if isKeyframe then
    match extractSpsPps data with
    | some spsPps => (data, { e with cachedSpsPps := some spsPps })
    | none => (data, e)
  else
    match e.cachedSpsPps with
    | some spsPps => (spsPps ++ data, e)
    | none => (data, e)

end Avc444Encoder

/-! ### One call -/

/-- How a call ends. -/
inductive EncodeOutcome where
  | panicked
  | error (e : EncoderError)
  | skipped
  | frame (f : Avc444Frame)
  deriving DecidableEq, Repr

/-- What a call does: its answer, the encoder after it, the answers it took from the shared encoder,
whether it started a refresh, and the rule by which it left the auxiliary view out. -/
structure EncodeRun where
  outcome : EncodeOutcome
  encoder : Avc444Encoder
  encodes : List Encoded
  forced : Bool
  omitted : Option AuxStreamPrecheck

/-- The two views of a frame, if the buffer has the size of one. -/
def dualViews (extension : Extension) (e : Avc444Encoder) (call : EncodeCall) :
    Option (Yuv420Frame × Yuv420Frame) :=
  (bgraToYuv444 extension call.bgraData call.width.toNat call.height.toNat e.colorMatrix).bind
    (packDualViews extension)

namespace Avc444Encoder

/-- The end of a call, after the encodes: no frame without a main stream. -/
def finish (e : Avc444Encoder) (call : EncodeCall) (stream1Data : List UInt8)
    (mainIsKeyframe : Bool) (stream2Data : Option (List UInt8)) : EncodeOutcome × Avc444Encoder :=
  if stream1Data = [] then (.skipped, e)
  else
    let (stream1Data, e) := e.handleSpsPps stream1Data mainIsKeyframe
    (.frame {
      stream1Data
      stream2Data
      isKeyframe := mainIsKeyframe
      timestampMs := call.timestampMs
      totalSize := stream1Data.length + (stream2Data.map List.length).getD 0 }, e)

/-- The second encode, with the encoder as it is after the first, and the end of the call. -/
def encodeAux (e : Avc444Encoder) (call : EncodeCall) (auxYuv420 : Yuv420Frame)
    (stream1Data : List UInt8) (mainIsKeyframe : Bool) : EncodeOutcome × Avc444Encoder :=
  match call.aux with
  | .failed message => (.error (.encodeFailed s!"Aux subframe encoding failed: {message}"), e)
  | .bitstream auxData _ =>
    if auxData = [] then
      { e with framesSinceAux := e.framesSinceAux + 1 }.finish call stream1Data mainIsKeyframe none
    else
      { e with lastAuxHash := some (hashYuv420 auxYuv420), framesSinceAux := 0 }.finish call
        stream1Data mainIsKeyframe (some auxData)

/-- Both encodes, in sequence. The auxiliary view is encoded only if it is to be sent. -/
def encodeViews (e : Avc444Encoder) (call : EncodeCall) (auxYuv420 : Yuv420Frame) : EncodeRun :=
  let (forced, e) := e.shouldForceIdr call.now
  match call.main with
  | .failed message =>
    ⟨.error (.encodeFailed s!"Main subframe encoding failed: {message}"), e, [call.main], forced,
      none⟩
  | .bitstream stream1Data mainIsKeyframe =>
    let precheck := e.precheck
    let (shouldSendAux, e) := e.shouldSendAux auxYuv420
    if shouldSendAux then
      let (outcome, e) := e.encodeAux call auxYuv420 stream1Data mainIsKeyframe
      ⟨outcome, e, [call.main, call.aux], forced, none⟩
    else
      let (outcome, e) := { e with framesSinceAux := e.framesSinceAux + 1 }.finish call stream1Data
        mainIsKeyframe none
      ⟨outcome, e, [call.main], forced, some precheck⟩

/-- `Avc444Encoder::encode_bgra`. -/
def encodeBgra (extension : Extension) (e : Avc444Encoder) (call : EncodeCall) : EncodeRun :=
  if call.width = 0 ∨ call.height = 0 ∨ call.width % 2 ≠ 0 ∨ call.height % 2 ≠ 0 then
    ⟨.error (.invalidDimensions call.width call.height), e, [], false, none⟩
  else
    let expectedSize := (call.width * call.height * 4).toNat
    if call.bgraData.length < expectedSize then
      ⟨.error (.encodeFailed
        s!"BGRA buffer too small: {call.bgraData.length} < {expectedSize}"), e, [], false, none⟩
    else
      match dualViews extension e call with
      | none => ⟨.panicked, e, [], false, none⟩
      | some (_, auxYuv420) => e.encodeViews call auxYuv420

/-- The auxiliary view of a call that gets as far as the encodes. -/
def acceptedView (extension : Extension) (e : Avc444Encoder) (call : EncodeCall) :
    Option Yuv420Frame :=
  if call.width = 0 ∨ call.height = 0 ∨ call.width % 2 ≠ 0 ∨ call.height % 2 ≠ 0 ∨
      call.bgraData.length < (call.width * call.height * 4).toNat then none
  else (dualViews extension e call).map Prod.snd

/-- A refresh is still to be made. -/
def pending (e : Avc444Encoder) : Bool := e.forceNextIdr || e.forceAuxOnNextFrame

end Avc444Encoder

namespace EncodeOutcome

/-- The streams of a returned frame, in the order the decoder gets them, without the parameter sets
that were put in front. -/
def streams (cachedSpsPps : Option (List UInt8)) : EncodeOutcome → List (List UInt8)
  | frame f =>
    (if f.isKeyframe then f.stream1Data
      else f.stream1Data.drop ((cachedSpsPps.map List.length).getD 0)) :: f.stream2Data.toList
  | _ => []

/-- The call returns an auxiliary view. -/
def returnsAux : EncodeOutcome → Bool
  | frame f => f.stream2Data.isSome
  | _ => false

/-- The call returns a frame. -/
def isFrame : EncodeOutcome → Bool
  | frame _ => true
  | _ => false

end EncodeOutcome

/-! ### What a call changes -/

namespace Avc444Encoder

variable {extension : Extension} {e : Avc444Encoder} {call : EncodeCall} {view : Yuv420Frame}

theorem encodeBgra_accepted (h : e.acceptedView extension call = some view) :
    e.encodeBgra extension call = e.encodeViews call view := by
  rw [acceptedView] at h
  split at h
  · cases h
  · rename_i hok
    rw [Option.map_eq_some_iff] at h
    obtain ⟨⟨main, aux⟩, hviews, rfl⟩ := h
    have hdims :
        ¬ (call.width = 0 ∨ call.height = 0 ∨ call.width % 2 ≠ 0 ∨ call.height % 2 ≠ 0) := by
      tauto
    have hsize : ¬ call.bgraData.length < (call.width * call.height * 4).toNat := by
      tauto
    rw [encodeBgra, if_neg hdims]
    dsimp only
    rw [if_neg hsize, hviews]

/-- A call that is refused leaves the encoder as it is and returns no frame. -/
theorem encodeBgra_refused (h : e.acceptedView extension call = none) :
    ∃ outcome, e.encodeBgra extension call = ⟨outcome, e, [], false, none⟩ ∧
      outcome.isFrame = false := by
  rw [encodeBgra]
  dsimp only
  split
  · exact ⟨_, rfl, rfl⟩
  · rename_i hdims
    split
    · exact ⟨_, rfl, rfl⟩
    · rename_i hsize
      have hviews : dualViews extension e call = none := by
        rw [acceptedView, if_neg (by tauto)] at h
        exact Option.map_eq_none_iff.mp h
      rw [hviews]
      exact ⟨_, rfl, rfl⟩

/-- A call that is due a refresh asks for one, and only then. -/
theorem shouldForceIdr_cases (e : Avc444Encoder) (now : Instant) :
    (e.forceNextIdr = false ∧ e.shouldForceIdr now = (false, e)) ∨
      e.shouldForceIdr now =
        (true,
          { e with forceNextIdr := false, forceAuxOnNextFrame := true, lastIdrTime := now }) := by
  rw [shouldForceIdr]
  split
  · exact Or.inr rfl
  · rename_i hnext
    have hnext : e.forceNextIdr = false := Bool.eq_false_iff.mpr hnext
    split
    · right
      rw [← hnext]
    · exact Or.inl ⟨hnext, rfl⟩

theorem shouldForceIdr_fst (e : Avc444Encoder) (now : Instant) :
    (e.shouldForceIdr now).1 = e.isPeriodicIdrDue now := by
  rw [shouldForceIdr, isPeriodicIdrDue]
  cases e.forceNextIdr with
  | true => rfl
  | false =>
    rw [if_neg Bool.false_ne_true, Bool.false_or, ← Bool.decide_and]
    split
    · rename_i hdue
      exact (decide_eq_true hdue).symm
    · rename_i hdue
      exact (decide_eq_false hdue).symm

theorem lastAuxHash_shouldForceIdr (e : Avc444Encoder) (now : Instant) :
    (e.shouldForceIdr now).2.lastAuxHash = e.lastAuxHash := by
  obtain ⟨-, h⟩ | h := e.shouldForceIdr_cases now <;> rw [h]

theorem cachedSpsPps_shouldForceIdr (e : Avc444Encoder) (now : Instant) :
    (e.shouldForceIdr now).2.cachedSpsPps = e.cachedSpsPps := by
  obtain ⟨-, h⟩ | h := e.shouldForceIdr_cases now <;> rw [h]

/-- After the check a request is a forced auxiliary view. -/
theorem pending_shouldForceIdr (e : Avc444Encoder) (now : Instant) :
    (e.shouldForceIdr now).2.forceNextIdr = false ∧
      (e.shouldForceIdr now).2.forceAuxOnNextFrame = (e.pending || (e.shouldForceIdr now).1) := by
  obtain ⟨hnext, h⟩ | h := e.shouldForceIdr_cases now
  · rw [h]
    refine ⟨hnext, ?_⟩
    rw [pending, hnext, Bool.false_or, Bool.or_false]
  · rw [h]
    exact ⟨rfl, (Bool.or_true _).symm⟩

theorem precheck_forced (h : e.forceAuxOnNextFrame = true) : e.precheck = .sendForced := by
  rw [precheck, precheckAuxStreamPolicy, if_pos h]

/-- The decision consumes the force flag, whatever it is. -/
theorem shouldSendAux_snd (e : Avc444Encoder) (view : Yuv420Frame) :
    (e.shouldSendAux view).2 = { e with forceAuxOnNextFrame := false } := by
  cases hforce : e.forceAuxOnNextFrame with
  | true => rw [shouldSendAux, precheck_forced hforce]
  | false =>
    have hsame : { e with forceAuxOnNextFrame := false } = e := by
      rw [← hforce]
    rw [hsame, shouldSendAux]
    have hne : e.precheck ≠ .sendForced := by
      rw [precheck, precheckAuxStreamPolicy, hforce, if_neg Bool.false_ne_true]
      split_ifs <;> exact AuxStreamPrecheck.noConfusion
    split <;> first | rfl | contradiction

theorem shouldSendAux_forced (h : e.forceAuxOnNextFrame = true) (view : Yuv420Frame) :
    (e.shouldSendAux view).1 = true := by
  rw [shouldSendAux, precheck_forced h]

/-- Left out after a comparison means that the remembered hash is that of the view. -/
theorem shouldSendAux_compare (h : e.precheck = .compareContentHash) (view : Yuv420Frame) :
    (e.shouldSendAux view).1 = false ↔ e.lastAuxHash = some (hashYuv420 view) := by
  have hsome : e.lastAuxHash.isSome = true := by
    cases hhash : e.lastAuxHash.isSome with
    | true => rfl
    | false =>
      rw [precheck, precheckAuxStreamPolicy, hhash] at h
      split_ifs at h
      simp_all
  obtain ⟨previous, hprevious⟩ := Option.isSome_iff_exists.mp hsome
  rw [shouldSendAux, h, hprevious]
  show (decide (hashYuv420 view ≠ previous)) = false ↔ _
  rw [decide_eq_false_iff_not, not_not, Option.some_inj]
  exact eq_comm

/-- What was put in front of a picture is what is taken off again. -/
theorem streams_handleSpsPps (e : Avc444Encoder) (data : List UInt8) (isKeyframe : Bool) :
    (if isKeyframe then (e.handleSpsPps data isKeyframe).1
      else (e.handleSpsPps data isKeyframe).1.drop ((e.cachedSpsPps.map List.length).getD 0)) =
      data := by
  rw [handleSpsPps]
  cases isKeyframe with
  | true => rw [if_pos rfl, if_pos rfl]; split <;> rfl
  | false =>
    rw [if_neg Bool.false_ne_true, if_neg Bool.false_ne_true]
    cases e.cachedSpsPps with
    | none => rfl
    | some spsPps => exact List.drop_left

/-- The parameter sets are all that keeping them changes. -/
theorem handleSpsPps_snd (e : Avc444Encoder) (data : List UInt8) (isKeyframe : Bool) :
    ∃ cached, (e.handleSpsPps data isKeyframe).2 = { e with cachedSpsPps := cached } := by
  rw [handleSpsPps]
  split
  · split
    · exact ⟨_, rfl⟩
    · exact ⟨_, rfl⟩
  · split
    · exact ⟨_, rfl⟩
    · exact ⟨_, rfl⟩

section Finish

variable (e : Avc444Encoder) (call : EncodeCall) {data : List UInt8} (k : Bool)
  (stream2 : Option (List UInt8))

theorem finish_nil : e.finish call [] k stream2 = (.skipped, e) := rfl

/-- A main stream that is not empty is returned, with the auxiliary stream if there is one. -/
theorem finish_frame (h : data ≠ []) :
    ∃ frame cached, e.finish call data k stream2 =
        (.frame frame, { e with cachedSpsPps := cached }) ∧
      (EncodeOutcome.frame frame).streams e.cachedSpsPps = data :: stream2.toList ∧
      frame.stream2Data = stream2 := by
  obtain ⟨cached, hcached⟩ := e.handleSpsPps_snd data k
  refine ⟨⟨(e.handleSpsPps data k).1, stream2, k, call.timestampMs,
    (e.handleSpsPps data k).1.length + (stream2.map List.length).getD 0⟩, cached, ?_, ?_, rfl⟩
  · rw [finish, if_neg h]
    dsimp only
    rw [hcached]
  · show (if k then _ else _) :: stream2.toList = _
    rw [streams_handleSpsPps]

end Finish

end Avc444Encoder

end Graphics

end Cheirizo
