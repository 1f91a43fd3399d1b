import Cheirizo.Graphics.Ledger
import Cheirizo.Graphics.ParameterSets

/-!
# Parameter sets in front of later pictures

A picture can be decoded only with the parameter sets of the keyframe it goes back to, and a decoder
may have lost them. So both encoders put in front of a picture the parameter sets they keep. What
they keep should be those of the last keyframe that carried any.

The AVC420 encoder keeps those of the last keyframe, carried or not: a keyframe without parameter
sets makes it forget them. The AVC444 encoder keeps the last ones it found, but looks for them only
at the end of a call, and a call whose auxiliary view fails does not get there.

## Main definitions

* `Avc420Encoder.encodeBgra` — one call of the AVC420 encoder
* `Avc420Watch`, `Avc444Watch` — either encoder, with a record of the parameter sets it was given

## Main results

* `Avc420Watch.led_iff` — what one picture of the AVC420 encoder is led by
* `Avc444Watch.led_iff` — what one picture of the AVC444 encoder is led by
* `pictures_led_iff` — the runs in which every picture is led by the parameter sets
-/

namespace Cheirizo

namespace Graphics

/-! ### The AVC420 encoder -/

/-- The types of picture the H.264 library tells apart. -/
inductive FrameType where
  | invalid
  | idr
  | i
  | p
  | skip
  | ipMixed
  deriving DecidableEq, Repr

/-- A frame that stands on its own. -/
def FrameType.isKeyframe : FrameType → Bool
  | idr => true
  | i => true
  | _ => false

/-- What an AVC420 encoder gives. -/
structure H264Frame where
  data : List UInt8
  isKeyframe : Bool
  timestampMs : UInt64
  size : ℕ
  deriving DecidableEq, Repr

/-- What is kept from frame to frame. -/
structure Avc420Encoder where
  frames : ℕ
  parameterSets : List UInt8
  deriving DecidableEq, Repr

/-- A call of `encodeBgra`, with what the library makes of the picture: an error, or a bitstream and
its type. -/
structure Encode420Call where
  bgra : List UInt8
  width : UInt32
  height : UInt32
  timestampMs : UInt64
  encoded : Except String (List UInt8 × FrameType)

namespace Encode420Call

/-- A size that cannot be encoded. -/
def Misshapen (call : Encode420Call) : Prop :=
  call.width = 0 ∨ call.height = 0 ∨ call.width % 2 ≠ 0 ∨ call.height % 2 ≠ 0
  deriving Decidable

/-- The bytes that the size asks for. -/
def required (call : Encode420Call) : UInt64 :=
  call.width.toUInt64 * call.height.toUInt64 * 4

/-- The bitstream a call gets from the library, and whether it is a keyframe. -/
def picture (call : Encode420Call) : Option (List UInt8 × Bool) :=
  if call.Misshapen ∨ call.bgra.length < call.required.toNat then none
  else
    match call.encoded with
    | .error _ => none
    | .ok (data, frameType) => if data = [] then none else some (data, frameType.isKeyframe)

end Encode420Call

namespace Avc420Encoder

/-- No frame was made yet. -/
def new : Avc420Encoder := ⟨0, []⟩

/-- The end of a call that got a bitstream: the parameter sets of a keyframe are kept, even if there
are none in it, and those kept are put in front of any other picture. -/
def deliver (e : Avc420Encoder) (timestampMs : UInt64) (data : List UInt8) (keyframe : Bool) :
    H264Frame × Avc420Encoder :=
  let kept := if keyframe then Graphics.parameterSets data else e.parameterSets
  let data := if !keyframe ∧ e.parameterSets ≠ [] then e.parameterSets ++ data else data
  (⟨data, keyframe, timestampMs, data.length⟩, ⟨e.frames + 1, kept⟩)

/-- `Avc420Encoder::encode_bgra`, around an encoder that is given. -/
def encodeBgra (e : Avc420Encoder) (call : Encode420Call) :
    Except EncoderError (Option H264Frame) × Avc420Encoder :=
  if call.Misshapen then (.error (.invalidDimensions call.width call.height), e)
  else if call.bgra.length < call.required.toNat then
    (.error (.encodeFailed "BGRA input is shorter than its dimensions"), e)
  else
    match call.encoded with
    | .error message => (.error (.encodeFailed message), e)
    | .ok (data, frameType) =>
      if data = [] then (.ok none, e)
      else
        let (frame, e) := e.deliver call.timestampMs data frameType.isKeyframe
        (.ok (some frame), e)

variable {e : Avc420Encoder} {call : Encode420Call} {data : List UInt8} {k : Bool}

/-- What is kept stands in front of a picture that is not a keyframe. -/
theorem deliver_data (timestampMs : UInt64) :
    (e.deliver timestampMs data false).1.data = e.parameterSets ++ data := by
  rw [deliver]
  dsimp only
  split
  · rfl
  · rename_i hnil
    rw [not_and, not_not] at hnil
    rw [hnil rfl, List.nil_append]

/-- With a bitstream there is a frame. -/
theorem encodeBgra_some (h : call.picture = some (data, k)) :
    e.encodeBgra call = (.ok (some (e.deliver call.timestampMs data k).1),
      (e.deliver call.timestampMs data k).2) := by
  rw [Encode420Call.picture] at h
  split at h
  · cases h
  · rename_i haccepted
    rw [not_or] at haccepted
    rw [encodeBgra, if_neg haccepted.1, if_neg haccepted.2]
    cases hencoded : call.encoded with
    | error message => rw [hencoded] at h; cases h
    | ok answer =>
      rw [hencoded] at h
      dsimp only at h ⊢
      split at h
      · cases h
      · rename_i hdata
        obtain ⟨rfl, rfl⟩ := Prod.mk.inj (Option.some_inj.mp h)
        rw [if_neg hdata]

/-- Without one there is none, and the encoder stays as it is. -/
theorem encodeBgra_none (h : call.picture = none) :
    (e.encodeBgra call).2 = e ∧ ∀ frame, (e.encodeBgra call).1 ≠ .ok (some frame) := by
  have herror : ∀ (error : EncoderError) (frame : H264Frame),
      (.error error : Except EncoderError (Option H264Frame)) ≠ .ok (some frame) :=
    fun _ _ hne => by cases hne
  rw [encodeBgra]
  split
  · exact ⟨rfl, herror _⟩
  · rename_i hshape
    split
    · exact ⟨rfl, herror _⟩
    · rename_i hsize
      rw [Encode420Call.picture, if_neg (not_or.mpr ⟨hshape, hsize⟩)] at h
      cases hencoded : call.encoded with
      | error message => exact ⟨rfl, herror _⟩
      | ok answer =>
        rw [hencoded] at h
        dsimp only at h ⊢
        split at h
        · rename_i hdata
          rw [if_pos hdata]
          exact ⟨rfl, fun _ hne => by cases hne⟩
        · cases h

end Avc420Encoder

/-! ### What the AVC420 encoder was given -/

/-- The encoder, with the parameter sets of the last keyframe and those of the last keyframe that
carried any. -/
structure Avc420Watch where
  encoder : Avc420Encoder
  last : List UInt8
  latest : List UInt8

namespace Avc420Watch

/-- Nothing was asked of the encoder yet. -/
def start : Avc420Watch := ⟨.new, [], []⟩

/-- Write down the parameter sets of a picture. -/
def note (w : Avc420Watch) : Option (List UInt8 × Bool) → Avc420Watch
  | some (data, true) =>
    { w with
      last := parameterSets data
      latest := if parameterSets data = [] then w.latest else parameterSets data }
  | _ => w

/-- A call is watched, whatever becomes of it. -/
def encode (w : Avc420Watch) (call : Encode420Call) : Avc420Watch :=
  { w.note call.picture with encoder := (w.encoder.encodeBgra call).2 }

/-- A frame that is not a keyframe begins with the last parameter sets there were. -/
def Led (w : Avc420Watch) (call : Encode420Call) : Prop :=
  ∀ frame, (w.encoder.encodeBgra call).1 = .ok (some frame) → frame.isKeyframe = false →
    w.latest <+: frame.data

/-- A picture after a keyframe without parameter sets begins with the last there were by itself. -/
def SetsCarried (w : Avc420Watch) (call : Encode420Call) : Prop :=
  ∀ data, call.picture = some (data, false) → w.last = [] → w.latest <+: data

/-- The encoder keeps the parameter sets of the last keyframe. Unless it carried none, they are the
last there were. -/
def Kept (w : Avc420Watch) : Prop :=
  w.encoder.parameterSets = w.last ∧ (w.last = [] ∨ w.last = w.latest)

variable {w : Avc420Watch} {call : Encode420Call}

theorem kept_encode (hw : w.Kept) : (w.encode call).Kept := by
  cases hpicture : call.picture with
  | none =>
    rw [encode, (Avc420Encoder.encodeBgra_none hpicture).1, hpicture]
    exact hw
  | some picture =>
    obtain ⟨data, k⟩ := picture
    rw [encode, Avc420Encoder.encodeBgra_some hpicture, hpicture]
    cases k with
    | false => exact hw
    | true =>
      refine ⟨rfl, ?_⟩
      by_cases hsets : parameterSets data = []
      · exact Or.inl hsets
      · exact Or.inr (if_neg hsets).symm

theorem led_iff (hw : w.Kept) : w.Led call ↔ w.SetsCarried call := by
  cases hpicture : call.picture with
  | none =>
    have hled : w.Led call := fun frame hframe =>
      absurd hframe ((Avc420Encoder.encodeBgra_none hpicture).2 frame)
    exact iff_of_true hled fun data hdata => by rw [hpicture] at hdata; cases hdata
  | some picture =>
    obtain ⟨data, k⟩ := picture
    rw [Led, SetsCarried, Avc420Encoder.encodeBgra_some hpicture, hpicture]
    cases k with
    | true =>
      refine iff_of_true (fun frame hframe hkey => ?_) fun data hdata => by cases hdata
      cases hframe
      cases hkey
    | false =>
      obtain ⟨hkept, hlast⟩ := hw
      have hprefix : w.latest <+: w.last ++ data ↔ (w.last = [] → w.latest <+: data) := by
        by_cases hnil : w.last = []
        · rw [hnil, List.nil_append]
          exact ⟨fun h _ => h, fun h => h rfl⟩
        · rw [(hlast.resolve_left hnil).symm]
          exact iff_of_true (List.prefix_append _ _) fun hcontra => absurd hcontra hnil
      constructor
      · rintro hled data' ⟨⟩
        rw [← hprefix, ← hkept, ← Avc420Encoder.deliver_data]
        exact hled _ rfl rfl
      · rintro hsets frame ⟨⟩ -
        rw [Avc420Encoder.deliver_data, hkept, hprefix]
        exact hsets data rfl

end Avc420Watch

/-- The AVC420 encoder as a machine that answers calls. -/
def avc420Machine :
    Machine Avc420Watch Encode420Call (Except EncoderError (Option H264Frame)) where
  step w call := (w.encode call, [(w.encoder.encodeBgra call).1])

/-! ### What the AVC444 encoder was given -/

namespace Avc444Encoder

variable (extension : Extension) (e : Avc444Encoder) (call : EncodeCall)

/-- The main stream a call gets from the shared encoder, and whether it is a keyframe. -/
def mainPicture : Option (List UInt8 × Bool) :=
  match e.acceptedView extension call, call.main with
  | some _, .bitstream data k => if data = [] then none else some (data, k)
  | _, _ => none

/-- The auxiliary view is encoded, and fails: the call ends there. -/
def auxFails : Bool :=
  match e.acceptedView extension call, call.aux with
  | some view, .failed _ => ((e.shouldForceIdr call.now).2.shouldSendAux view).1
  | _, _ => false

/-- The parameter sets of the main stream of a call, if it is a keyframe that carries any. -/
def mainSets : Option (List UInt8) :=
  match e.mainPicture extension call with
  | some (data, true) => extractSpsPps data
  | _ => none

variable {extension e call}

/-- A main stream that is not empty is returned behind what is kept of parameter sets, and those of
a keyframe are kept in their place, if there are any. -/
def Delivers (cached : Option (List UInt8)) (data : List UInt8) (k : Bool) (outcome : EncodeOutcome)
    (after : Option (List UInt8)) : Prop :=
  ∃ frame, outcome = .frame frame ∧ frame.isKeyframe = k ∧
    frame.stream1Data = (if k then data else cached.getD [] ++ data) ∧
    after = if k then (extractSpsPps data).or cached else cached

theorem handleSpsPps_eq (data : List UInt8) (k : Bool) :
    e.handleSpsPps data k =
      (if k then data else e.cachedSpsPps.getD [] ++ data,
        { e with cachedSpsPps :=
            if k then (extractSpsPps data).or e.cachedSpsPps else e.cachedSpsPps }) := by
  rw [handleSpsPps]
  cases k with
  | true =>
    simp only [if_true]
    split <;> rename_i hsets <;> rw [hsets] <;> rfl
  | false =>
    simp only [Bool.false_eq_true, if_false]
    show _ = (e.cachedSpsPps.getD [] ++ data, e)
    split <;> rename_i hcached <;> rw [hcached] <;> rfl

theorem delivers_finish {data : List UInt8} {k : Bool} (stream2 : Option (List UInt8))
    (hdata : data ≠ []) :
    Delivers e.cachedSpsPps data k (e.finish call data k stream2).1
      (e.finish call data k stream2).2.cachedSpsPps := by
  rw [finish, if_neg hdata]
  dsimp only
  rw [handleSpsPps_eq]
  exact ⟨_, rfl, rfl, rfl, rfl⟩

theorem delivers_encodeAux {data : List UInt8} {k : Bool} (view : Yuv420Frame)
    (haux : ∀ message, call.aux ≠ .failed message) (hdata : data ≠ []) :
    Delivers e.cachedSpsPps data k (e.encodeAux call view data k).1
      (e.encodeAux call view data k).2.cachedSpsPps := by
  rw [encodeAux]
  split
  · rename_i message hfailed
    exact absurd hfailed (haux message)
  · split
    · exact delivers_finish none hdata
    · exact delivers_finish (some _) hdata

theorem cachedSpsPps_checked (e : Avc444Encoder) (call : EncodeCall) (view : Yuv420Frame) :
    ((e.shouldForceIdr call.now).2.shouldSendAux view).2.cachedSpsPps = e.cachedSpsPps := by
  rw [shouldSendAux_snd]
  exact cachedSpsPps_shouldForceIdr e call.now

/-- A call that gets a main stream returns it, unless its auxiliary view fails. -/
theorem delivers_encodeBgra {data : List UInt8} {k : Bool}
    (h : e.mainPicture extension call = some (data, k)) (haux : e.auxFails extension call = false) :
    Delivers e.cachedSpsPps data k (e.encodeBgra extension call).outcome
      (e.encodeBgra extension call).encoder.cachedSpsPps := by
  rw [mainPicture] at h
  split at h
  · rename_i view data' k' hview hmain
    split at h
    · cases h
    · rename_i hdata
      obtain ⟨rfl, rfl⟩ := Prod.mk.inj (Option.some_inj.mp h)
      rw [encodeBgra_accepted hview, encodeViews, hmain, ← e.cachedSpsPps_checked call view]
      dsimp only
      split
      · rename_i hsend
        refine delivers_encodeAux view (fun message hfailed => ?_) hdata
        rw [auxFails, hview, hfailed] at haux
        exact absurd hsend (Bool.eq_false_iff.mp haux)
      · exact delivers_finish none hdata
  · cases h

/-- A call that gets no main stream returns none, and keeps what was kept. -/
theorem encodeBgra_no_picture (h : e.mainPicture extension call = none) :
    (e.encodeBgra extension call).outcome.isFrame = false ∧
      (e.encodeBgra extension call).encoder.cachedSpsPps = e.cachedSpsPps := by
  cases hview : e.acceptedView extension call with
  | none =>
    obtain ⟨outcome, hrun, hframe⟩ := encodeBgra_refused hview
    rw [hrun]
    exact ⟨hframe, rfl⟩
  | some view =>
    rw [encodeBgra_accepted hview, encodeViews]
    cases hmain : call.main with
    | failed message => exact ⟨rfl, cachedSpsPps_shouldForceIdr e call.now⟩
    | bitstream data k =>
      have hdata : data = [] := by
        rw [mainPicture, hview, hmain] at h
        dsimp only at h
        by_contra hne
        rw [if_neg hne] at h
        cases h
      rw [hdata, ← e.cachedSpsPps_checked call view]
      dsimp only
      split
      · rw [encodeAux]
        split
        · exact ⟨rfl, rfl⟩
        · split
          · exact ⟨rfl, rfl⟩
          · exact ⟨rfl, rfl⟩
      · exact ⟨rfl, rfl⟩

/-- Nor does a call whose auxiliary view fails. -/
theorem encodeBgra_aux_fails (h : e.auxFails extension call = true) :
    (e.encodeBgra extension call).outcome.isFrame = false ∧
      (e.encodeBgra extension call).encoder.cachedSpsPps = e.cachedSpsPps := by
  rw [auxFails] at h
  split at h
  · rename_i view message hview hfailed
    rw [encodeBgra_accepted hview, encodeViews]
    cases call.main with
    | failed message => exact ⟨rfl, cachedSpsPps_shouldForceIdr e call.now⟩
    | bitstream data k =>
      rw [← e.cachedSpsPps_checked call view]
      dsimp only
      rw [h, if_pos rfl, encodeAux, hfailed]
      exact ⟨rfl, rfl⟩
  · cases h

end Avc444Encoder

/-- The encoder, with the parameter sets of the last main keyframe the shared encoder made that
carried any, and those of the last one of them that was returned. -/
structure Avc444Watch where
  encoder : Avc444Encoder
  latest : List UInt8
  returned : List UInt8

namespace Avc444Watch

/-- Nothing was asked of the encoder yet. -/
def start (colorMatrix : ColorMatrix) (now : Instant) : Avc444Watch :=
  ⟨.new colorMatrix now, [], []⟩

/-- Write down the parameter sets of a main stream. -/
def encode (extension : Extension) (w : Avc444Watch) (call : EncodeCall) : Avc444Watch :=
  let sets := w.encoder.mainSets extension call
  { encoder := (w.encoder.encodeBgra extension call).encoder
    latest := sets.getD w.latest
    returned := if w.encoder.auxFails extension call then w.returned else sets.getD w.returned }

/-- Only calls that encode are watched. -/
def step (extension : Extension) (w : Avc444Watch) : EncoderInput → Avc444Watch
  | .requestIdr => { w with encoder := w.encoder.requestIdr }
  | .configureAuxOmission enable maxInterval =>
    { w with encoder := w.encoder.configureAuxOmission enable maxInterval }
  | .configurePeriodicIdr intervalSecs now =>
    { w with encoder := w.encoder.configurePeriodicIdr intervalSecs now }
  | .encode call => w.encode extension call

/-- A main stream that is not a keyframe begins with the given parameter sets. -/
def LedBy (extension : Extension) (sets : Avc444Watch → List UInt8) (w : Avc444Watch) :
    EncoderInput → Prop
  | .encode call => ∀ frame, (w.encoder.encodeBgra extension call).outcome = .frame frame →
      frame.isKeyframe = false → sets w <+: frame.stream1Data
  | _ => True

/-- A main stream that is not a keyframe is returned only if the last keyframe that carried any was
returned too, or the two begin with its parameter sets all the same. -/
def SetsReturned (extension : Extension) (w : Avc444Watch) : EncoderInput → Prop
  | .encode call => ∀ data, w.encoder.mainPicture extension call = some (data, false) →
      w.encoder.auxFails extension call = false →
        w.latest = w.returned ∨ w.latest <+: w.returned ++ data
  | _ => True

/-- The encoder keeps the last parameter sets that were returned. -/
def Kept (w : Avc444Watch) : Prop :=
  w.encoder.cachedSpsPps.getD [] = w.returned

variable {extension : Extension} {w : Avc444Watch}

theorem kept_encode (hw : w.Kept) (call : EncodeCall) : (w.encode extension call).Kept := by
  rw [Kept, encode]
  dsimp only
  cases haux : w.encoder.auxFails extension call with
  | true =>
    rw [(Avc444Encoder.encodeBgra_aux_fails haux).2]
    exact hw
  | false =>
    rw [Avc444Encoder.mainSets]
    cases hpicture : w.encoder.mainPicture extension call with
    | none =>
      rw [(Avc444Encoder.encodeBgra_no_picture hpicture).2]
      exact hw
    | some picture =>
      obtain ⟨data, k⟩ := picture
      obtain ⟨-, -, -, -, hcached⟩ := Avc444Encoder.delivers_encodeBgra hpicture haux
      rw [hcached]
      cases k with
      | false => exact hw
      | true =>
        rw [← hw]
        exact Option.getD_or

theorem kept_step (hw : w.Kept) (input : EncoderInput) : (w.step extension input).Kept := by
  cases input with
  | encode call => exact kept_encode hw call
  | _ => exact hw

/-- What a returned main stream that is not a keyframe is made of. -/
theorem encodeBgra_frame (hw : w.Kept) {call : EncodeCall} {frame : Avc444Frame}
    (hframe : (w.encoder.encodeBgra extension call).outcome = .frame frame)
    (hkey : frame.isKeyframe = false) :
    ∃ data, w.encoder.mainPicture extension call = some (data, false) ∧
      w.encoder.auxFails extension call = false ∧ frame.stream1Data = w.returned ++ data := by
  have hreturns : (w.encoder.encodeBgra extension call).outcome.isFrame = true := by
    rw [hframe]
    rfl
  have haux : w.encoder.auxFails extension call = false := by
    by_contra hfails
    rw [(Avc444Encoder.encodeBgra_aux_fails (Bool.eq_true_of_not_eq_false hfails)).1] at hreturns
    cases hreturns
  cases hpicture : w.encoder.mainPicture extension call with
  | none =>
    rw [(Avc444Encoder.encodeBgra_no_picture hpicture).1] at hreturns
    cases hreturns
  | some picture =>
    obtain ⟨data, k⟩ := picture
    obtain ⟨frame', hframe', rfl, hdata, -⟩ := Avc444Encoder.delivers_encodeBgra hpicture haux
    rw [hframe] at hframe'
    cases hframe'
    rw [hkey, if_neg Bool.false_ne_true, hw] at hdata
    exact ⟨data, by rw [hkey], haux, hdata⟩

/-- Such a stream begins with the last parameter sets that were returned. -/
theorem ledBy_returned (hw : w.Kept) (input : EncoderInput) :
    w.LedBy extension returned input := by
  cases input with
  | encode call =>
    intro frame hframe hkey
    obtain ⟨data, -, -, hdata⟩ := encodeBgra_frame hw hframe hkey
    rw [hdata]
    exact List.prefix_append _ _
  | _ => trivial

theorem ledBy_latest_iff (hw : w.Kept) (input : EncoderInput) :
    w.LedBy extension latest input ↔ w.SetsReturned extension input := by
  cases input with
  | encode call =>
    constructor
    · intro hled data hpicture haux
      obtain ⟨frame, hframe, hkey, hdata, -⟩ := Avc444Encoder.delivers_encodeBgra hpicture haux
      rw [if_neg Bool.false_ne_true, hw] at hdata
      rw [← hdata]
      exact Or.inr (hled frame hframe hkey)
    · intro hsets frame hframe hkey
      obtain ⟨data, hpicture, haux, hdata⟩ := encodeBgra_frame hw hframe hkey
      rw [hdata]
      obtain hsame | hprefix := hsets data hpicture haux
      · rw [hsame]
        exact List.prefix_append _ _
      · exact hprefix
  | _ => exact Iff.rfl

end Avc444Watch

/-- The AVC444 encoder, watched, as a machine that answers calls. -/
def avc444WatchMachine (extension : Extension) :
    Machine Avc444Watch EncoderInput EncodeOutcome where
  step w input := (w.step extension input,
    match input with
    | .encode call => [(w.encoder.encodeBgra extension call).outcome]
    | _ => [])

/-- **Pictures are led by their parameter sets.** Over a run, every picture of the AVC420 encoder
begins with those of the last keyframe that carried any, exactly if no picture that does not follows
a keyframe without parameter sets. Every main picture of the AVC444 encoder does, exactly if the
call that made the keyframe returned it, or the picture gets the same from another; it always begins
with those of the last such keyframe that was returned. -/
theorem pictures_led_iff (extension : Extension) (colorMatrix : ColorMatrix) (now : Instant)
    (calls : List Encode420Call) (inputs : List EncoderInput) :
    (avc420Machine.Along Avc420Watch.Led .start calls ↔
        avc420Machine.Along Avc420Watch.SetsCarried .start calls) ∧
      ((avc444WatchMachine extension).Along (Avc444Watch.LedBy extension Avc444Watch.latest)
          (.start colorMatrix now) inputs ↔
        (avc444WatchMachine extension).Along (Avc444Watch.SetsReturned extension)
          (.start colorMatrix now) inputs) ∧
      (avc444WatchMachine extension).Along (Avc444Watch.LedBy extension Avc444Watch.returned)
        (.start colorMatrix now) inputs := by
  refine ⟨?_, ?_, ?_⟩
  · refine Machine.along_congr_of_invariant (I := Avc420Watch.Kept) (B := fun _ _ => True)
      (fun w call hw _ => Avc420Watch.led_iff hw) (fun w call hw _ _ => Avc420Watch.kept_encode hw)
      ⟨rfl, Or.inl rfl⟩ Machine.along_true
  · refine Machine.along_congr_of_invariant (I := Avc444Watch.Kept) (B := fun _ _ => True)
      (fun w input hw _ => Avc444Watch.ledBy_latest_iff hw input)
      (fun w input hw _ _ => Avc444Watch.kept_step hw input) rfl Machine.along_true
  · refine Machine.Along.of_invariant (I := Avc444Watch.Kept) (C := fun _ _ => True)
      (fun w input hw _ => Avc444Watch.kept_step hw input)
      (fun w input hw _ => Avc444Watch.ledBy_returned hw input) rfl Machine.along_true

/-- A picture of two by two pixels, with what the library makes of it. -/
def smallCall (data : List UInt8) (frameType : FrameType) : Encode420Call :=
  ⟨List.replicate 16 0, 2, 2, 0, .ok (data, frameType)⟩

/-- The second keyframe carries no parameter sets: the picture after it stands alone. -/
theorem forgotten_by_keyframe :
    ¬ avc420Machine.Along Avc420Watch.Led .start
      [smallCall [0, 0, 0, 1, 0x67, 1] .idr, smallCall [0, 0, 0, 1, 0x65, 1] .i,
        smallCall [0, 0, 0, 1, 0x41, 1] .p] := by
  rintro ⟨-, -, hled, -⟩
  have hprefix := hled ⟨[0, 0, 0, 1, 0x41, 1], false, 0, 6⟩ (by decide +kernel) rfl
  revert hprefix
  decide +kernel

end Graphics

end Cheirizo
