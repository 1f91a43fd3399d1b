import Cheirizo.Lib.Fallible
import Mathlib.Data.UInt

/-!
# Negotiation of the graphics mode

`channels/graphics/egfx/handler.rs` and `channel/{factory,sender}.rs`. The client says what it can
decode, the server's policy is applied to that, and the mode that comes out is published for the
display loop. Frames are sent by an adapter that looks at what is published at that moment.

The AVC flags of what is published are those of the mode, and not those of the client: a client that
could decode both codecs is said to decode the better one only.

## Main definitions

* `selectMode` — the policy applied to what the client can decode
* `HandlerState` — what is published
* `sendFrameWithRegions`, `sendAvc444FrameWithRegions` — sending a frame
-/

namespace Cheirizo

namespace Graphics

open Fallible

/-- A width and a height. -/
abbrev DesktopSize := UInt16 × UInt16

/-! ### Modes -/

/-- The codec that is configured. -/
inductive EgfxCodecPolicy where
  | auto
  | avc420
  | avc444
  | bitmap
  deriving DecidableEq, Repr

/-- Hardware encoders are for AVC420. -/
def effectiveCodecPolicy (configured : EgfxCodecPolicy) (hardwareEnabled : Bool) :
    EgfxCodecPolicy :=
  if configured = .auto ∧ hardwareEnabled = true then .avc420 else configured

/-- How pictures are sent to a client. -/
inductive NegotiatedEgfxMode where
  | bitmap
  | avc420
  | avc444
  deriving DecidableEq, Repr

/-- The mode needs a video encoder. -/
def NegotiatedEgfxMode.usesAvc : NegotiatedEgfxMode → Bool
  | bitmap => false
  | avc420 => true
  | avc444 => true

/-- What a client confirms, with the flag that is asked for. -/
inductive CapabilitySet where
  | v8
  | v8_1 (avc420Enabled : Bool)
  | v10 (avcDisabled : Bool)
  | v10_1
  | v10_2 (avcDisabled : Bool)
  | v10_3 (avcDisabled : Bool)
  | v10_4 (avcDisabled : Bool)
  | v10_5 (avcDisabled : Bool)
  | v10_6 (avcDisabled : Bool)
  | v10_6Err (avcDisabled : Bool)
  | v10_7 (avcDisabled : Bool)
  deriving DecidableEq, Repr

/-- What a client can decode. -/
structure CodecSupport where
  avc420 : Bool
  avc444 : Bool
  deriving DecidableEq, Repr

namespace CodecSupport

/-- Both codecs or none. -/
def enabled (value : Bool) : CodecSupport := ⟨value, value⟩

/-- A client that has to be sent bitmaps. -/
def disabled : CodecSupport := enabled false

end CodecSupport

/-- What a client says it can decode. In version 8.1 the flag is for AVC420, in later ones it is
against both codecs. -/
def codecSupport : CapabilitySet → CodecSupport
  | .v8 => .disabled
  | .v8_1 avc420Enabled => ⟨avc420Enabled, false⟩
  | .v10 avcDisabled | .v10_2 avcDisabled => .enabled !avcDisabled
  | .v10_1 => .enabled true
  | .v10_3 avcDisabled => .enabled !avcDisabled
  | .v10_4 avcDisabled | .v10_5 avcDisabled | .v10_6 avcDisabled | .v10_6Err avcDisabled =>
    .enabled !avcDisabled
  | .v10_7 avcDisabled => .enabled !avcDisabled

/-- A codec that is configured and not supported leads to bitmaps, not to the other codec. -/
def selectMode (policy : EgfxCodecPolicy) (support : CodecSupport) : NegotiatedEgfxMode :=
  match policy with
  | .bitmap => .bitmap
  | .avc444 => if support.avc444 then .avc444 else .bitmap
  | .avc420 => if support.avc420 then .avc420 else .bitmap
  | .auto => if support.avc444 then .avc444 else if support.avc420 then .avc420 else .bitmap

/-! ### What is published -/

/-- What the handler of the channel shares with the display loop. -/
structure HandlerState where
  isReady : Bool
  negotiatedMode : Option NegotiatedEgfxMode
  isAvc420Enabled : Bool
  isAvc444Enabled : Bool
  requiresCoreReset : Bool
  needsAndroidPointerUpdates : Bool
  primarySurfaceId : Option UInt16
  dvcChannelId : UInt32
  deriving DecidableEq, Repr

namespace HandlerState

/-- Nothing is known of the client. -/
def default : HandlerState := ⟨false, none, false, false, false, false, none, 0⟩

/-- The capabilities are confirmed. -/
def onReady (policy : EgfxCodecPolicy) (cap : CapabilitySet) : HandlerState :=
  let mode := selectMode policy (codecSupport cap)
  { isReady := true
    negotiatedMode := some mode
    isAvc420Enabled := mode = .avc420
    isAvc444Enabled := mode = .avc444
    requiresCoreReset := false
    needsAndroidPointerUpdates := false
    primarySurfaceId := none
    dvcChannelId := 0 }

/-- The channel is ready, for bitmaps. -/
def bitmapFallback (requiresCoreReset : Bool) : HandlerState :=
  { default with
    isReady := true
    negotiatedMode := some .bitmap
    requiresCoreReset
    needsAndroidPointerUpdates := false }

end HandlerState

/-! ### Sending a frame -/

/-- What the graphics pipeline and the server answer when a frame is sent: the channel, the number
of the frame if it is inside the acknowledgement window, and whether the output was handed on. -/
structure Delivery where
  channelId : Option UInt32
  frameId : Option UInt32
  posted : Except String Unit

/-- There is something to send, the picture is in the encoded one, and that is in macroblocks. -/
def validateFrame (len : ℕ) (encoded display : DesktopSize) : Bool :=
  !(len = 0 ∨ encoded.1 = 0 ∨ encoded.2 = 0 ∨ display.1 = 0 ∨ display.2 = 0 ∨
    encoded.1 < display.1 ∨ encoded.2 < display.2 ∨ encoded.1 % 16 ≠ 0 ∨ encoded.2 % 16 ≠ 0)

/-- The error of a frame whose sizes do not go together. -/
def invalidFrame (len : ℕ) (encoded display : DesktopSize) : String :=
  "invalid frame geometry/data: encoded=" ++ toString encoded.1 ++ "x" ++ toString encoded.2 ++
    ", display=" ++ toString display.1 ++ "x" ++ toString display.2 ++ ", bytes=" ++ toString len

/-- What is shared, once the channel is ready. -/
def readyState : Option HandlerState → Except String HandlerState
  | some state => if state.isReady then .ok state else .error "EGFX channel not ready"
  | none => .error "EGFX channel not ready"

/-- What is published, if it is ready and has the codec. -/
def codecState (enabled : HandlerState → Bool) (message : String) (shared : Option HandlerState) :
    Except String HandlerState :=
  readyState shared >>= fun state => if !enabled state then .error message else .ok state

/-- The same for a client that decodes AVC420. -/
def avc420State : Option HandlerState → Except String HandlerState :=
  codecState HandlerState.isAvc420Enabled "AVC420 not supported by client"

/-- The same for a client that decodes AVC444. -/
def avc444State : Option HandlerState → Except String HandlerState :=
  codecState HandlerState.isAvc444Enabled "AVC444 not supported by client"

/-- The surface that pictures are drawn on. -/
def surfaceId (state : HandlerState) : Except String UInt16 :=
  match state.primarySurfaceId with
  | some surface => .ok surface
  | none => .error "no primary EGFX surface"

/-- Give a frame to the graphics pipeline: the surface it is for, and its number. -/
def deliver (d : Delivery) (surface : UInt16) : Except String (UInt16 × UInt32) :=
  match d.channelId, d.frameId with
  | none, _ => .error "EGFX channel not ready"
  | some _, none => .error "EGFX frame rejected by upstream acknowledgement window"
  | some _, some frameId => d.posted.map fun _ => (surface, frameId)

/-- `EgfxFrameSender::send_frame_with_regions`: the checks come before the surface is looked for. -/
def sendFrameWithRegions (shared : Option HandlerState) (len : ℕ) (encoded display : DesktopSize)
    (d : Delivery) : Except String (UInt16 × UInt32) :=
  if !validateFrame len encoded display then .error (invalidFrame len encoded display)
  else avc420State shared >>= surfaceId >>= deliver d

/-- An auxiliary stream may be missing, but not empty. -/
def sendAvc444FrameWithRegions (shared : Option HandlerState) (len : ℕ) (aux : Option ℕ)
    (encoded display : DesktopSize) (d : Delivery) : Except String (UInt16 × UInt32) :=
  if !validateFrame len encoded display then .error (invalidFrame len encoded display)
  else if aux = some 0 then .error "AVC444 auxiliary stream is empty"
  else avc444State shared >>= surfaceId >>= deliver d

/-! ### What can be sent -/

/-- The flags say what the mode says. -/
structure HandlerState.Consistent (state : HandlerState) : Prop where
  avc420 : state.isAvc420Enabled = true ↔ state.negotiatedMode = some .avc420
  avc444 : state.isAvc444Enabled = true ↔ state.negotiatedMode = some .avc444

theorem consistent_onReady (policy : EgfxCodecPolicy) (cap : CapabilitySet) :
    (HandlerState.onReady policy cap).Consistent := by
  constructor <;> simp [HandlerState.onReady]

theorem consistent_bitmapFallback (requiresCoreReset : Bool) :
    (HandlerState.bitmapFallback requiresCoreReset).Consistent := by
  constructor <;> simp [HandlerState.bitmapFallback, HandlerState.default]

variable {shared : Option HandlerState} {len : ℕ} {encoded display : DesktopSize} {d : Delivery}
  {surface : UInt16} {frameId : UInt32}

theorem codecState_ok {enabled : HandlerState → Bool} {message : String} {state : HandlerState}
    (h : codecState enabled message shared = .ok state) :
    shared = some state ∧ state.isReady = true ∧ enabled state = true := by
  obtain ⟨state', hready, h⟩ := bind_eq_ok.mp h
  obtain ⟨henabled, h⟩ := guard_eq_ok.mp h
  obtain rfl := Except.ok.inj h
  rw [readyState.eq_def] at hready
  split at hready
  · split at hready
    · rename_i hisReady
      rw [← Except.ok.inj hready]
      exact ⟨rfl, hisReady, by simpa [← Except.ok.inj hready] using henabled⟩
    · cases hready
  · cases hready

/-- What is delivered goes out on the surface that is published. -/
theorem deliver_ok {state : Except String HandlerState}
    (h : (state >>= surfaceId >>= deliver d) = .ok (surface, frameId)) :
    ∃ found, state = .ok found ∧ found.primarySurfaceId = some surface := by
  obtain ⟨surface', hsurface, h⟩ := bind_eq_ok.mp h
  obtain ⟨found, hstate, hsurface⟩ := bind_eq_ok.mp hsurface
  refine ⟨found, hstate, ?_⟩
  have hsame : surface' = surface := by
    rw [deliver.eq_def] at h
    split at h
    · cases h
    · cases h
    · obtain ⟨-, -, h⟩ := map_eq_ok.mp h
      exact (Prod.mk.inj h).1
  rw [surfaceId] at hsurface
  split at hsurface
  · rename_i surface'' hfound
    rw [hfound, Except.ok.inj hsurface, hsame]
  · cases hsurface

/-- A frame is sent only if its codec is published. -/
theorem sendFrameWithRegions_ok
    (h : sendFrameWithRegions shared len encoded display d = .ok (surface, frameId)) :
    ∃ state, shared = some state ∧ state.isReady = true ∧ state.isAvc420Enabled = true ∧
      state.primarySurfaceId = some surface := by
  obtain ⟨-, h⟩ := guard_eq_ok.mp h
  obtain ⟨state, hstate, hsurface⟩ := deliver_ok h
  obtain ⟨hshared, hready, henabled⟩ := codecState_ok hstate
  exact ⟨state, hshared, hready, henabled, hsurface⟩

theorem sendAvc444FrameWithRegions_ok {aux : Option ℕ}
    (h : sendAvc444FrameWithRegions shared len aux encoded display d = .ok (surface, frameId)) :
    ∃ state, shared = some state ∧ state.isReady = true ∧ state.isAvc444Enabled = true ∧
      state.primarySurfaceId = some surface := by
  obtain ⟨-, h⟩ := guard_eq_ok.mp h
  obtain ⟨-, h⟩ := guard_eq_ok.mp h
  obtain ⟨state, hstate, hsurface⟩ := deliver_ok h
  obtain ⟨hshared, hready, henabled⟩ := codecState_ok hstate
  exact ⟨state, hshared, hready, henabled, hsurface⟩

end Graphics

end Cheirizo
