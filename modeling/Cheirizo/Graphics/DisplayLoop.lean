import Cheirizo.Clock
import Cheirizo.Graphics.Egfx
import Cheirizo.Graphics.Negotiation

/-!
# The display loop

`start_pipeline` of `server/display_handler.rs`. The loop takes captured frames to the client, over
EGFX if that was negotiated and in bitmaps if not. Negotiation and reactivation go on beside it:
each time the loop looks at what is shared, something else may stand there than the time before. So
an iteration is taken apart into phases, each of which looks there once, and whatever runs beside
the loop may come between any two of them.

## Phases

`poll` asks for a frame, `captured` and `idle` ask for the client, `replay` takes the frame before
once more, and `pace` drops what is too early or of another size. `gate` holds a frame back until
EGFX is ready, or for five seconds. `late` and `lateMode` look for an EGFX that comes after that.
`reset` takes a pending reset of the core graphics, `mode` and `caps` choose the path, `initialise`
and `surface` set up EGFX, and `send` encodes and sends.

## What is outside

The coordinator of resizes says which size a frame realizes; see the resize modules. Frame rates and
the governor work on floating-point numbers; their decisions come with each step, and so does what
encoders, channels and the conversion to bitmaps answer. Health reports, statistics and the debug
transforms of frames are left out. The server's event sender is set before the loop is started.

## Main definitions

* `DisplayLoop` — the loop with the state it shares
* `DisplayLoop.advance` — the next phase
* `displayLoop` — the loop with all that runs beside it
-/

namespace Cheirizo

namespace Graphics

/-! ### State -/

/-- What of the configuration the loop depends on. -/
structure LoopConfig where
  codec : EgfxCodecPolicy
  egfxEnabled : Bool
  avc444Enabled : Bool
  hardwareEnabled : Bool
  damage : Option DamageConfig

namespace LoopConfig

variable (cfg : LoopConfig)

/-- EGFX is not waited for. -/
def startsInBitmapMode : Bool := !cfg.egfxEnabled || cfg.codec = .bitmap

/-- The codec that is negotiated for. -/
def policy : EgfxCodecPolicy := effectiveCodecPolicy cfg.codec cfg.hardwareEnabled

/-- There is an EGFX channel for clients to open. -/
def offersEgfx : Bool := cfg.egfxEnabled && cfg.policy ≠ .bitmap

/-- Whether AVC444 is to be used, if the client has it. -/
def wantsAvc444 : Bool := cfg.codec ≠ .avc420 && cfg.avc444Enabled

end LoopConfig

/-- Where in its cycle the loop is, with the frame it holds. -/
inductive LoopPhase where
  | poll
  | captured (frame : VideoFrame)
  | idle
  | replay
  | pace (frame : VideoFrame)
  | gate (frame : VideoFrame)
  | late (frame : VideoFrame)
  | lateMode (frame : VideoFrame)
  | reset (frame : VideoFrame) (needsInit : Bool)
  | mode (frame : VideoFrame) (needsInit : Bool)
  | caps (frame : VideoFrame)
  | initialise (frame : VideoFrame)
  | surface (frame : VideoFrame)
  | send (frame : VideoFrame)
  deriving DecidableEq, Repr

/-- The loop, with what it shares with the handler of the channel. -/
structure DisplayLoop where
  handler : Option HandlerState
  /-- There is a graphics pipeline for the connection. -/
  gfxServer : Bool
  needsInit : Bool
  clientActive : Bool
  /-- The receiver of updates was not taken yet. -/
  receiver : Bool
  stop : Bool
  /-- The encoder, the sender, the damage detector and the committed size. -/
  egfx : Egfx
  hardwareDisabled : Bool
  cached : Option VideoFrame
  firstFrameReceived : Bool
  sessionStart : Instant
  bypassed : Bool
  wasClientActive : Bool
  phase : LoopPhase

/-- What can be seen of the loop. -/
inductive LoopAction where
  /-- What is published is replaced. -/
  | published (mode : NegotiatedEgfxMode) (requiresCoreReset : Bool)
  /-- The loop sees that there is a client. -/
  | activated (now : Instant)
  /-- The loop waits for EGFX no longer. -/
  | gaveUp (now : Instant)
  | resized (size : DesktopSize)
  | coreReset (size : DesktopSize)
  /-- The output is reset, and a surface made for an encoded size and a visible one. -/
  | surface (surface : UInt16) (encoded display : DesktopSize)
  | avc (encoder : VideoEncoder) (surface : UInt16) (encoded display : DesktopSize)
  | bitmap
  deriving DecidableEq, Repr

/-- What an encoder returns: the lengths of its streams, a second one from AVC444 only. -/
inductive EncodedStreams where
  | frame (main : ℕ) (aux : Option ℕ)
  | noOutput
  | error

/-- What the sender is given of an encoded frame. -/
def EncodedStreams.result : EncodedStreams → EncodeResult
  | frame main aux => .frame (main + aux.getD 0)
  | noOutput => .noOutput
  | error => .error

/-- What the rest of the program answers, whatever the loop asks it next. -/
structure LoopAnswer where
  now : Instant
  captured : Option VideoFrame
  /-- The size that is to be realized, with a place in the queue of updates. -/
  resize : Option DesktopSize
  /-- The frame is not too early. -/
  paced : Bool
  /-- There is a place in the queue of updates for a reset. -/
  published : Bool
  hardware : Bool
  avc444 : Bool
  avc420 : Bool
  surface : Option UInt16
  /-- What is published is not locked when the surface is to be written down. -/
  stored : Bool
  periodicIdrDue : Bool
  decision : EncodingDecision
  encoded : EncodedStreams
  delivery : Delivery
  fallbackOk : Bool
  /-- The bitmap is converted, not empty, and taken. -/
  bitmap : Bool

/-- Rounded up to macroblocks. -/
def alignTo16 (n : ℕ) : ℕ := (n + 15) / 16 * 16

namespace VideoFrame

variable (frame : VideoFrame)

/-- The size as the protocol has it, in sixteen bits. -/
def displaySize : DesktopSize := (.ofNat frame.width, .ofNat frame.height)

/-- Encoders work in blocks of sixteen pixels. -/
def encodedSize : DesktopSize :=
  (.ofNat (alignTo16 frame.width), .ofNat (alignTo16 frame.height))

end VideoFrame

namespace DisplayLoop

variable (p : DisplayLoop)

/-! ### Steps of the loop -/

/-- There is a pipeline, and the handler says that it is ready. -/
def isEgfxReady : Bool := p.gfxServer && p.handler.any HandlerState.isReady

/-- What the handler has negotiated. -/
def negotiatedMode : Option NegotiatedEgfxMode := p.handler.bind HandlerState.negotiatedMode

/-- The encoder goes with the sender that belongs to it. -/
def dropEncoder : DisplayLoop := { p with egfx := { p.egfx with encoder := none, sender := false } }

/-- The loop sees a client for the first time. -/
def activate (now : Instant) : DisplayLoop :=
  { p.dropEncoder with
    wasClientActive := true
    sessionStart := now
    bypassed := false
    firstFrameReceived := false
    cached := none
    needsInit := true }

/-- The state of the connection is made new when the client is seen first. -/
def notice (next : LoopPhase) (now : Instant) : DisplayLoop × List LoopAction :=
  if p.wasClientActive then ({ p with phase := next }, [])
  else ({ p.activate now with phase := next }, [.activated now])

/-- The frame is of the size that is to be realized. -/
def realizes (frame : VideoFrame) (size : DesktopSize) : Bool :=
  (max frame.width 1, max frame.height 1) = (size.1.toNat, size.2.toNat)

/-- A frame is kept, and commits a resize that waits for it. -/
def poll (a : LoopAnswer) : DisplayLoop × List LoopAction :=
  if p.stop then ({ p with egfx := { p.egfx with running := false } }, [])
  else
    match a.captured with
    | none => ({ p with phase := .idle }, [])
    | some frame =>
      let p := { p with
        cached := some frame
        firstFrameReceived := true
        phase := .captured frame }
      match a.resize.filter (realizes frame) with
      | some size => ({ p with egfx := p.egfx.resize size, needsInit := true }, [.resized size])
      | none => (p, [])

/-- Without a client a frame is not taken any further. -/
def captured (frame : VideoFrame) (a : LoopAnswer) : DisplayLoop × List LoopAction :=
  if p.clientActive then p.notice (.pace frame) a.now
  else ({ p with wasClientActive := false, phase := .poll }, [])

/-- Without a new frame, an active client may still be shown the one before. -/
def idle (a : LoopAnswer) : DisplayLoop × List LoopAction :=
  if p.clientActive then p.notice .replay a.now else ({ p with phase := .poll }, [])

/-- The frame before is taken again for a client that waits for EGFX to be set up. -/
def replay : DisplayLoop :=
  match p.cached with
  | some frame =>
    { p with phase := if p.needsInit && p.isEgfxReady then .pace frame else .poll }
  | none => { p with phase := .poll }

/-- A frame is taken further if it is of the committed size and not too early. -/
def pace (frame : VideoFrame) (a : LoopAnswer) : DisplayLoop :=
  if (frame.width, frame.height) = (p.egfx.size.1.toNat, p.egfx.size.2.toNat) ∧ a.paced = true then
    { p with phase := .gate frame }
  else { p with phase := .poll }

/-- Frames are held back until EGFX is ready, or for five seconds. -/
def gate (frame : VideoFrame) (a : LoopAnswer) : DisplayLoop × List LoopAction :=
  if !p.bypassed && !p.isEgfxReady then
    if p.firstFrameReceived && p.sessionStart + seconds 5 < a.now then
      ({ p with bypassed := true, phase := .late frame }, [.gaveUp a.now])
    else ({ p with phase := .poll }, [])
  else ({ p with phase := .late frame }, [])

/-- Whether EGFX is to be set up is looked at before anything else is. -/
def loadNeedsInit (frame : VideoFrame) : DisplayLoop :=
  { p with phase := .reset frame (!p.bypassed && p.needsInit) }

/-- EGFX that was given up is taken up again if it gets ready after all. -/
def late (frame : VideoFrame) : DisplayLoop :=
  if p.bypassed && p.isEgfxReady then { p with phase := .lateMode frame }
  else p.loadNeedsInit frame

/-- What it got ready for may still be bitmaps. -/
def lateMode (frame : VideoFrame) : DisplayLoop :=
  if p.negotiatedMode = some .bitmap then { p with needsInit := false }.loadNeedsInit frame
  else { p with bypassed := false }.loadNeedsInit frame

/-- A reset of the core graphics is taken, and nothing is left of EGFX. -/
def reset (frame : VideoFrame) (needsInit : Bool) (a : LoopAnswer) :
    DisplayLoop × List LoopAction :=
  let p := { p with phase := .mode frame needsInit }
  match p.handler with
  | some state =>
    if state.requiresCoreReset then
      ({ p with
          handler := some { state with requiresCoreReset := false }
          egfx := p.egfx.coreGraphicsReset a.published },
        if a.published then [.coreReset p.egfx.size] else [])
    else (p, [])
  | none => (p, [])

/-- The bitmap path, on which a frame may turn out to show nothing new. -/
def sendBitmap (a : LoopAnswer) : DisplayLoop × List LoopAction :=
  ({ p with phase := .poll }, if a.bitmap then [.bitmap] else [])

/-- The path is chosen by the mode, which is not looked at while EGFX is passed over. -/
def mode (frame : VideoFrame) (needsInit : Bool) (a : LoopAnswer) :
    DisplayLoop × List LoopAction :=
  match if p.bypassed then none else p.negotiatedMode with
  | some .bitmap => { p.dropEncoder with bypassed := true, needsInit := false }.sendBitmap a
  | some .avc420 | some .avc444 =>
    ({ p with phase := if needsInit then .initialise frame else .send frame }, [])
  | none => if needsInit then ({ p with phase := .caps frame }, []) else p.sendBitmap a

/-- A client without EGFX needs no set-up, unless it is still negotiating. -/
def caps (a : LoopAnswer) : DisplayLoop × List LoopAction :=
  if p.handler.any fun state => !state.isReady then p.sendBitmap a
  else { p with needsInit := false }.sendBitmap a

/-- The encoder that is made: in hardware, of AVC444 or of AVC420, in this order. -/
def newEncoder (cfg : LoopConfig) (a : LoopAnswer) : Option VideoEncoder :=
  if cfg.hardwareEnabled && !p.hardwareDisabled && a.hardware then some .hardware
  else if cfg.wantsAvc444 && p.negotiatedMode = some .avc444 && a.avc444 then some .avc444
  else if a.avc420 then some .avc420
  else none

/-- The sender is made with the encoder, and only if there is a pipeline. -/
def initialise (cfg : LoopConfig) (frame : VideoFrame) (a : LoopAnswer) : DisplayLoop :=
  { p with
    egfx := p.egfx.initialise (p.newEncoder cfg a) p.gfxServer
    phase := if (p.newEncoder cfg a).isSome && p.gfxServer then .surface frame else .send frame }

/-- EGFX counts as set up, whether or not there is a surface and it could be written down. -/
def createSurface (frame : VideoFrame) (a : LoopAnswer) : DisplayLoop × List LoopAction :=
  let p := { p with needsInit := false, phase := .send frame }
  match a.surface with
  | some surface =>
    ({ p with
        handler := if a.stored then
            p.handler.map fun state => { state with primarySurfaceId := some surface }
          else p.handler },
      [.surface surface frame.encodedSize frame.displaySize])
  | none => (p, [])

/-- The sender is given what the encoder returned. -/
def sendEncoded (frame : VideoFrame) (encoder : VideoEncoder) (a : LoopAnswer) :
    Except String (UInt16 × UInt32) :=
  match a.encoded, encoder with
  | .frame main aux, .avc444 =>
    sendAvc444FrameWithRegions p.handler main aux frame.encodedSize frame.displaySize a.delivery
  | .frame main _, _ =>
    sendFrameWithRegions p.handler main frame.encodedSize frame.displaySize a.delivery
  | _, _ => .error "nothing was encoded"

/-- What the path makes of the frame depends on whether it can be sent. -/
def capture (frame : VideoFrame) (encoder : VideoEncoder) (a : LoopAnswer) : Capture where
  frame := frame
  periodicIdrDue := a.periodicIdrDue
  decision := a.decision
  encodeResult := a.encoded.result
  sendOk := (p.sendEncoded frame encoder a).isOk
  fallbackOk := a.fallbackOk

/-- The frame gets to the encoder. -/
def attempts (egfx : Egfx) (c : Capture) : Bool :=
  (egfx.process { c with encodeResult := .frame 1, sendOk := true }).sent.isSome

/-- Without an encoder and a sender the frame goes out as a bitmap. -/
def send (frame : VideoFrame) (a : LoopAnswer) : DisplayLoop × List LoopAction :=
  match p.egfx.encoder, p.egfx.sender with
  | some encoder, true =>
    let c := p.capture frame encoder a
    let processed := p.egfx.process c
    ({ p with
        egfx := processed.egfx
        hardwareDisabled := p.hardwareDisabled ||
          (encoder = .hardware && attempts p.egfx c && processed.sent.isNone)
        phase := .poll },
      match processed.sent, p.sendEncoded frame encoder a with
      | some _, .ok (surface, _) => [.avc encoder surface frame.encodedSize frame.displaySize]
      | _, _ => [])
  | _, _ => p.sendBitmap a

/-- The next phase. -/
def advance (cfg : LoopConfig) (a : LoopAnswer) : DisplayLoop × List LoopAction :=
  match p.phase with
  | .poll => p.poll a
  | .captured frame => p.captured frame a
  | .idle => p.idle a
  | .replay => (p.replay, [])
  | .pace frame => (p.pace frame a, [])
  | .gate frame => p.gate frame a
  | .late frame => (p.late frame, [])
  | .lateMode frame => (p.lateMode frame, [])
  | .reset frame needsInit => p.reset frame needsInit a
  | .mode frame needsInit => p.mode frame needsInit a
  | .caps _ => p.caps a
  | .initialise frame => (p.initialise cfg frame a, [])
  | .surface frame => p.createSurface frame a
  | .send frame => p.send frame a

/-! ### What runs beside it -/

/-- What is published is replaced, if it is not locked for too long. -/
def publish (mode : NegotiatedEgfxMode) (state : HandlerState) (contended : Bool) :
    DisplayLoop × List LoopAction :=
  if contended then (p, [])
  else ({ p with handler := some state }, [.published mode state.requiresCoreReset])

/-- The client takes updates. If it did so before, it was reactivated. -/
def updates : DisplayLoop :=
  { p with
    needsInit := !p.receiver || p.needsInit
    receiver := false
    clientActive := true }

end DisplayLoop

/-! ### Runs -/

/-- What happens to the loop, and its own turns. -/
inductive LoopInput where
  /-- The client confirms capabilities. -/
  | ready (cap : CapabilitySet) (contended : Bool)
  /-- The client closes the EGFX channel. -/
  | closed (contended : Bool)
  | updates
  /-- The resources of the connection are released. -/
  | release
  | advance (a : LoopAnswer)

/-- The loop, beside the handler of its channel. -/
def displayLoop (cfg : LoopConfig) : Machine DisplayLoop LoopInput LoopAction where
  step p
    | .ready cap contended =>
      if cfg.offersEgfx then
        p.publish (selectMode cfg.policy (codecSupport cap)) (.onReady cfg.policy cap) contended
      else (p, [])
    | .closed contended =>
      if cfg.offersEgfx then p.publish .bitmap (.bitmapFallback true) contended else (p, [])
    | .updates => (p.updates, [])
    | .release => ({ p with stop := true, clientActive := false }, [])
    | .advance a => if p.egfx.running then p.advance cfg a else (p, [])

/-- The loop of a new connection. -/
def DisplayLoop.initial (cfg : LoopConfig) (attached : Bool) (size : DesktopSize) (now : Instant) :
    DisplayLoop where
  handler := none
  gfxServer := cfg.offersEgfx && attached
  needsInit := true
  clientActive := false
  receiver := true
  stop := false
  egfx := .start cfg.damage size
  hardwareDisabled := false
  cached := none
  firstFrameReceived := false
  sessionStart := now
  bypassed := cfg.startsInBitmapMode
  wasClientActive := false
  phase := .poll

end Graphics

end Cheirizo
