import Cheirizo.Clock
import Cheirizo.Wayland.Screencopy

/-!
# Screen capture by ext-image-copy-capture

`src/desktop/portal/xdg_desktop/wayland/ext_capture.rs`: each captured output has a session. The
compositor sends the constraints on buffers for the session, a size and some formats, and then
`done`; the client allocates a buffer that meets them and asks for a frame. When the frame is
`ready` the pixels go to PipeWire and the next frame is asked for, or, for a screenshot, to whoever
asked for it, and the session is over. Constraints may be sent again at any time.

That a capture is a screenshot is recorded only by the sender of its reply, which every handler
takes for itself.

## What is outside

Whether a buffer can be mapped is part of the `done` event. Pixels are not modelled. Sessions,
frames and buffers have numbers, two for each event to take from; a reply has the number of its
session. Events of a frame name the frame, which the program does not look at.

## Main definitions

* `BufferConstraints.pickFormat` — the choice of a format
* `ActiveExtCapture.handle` — the handlers of a session's and a frame's events
* `ExtCaptureState.checkHandshakeTimeouts` — the periodic check for sessions without constraints
* `ExtCaptureState.handle` — the client
-/

namespace Cheirizo

namespace Wayland

/-! ### Constraints -/

/-- The pixel formats of `wl_shm` that the capture can use. The first two have numbers of their
own. -/
def argb8888 : UInt32 := 0
def xrgb8888 : UInt32 := 1
def abgr8888 : UInt32 := 0x34324241
def xbgr8888 : UInt32 := 0x34324258

/-- The formats that the client can name when it creates a buffer. -/
def knownFormats : List UInt32 := [argb8888, xrgb8888, abgr8888, xbgr8888]

/-- The format that a Wayland buffer is created with. The program keeps it beside the raw one. -/
def BufferFormatInfo.format (info : BufferFormatInfo) : UInt32 :=
  if info.formatRaw ∈ knownFormats then info.formatRaw else argb8888

/-- What a buffer has to be, as far as the session has said so. -/
structure BufferConstraints where
  width : UInt32 := 0
  height : UInt32 := 0
  shmFormats : List UInt32 := []
  done : Bool := false
  deriving DecidableEq, Repr

/-- ARGB, else XRGB, else the first format that was sent. -/
def BufferConstraints.pickFormat (constraints : BufferConstraints) : Option BufferFormatInfo :=
  match constraints.shmFormats with
  | [] => none
  | first :: _ =>
    if constraints.width = 0 ∨ constraints.height = 0 then none
    else
      let formatRaw :=
        if argb8888 ∈ constraints.shmFormats then argb8888
        else if xrgb8888 ∈ constraints.shmFormats then xrgb8888
        else first
      some ⟨formatRaw, constraints.width, constraints.height, constraints.width * 4⟩

/-! ### Captures -/

/-- A session that captures an output, or takes one picture of it. -/
structure ActiveExtCapture where
  output : ℕ
  session : ℕ
  constraints : BufferConstraints
  shmBuffer : Option ShmFrameBuffer
  pendingFrame : Option ℕ
  stopped : Bool
  screenshotReply : Bool
  createdAt : Instant
  timeoutReported : Bool
  deriving DecidableEq, Repr

/-- What the client asks of the compositor, and what it hands on. -/
inductive ExtAction where
  | createSession (session : ℕ) (node : NodeId) (cursor : Bool) (output : ℕ)
  | destroySession (session : ℕ)
  | createFrame (session frame : ℕ)
  | capture (session frame : ℕ) (buffer : ShmFrameBuffer)
  | destroyFrame (session frame : ℕ)
  | reply (session : ℕ) (result : Except String RawFrame)
  | queueBuffer (session : ℕ) (node : NodeId) (frame : RawFrame)
  deriving DecidableEq

/-- The session that an action is about. -/
def ExtAction.session : ExtAction → ℕ
  | .createSession session _ _ _ => session
  | .destroySession session => session
  | .createFrame session _ => session
  | .capture session _ _ => session
  | .destroyFrame session _ => session
  | .reply session _ => session
  | .queueBuffer session _ _ => session

/-- The events of a session and of its frames, and the command that ends it. -/
inductive SessionEvent where
  | bufferSize (width height : UInt32)
  | shmFormat (format : UInt32)
  | done (mapped : Except String Unit)
  | stopped
  | ready (frame : ℕ)
  | failed (frame : ℕ) (reason : UInt32)
  | stopCapture
  deriving DecidableEq

namespace ActiveExtCapture

/-- A session that has just been created knows no constraint yet. -/
def start (output session : ℕ) (screenshot : Bool) (now : Instant) : ActiveExtCapture :=
  ⟨output, session, {}, none, none, false, screenshot, now, false⟩

/-- What is sent to whoever waits for the screenshot. The sender is used up. -/
def reply (c : ActiveExtCapture) (result : Except String RawFrame) : List ExtAction :=
  if c.screenshotReply then [.reply c.session result] else []

/-- The frame that is pending, if one is. -/
def destroyFrame (c : ActiveExtCapture) : List ExtAction :=
  (c.pendingFrame.map (.destroyFrame c.session)).toList

/-- The frame goes before the session it belongs to. -/
def stopCapture (c : ActiveExtCapture) : Option ActiveExtCapture × List ExtAction :=
  (none, c.destroyFrame ++ [.destroySession c.session])

/-- A buffer is kept as long as the constraints describe it. -/
def needsNewBuffer (c : ActiveExtCapture) (format : BufferFormatInfo) : Bool :=
  c.shmBuffer.all fun buf =>
    buf.format.formatRaw ≠ format.formatRaw || buf.format.width ≠ format.width ||
      buf.format.height ≠ format.height || buf.format.stride ≠ format.stride

/-- Have a buffer ready that meets the constraints. -/
def allocate (c : ActiveExtCapture) (buffer : ℕ) (mapped : Except String Unit) :
    Except String ActiveExtCapture :=
  match c.constraints.pickFormat with
  | none => .error "No suitable SHM format"
  | some format =>
    if c.needsNewBuffer format then
      match ShmFrameBuffer.new buffer format mapped with
      | .ok buf => .ok { c with shmBuffer := some buf }
      | .error e => .error ("SHM allocation failed: " ++ e)
    else .ok c

/-- A format can be picked, and a buffer of it is there or can be had. -/
def CanAllocate (c : ActiveExtCapture) (next : ℕ) (mapped : Except String Unit) :
    Prop :=
  ∃ format, c.constraints.pickFormat = some format ∧
    (c.needsNewBuffer format = true → ∃ buf, ShmFrameBuffer.new next format mapped = .ok buf)

/-- Create a frame, and have it captured if there is a buffer. -/
def createFrame (c : ActiveExtCapture) (frame : ℕ) : ActiveExtCapture × List ExtAction :=
  ({ c with pendingFrame := some frame },
    .createFrame c.session frame :: (c.shmBuffer.map (.capture c.session frame)).toList)

/-- A stopped session gives no further frames. -/
def requestNextFrame (c : ActiveExtCapture) (frame : ℕ) : ActiveExtCapture × List ExtAction :=
  if c.stopped then (c, []) else c.createFrame frame

/-- A failed allocation ends a screenshot with its error. A stream just waits for other
constraints. -/
def allocateAndCapture (c : ActiveExtCapture) (shm : Bool) (next : ℕ)
    (mapped : Except String Unit) : ActiveExtCapture × List ExtAction :=
  if !shm || c.stopped then (c, [])
  else
    match c.allocate next mapped with
    | .error e => ({ c with screenshotReply := false }, c.reply (.error e))
    | .ok c => c.createFrame (next + 1)

/-- The size is that of the last offer. -/
def onSessionBufferSize (c : ActiveExtCapture) (width height : UInt32) : ActiveExtCapture :=
  { c with constraints := { c.constraints with width, height } }

/-- Formats only join the list: an earlier round is not forgotten. -/
def onSessionShmFormat (c : ActiveExtCapture) (format : UInt32) : ActiveExtCapture :=
  { c with constraints :=
      { c.constraints with shmFormats := c.constraints.shmFormats ++ [format] } }

/-- The constraints are complete, so that a buffer can be made. -/
def onSessionDone (c : ActiveExtCapture) (shm : Bool) (next : ℕ) (mapped : Except String Unit) :
    ActiveExtCapture × List ExtAction :=
  { c with constraints := { c.constraints with done := true } }.allocateAndCapture shm next mapped

/-- The compositor ends the session, and a screenshot with it. -/
def onSessionStopped (c : ActiveExtCapture) : Option ActiveExtCapture × List ExtAction :=
  let stop := { c with stopped := true, screenshotReply := false }.stopCapture
  (stop.1, c.reply (.error "Capture session stopped by compositor") ++ stop.2)

/-- A finished frame is handed on. A screenshot ends with it, a stream asks for the next. -/
def onFrameReady (c : ActiveExtCapture) (pipewire : Bool) (next : ℕ) (node : NodeId) :
    Option ActiveExtCapture × List ExtAction :=
  let destroyed := c.destroyFrame
  let c := { c with pendingFrame := none }
  match c.shmBuffer with
  | none =>
    (some { c with screenshotReply := false },
      destroyed ++ c.reply (.error "No SHM buffer available"))
  | some buf =>
    let frame : RawFrame :=
      ⟨buf.format.width, buf.format.height, buf.format.stride, buf.format.formatRaw⟩
    if c.screenshotReply then
      (none, destroyed ++ [.reply c.session (.ok frame), .destroySession c.session])
    else
      let queued := if pipewire then [.queueBuffer c.session node frame] else []
      let request := c.requestNextFrame (next + 1)
      (some request.1, destroyed ++ queued ++ request.2)

/-- A failed frame ends a screenshot. A stream asks for another. -/
def onFrameFailed (c : ActiveExtCapture) (next : ℕ) (reason : UInt32) :
    Option ActiveExtCapture × List ExtAction :=
  let destroyed := c.destroyFrame
  let c := { c with pendingFrame := none }
  if c.screenshotReply then
    let error := "ext frame capture failed (reason: " ++ toString reason.toNat ++ ")"
    (none, destroyed ++ [.reply c.session (.error error), .destroySession c.session])
  else if reason = 1 then (some { c with constraints := {}, shmBuffer := none }, destroyed)
  else
    let request := c.requestNextFrame (next + 1)
    (some request.1, destroyed ++ request.2)

/-- `reason` is `0` for reasons that the client does not know. -/
def handle (c : ActiveExtCapture) (shm pipewire : Bool) (next : ℕ) (node : NodeId) :
    SessionEvent → Option ActiveExtCapture × List ExtAction
  | .bufferSize width height => (some (c.onSessionBufferSize width height), [])
  | .shmFormat format => (some (c.onSessionShmFormat format), [])
  | .done mapped =>
    let r := c.onSessionDone shm next mapped
    (some r.1, r.2)
  | .stopped => c.onSessionStopped
  | .ready _ => c.onFrameReady pipewire next node
  | .failed _ reason => c.onFrameFailed next reason
  | .stopCapture => c.stopCapture

/-- The constraints have not come in time, and nobody has been told. -/
def timedOut (c : ActiveExtCapture) (timeout : ℕ) (now : Instant) : Bool :=
  !(c.constraints.done || c.stopped || c.timeoutReported) && timeout ≤ now - c.createdAt

/-- A session is reported once, and a screenshot learns of it. -/
def reportTimeout (c : ActiveExtCapture) (now : Instant) : ActiveExtCapture × List ExtAction :=
  ({ c with timeoutReported := true, screenshotReply := false },
    c.reply (.error ("ext-capture handshake timed out after " ++
      toString ((now - c.createdAt) / millis 1) ++ "ms")))

end ActiveExtCapture

/-! ### The client -/

/-- The client's side of the protocol. -/
structure ExtCaptureState where
  manager : Bool
  sourceManager : Bool
  captures : NodeId → Option ActiveExtCapture
  pipewire : Bool
  shm : Bool
  handshakeTimeout : ℕ
  /-- The number of the next Wayland object. -/
  nextObject : ℕ
  /-- The next name for a screenshot. -/
  screenshotId : NodeId

/-- The order in which a map is walked. -/
structure Walk where
  nodes : List NodeId
  nodup : nodes.Nodup

/-- What the client is asked, and what its sessions report. -/
inductive ExtEvent where
  | startCapture (node : NodeId) (output : ℕ) (cursor : Bool) (now : Instant)
  | startScreenshot (output : ℕ) (now : Instant)
  | checkHandshakeTimeouts (walk : Walk) (now : Instant)
  | session (node : NodeId) (e : SessionEvent)

namespace ExtCaptureState

/-- Work on the capture of a node, if there is one. -/
def onCapture (s : ExtCaptureState) (node : NodeId)
    (f : ActiveExtCapture → Option ActiveExtCapture × List ExtAction) :
    ExtCaptureState × List ExtAction :=
  match s.captures node with
  | none => (s, [])
  | some c => ({ s with captures := Function.update s.captures node (f c).1 }, (f c).2)

/-- A capture of a node replaces an older one without ending it. -/
def startCapture (s : ExtCaptureState) (node : NodeId) (output : ℕ) (cursor : Bool)
    (now : Instant) : ExtCaptureState × List ExtAction :=
  if s.sourceManager && s.manager then
    let c := ActiveExtCapture.start output s.nextObject false now
    ({ s with captures := Function.update s.captures node (some c) },
      [.createSession s.nextObject node cursor output])
  else (s, [])

/-- A screenshot runs under a number that is no node. -/
def startScreenshot (s : ExtCaptureState) (output : ℕ) (now : Instant) :
    ExtCaptureState × List ExtAction :=
  if !s.sourceManager then (s, [.reply s.nextObject (.error "ext source manager not bound")])
  else if !s.manager then (s, [.reply s.nextObject (.error "ext capture manager not bound")])
  else
    let c := ActiveExtCapture.start output s.nextObject true now
    ({ s with
        captures := Function.update s.captures s.screenshotId (some c)
        screenshotId := s.screenshotId + 1 },
      [.createSession s.nextObject s.screenshotId true output])

/-- Sessions end in the order in which the map is walked. -/
def stopCaptures : ExtCaptureState → List NodeId → ExtCaptureState × List ExtAction
  | s, [] => (s, [])
  | s, node :: nodes =>
    let r := s.onCapture node ActiveExtCapture.stopCapture
    let rest := stopCaptures r.1 nodes
    (rest.1, r.2 ++ rest.2)

/-- The captures whose time is up, in the order of the walk. -/
def overdue (s : ExtCaptureState) (walk : Walk) (now : Instant) : List NodeId :=
  if s.handshakeTimeout = 0 then []
  else walk.nodes.filter fun node => (s.captures node).any (·.timedOut s.handshakeTimeout now)

/-- Whoever waits for a screenshot that is overdue is told; the captures are left. -/
def reportTimeouts : ExtCaptureState → Instant → List NodeId → ExtCaptureState × List ExtAction
  | s, _, [] => (s, [])
  | s, now, node :: nodes =>
    let r := s.onCapture node fun c => ((c.reportTimeout now).1, (c.reportTimeout now).2)
    let rest := reportTimeouts r.1 now nodes
    (rest.1, r.2 ++ rest.2)

/-- The check with what the event loop makes of it: the captures that are overdue are stopped. -/
def checkHandshakeTimeouts (s : ExtCaptureState) (walk : Walk) (now : Instant) :
    ExtCaptureState × List ExtAction :=
  let nodes := s.overdue walk now
  let reported := s.reportTimeouts now nodes
  let stopped := reported.1.stopCaptures nodes
  (stopped.1, reported.2 ++ stopped.2)

/-- An event of a session reaches the capture of its node, if there is one. -/
def dispatch (s : ExtCaptureState) : ExtEvent → ExtCaptureState × List ExtAction
  | .startCapture node output cursor now => s.startCapture node output cursor now
  | .startScreenshot output now => s.startScreenshot output now
  | .checkHandshakeTimeouts walk now => s.checkHandshakeTimeouts walk now
  | .session node e => s.onCapture node fun c => c.handle s.shm s.pipewire s.nextObject node e

/-- Objects that may have been created have their numbers. -/
def handle (s : ExtCaptureState) (e : ExtEvent) : ExtCaptureState × List ExtAction :=
  let r := s.dispatch e
  ({ r.1 with nextObject := s.nextObject + 2 }, r.2)

/-- A client with the globals it could bind. -/
def bound (manager sourceManager shm pipewire : Bool) (handshakeTimeout : ℕ) : ExtCaptureState :=
  ⟨manager, sourceManager, fun _ => none, pipewire, shm, handshakeTimeout, 0, 0xA0000000⟩

/-- The session is in the map. -/
def Live (s : ExtCaptureState) (session : ℕ) : Prop :=
  ∃ node c, s.captures node = some c ∧ c.session = session

end ExtCaptureState

/-! ### Handlers keep to their session -/

section Captures

variable {c c' : ActiveExtCapture} {shm pipewire : Bool} {next : ℕ} {node : NodeId}
  {mapped : Except String Unit} {a : ExtAction}

namespace ActiveExtCapture

variable {P : ExtAction → Prop}

theorem forall_mem_reply {result : Except String RawFrame} :
    (∀ a ∈ c.reply result, P a) ↔ (c.screenshotReply = true → P (.reply c.session result)) := by
  cases h : c.screenshotReply <;> simp [reply, h]

theorem forall_mem_destroyFrame :
    (∀ a ∈ c.destroyFrame, P a) ↔
      ∀ frame, c.pendingFrame = some frame → P (.destroyFrame c.session frame) := by
  cases h : c.pendingFrame <;> simp [destroyFrame, h]

theorem forall_mem_stopCapture :
    (∀ a ∈ c.stopCapture.2, P a) ↔
      (∀ frame, c.pendingFrame = some frame → P (.destroyFrame c.session frame)) ∧
        P (.destroySession c.session) := by
  rw [stopCapture, List.forall_mem_append, forall_mem_destroyFrame, List.forall_mem_singleton]

theorem forall_mem_createFrame {frame : ℕ} :
    (∀ a ∈ (c.createFrame frame).2, P a) ↔
      P (.createFrame c.session frame) ∧
        ∀ buf, c.shmBuffer = some buf → P (.capture c.session frame buf) := by
  cases h : c.shmBuffer <;> simp [createFrame, h]

theorem forall_mem_requestNextFrame {frame : ℕ} :
    (∀ a ∈ (c.requestNextFrame frame).2, P a) ↔
      (c.stopped = false → P (.createFrame c.session frame) ∧
        ∀ buf, c.shmBuffer = some buf → P (.capture c.session frame buf)) := by
  cases h : c.stopped
  · rw [requestNextFrame, h, if_neg Bool.false_ne_true, forall_mem_createFrame]
    simp
  · simp [requestNextFrame, h]

/-- What has been allocated is a buffer of the format that was picked. -/
theorem allocate_eq_ok (h : c.allocate next mapped = .ok c') :
    ∃ format buf, c.constraints.pickFormat = some format ∧ buf.format = format ∧
      c' = { c with shmBuffer := some buf } := by
  unfold allocate at h
  split at h
  · cases h
  · next format hformat =>
    split at h
    · split at h
      · next buf hbuf =>
        cases h
        exact ⟨format, buf, hformat, ShmFrameBuffer.format_new hbuf, rfl⟩
      · cases h
    · next hneeds =>
      cases h
      obtain ⟨buf, hbuf, hfit⟩ :=
        ShmFrameBuffer.format_eq_of_kept (Bool.eq_false_of_not_eq_true hneeds)
      exact ⟨format, buf, hformat, hfit, by rw [← hbuf]⟩

/-- When a buffer can be had. -/
theorem allocate_isOk_iff :
    (∃ c', c.allocate next mapped = .ok c') ↔ c.CanAllocate next mapped := by
  unfold allocate CanAllocate
  cases hformat : c.constraints.pickFormat with
  | none => simp
  | some format =>
    cases hneeds : c.needsNewBuffer format with
    | false => simp [hneeds]
    | true => cases hbuf : ShmFrameBuffer.new next format mapped <;> simp [hneeds, hbuf]

theorem session_requestNextFrame {frame : ℕ} :
    (c.requestNextFrame frame).1.session = c.session := by
  unfold requestNextFrame
  split <;> rfl

/-- A capture keeps its session. -/
theorem session_handle {e : SessionEvent}
    (h : (c.handle shm pipewire next node e).1 = some c') : c'.session = c.session := by
  cases e with
  | bufferSize width height =>
    cases h
    rfl
  | shmFormat format =>
    cases h
    rfl
  | done mapped =>
    simp only [handle, onSessionDone, allocateAndCapture] at h
    split at h
    · cases h
      rfl
    · split at h
      · cases h
        rfl
      · next c'' hc'' =>
        obtain ⟨format, buf, -, -, rfl⟩ := allocate_eq_ok hc''
        cases h
        rfl
  | stopped => cases h
  | ready frame =>
    simp only [handle, onFrameReady] at h
    split at h
    · cases h
      rfl
    · split at h
      · cases h
      · cases h
        exact session_requestNextFrame
  | failed frame reason =>
    simp only [handle, onFrameFailed] at h
    split at h
    · cases h
    · split at h
      · cases h
        rfl
      · cases h
        exact session_requestNextFrame
  | stopCapture => cases h

/-- A capture works for no session but its own. -/
theorem session_of_mem_handle (e : SessionEvent) :
    ∀ a ∈ (c.handle shm pipewire next node e).2, a.session = c.session := by
  cases e with
  | bufferSize width height => exact List.forall_mem_nil _
  | shmFormat format => exact List.forall_mem_nil _
  | done mapped =>
    simp only [handle, onSessionDone, allocateAndCapture]
    split
    · exact List.forall_mem_nil _
    · split
      · exact forall_mem_reply.mpr fun _ => rfl
      · next c'' hc'' =>
        obtain ⟨format, buf, -, -, rfl⟩ := allocate_eq_ok hc''
        exact forall_mem_createFrame.mpr ⟨rfl, fun _ _ => rfl⟩
  | stopped =>
    exact List.forall_mem_append.mpr ⟨forall_mem_reply.mpr fun _ => rfl,
      forall_mem_stopCapture.mpr ⟨fun _ _ => rfl, rfl⟩⟩
  | ready frame =>
    have hdestroy : ∀ a ∈ c.destroyFrame, a.session = c.session :=
      forall_mem_destroyFrame.mpr fun _ _ => rfl
    simp only [handle, onFrameReady]
    split
    · exact List.forall_mem_append.mpr ⟨hdestroy, forall_mem_reply.mpr fun _ => rfl⟩
    · split
      · exact List.forall_mem_append.mpr ⟨hdestroy, by simp [ExtAction.session]⟩
      · refine List.forall_mem_append.mpr ⟨List.forall_mem_append.mpr ⟨hdestroy, ?_⟩,
          forall_mem_requestNextFrame.mpr fun _ => ⟨rfl, fun _ _ => rfl⟩⟩
        cases pipewire <;> simp [ExtAction.session]
  | failed frame reason =>
    have hdestroy : ∀ a ∈ c.destroyFrame, a.session = c.session :=
      forall_mem_destroyFrame.mpr fun _ _ => rfl
    simp only [handle, onFrameFailed]
    split
    · exact List.forall_mem_append.mpr ⟨hdestroy, by simp [ExtAction.session]⟩
    · split
      · exact hdestroy
      · exact List.forall_mem_append.mpr
          ⟨hdestroy, forall_mem_requestNextFrame.mpr fun _ => ⟨rfl, fun _ _ => rfl⟩⟩
  | stopCapture => exact forall_mem_stopCapture.mpr ⟨fun _ _ => rfl, rfl⟩

end ActiveExtCapture

end Captures

/-! ### What becomes of the map -/

section Client

variable {s : ExtCaptureState} {node node' : NodeId} {c c' : ActiveExtCapture} {now : Instant}
  {nodes : List NodeId} {f : ActiveExtCapture → Option ActiveExtCapture × List ExtAction}

namespace ExtCaptureState

theorem onCapture_of_some (h : s.captures node = some c) :
    s.onCapture node f =
      ({ s with captures := Function.update s.captures node (f c).1 }, (f c).2) := by
  rw [onCapture, h]

theorem onCapture_of_none (h : s.captures node = none) : s.onCapture node f = (s, []) := by
  rw [onCapture, h]

theorem captures_onCapture :
    (s.onCapture node f).1.captures =
      Function.update s.captures node ((s.captures node).bind fun c => (f c).1) := by
  cases h : s.captures node with
  | none => rw [onCapture_of_none h, Option.bind_none, ← h, Function.update_eq_self]
  | some c => rw [onCapture_of_some h, Option.bind_some]

theorem actions_onCapture :
    (s.onCapture node f).2 = (s.captures node).elim [] fun c => (f c).2 := by
  cases h : s.captures node with
  | none => rw [onCapture_of_none h, Option.elim_none]
  | some c => rw [onCapture_of_some h, Option.elim_some]

theorem captures_stopCaptures :
    (s.stopCaptures nodes).1.captures node =
      if node ∈ nodes then none else s.captures node := by
  induction nodes generalizing s with
  | nil => rfl
  | cons first nodes ih =>
    rw [stopCaptures, ih, captures_onCapture]
    by_cases hfirst : node = first
    · subst hfirst
      cases s.captures node <;> simp [ActiveExtCapture.stopCapture]
    · simp [hfirst]

theorem captures_reportTimeouts :
    (s.reportTimeouts now nodes).1.captures node =
      if node ∈ nodes then (s.captures node).map fun c => (c.reportTimeout now).1
      else s.captures node := by
  induction nodes generalizing s with
  | nil => rfl
  | cons first nodes ih =>
    rw [reportTimeouts, ih, captures_onCapture]
    by_cases hfirst : node = first
    · subst hfirst
      cases s.captures node <;> simp [ActiveExtCapture.reportTimeout]
    · simp [hfirst]

/-- A capture that is overdue is gone, and the others are as they were. -/
theorem captures_checkHandshakeTimeouts (walk : Walk) :
    (s.checkHandshakeTimeouts walk now).1.captures node =
      if node ∈ s.overdue walk now then none else s.captures node := by
  rw [checkHandshakeTimeouts, captures_stopCaptures, captures_reportTimeouts]
  split <;> rfl

/-- The name under which an event begins a capture. -/
def starts (s : ExtCaptureState) : ExtEvent → Option NodeId
  | .startCapture node _ _ _ => if s.sourceManager && s.manager then some node else none
  | .startScreenshot _ _ => if s.sourceManager && s.manager then some s.screenshotId else none
  | _ => none

/-- A screenshot is asked for. -/
def isScreenshot : ExtEvent → Bool
  | .startScreenshot _ _ => true
  | _ => false

/-- What it means for a capture to begin. -/
theorem handle_of_starts {e : ExtEvent} (h : s.starts e = some node) :
    ∃ output cursor now,
      (s.handle e).1.captures = Function.update s.captures node
        (some (.start output s.nextObject (isScreenshot e) now)) ∧
      (s.handle e).2 = [.createSession s.nextObject node cursor output] := by
  cases e with
  | startCapture node output cursor now =>
    obtain ⟨hbound, hnode⟩ := Option.ite_none_right_eq_some.mp h
    cases hnode
    refine ⟨output, cursor, now, ?_⟩
    rw [handle, dispatch, startCapture, if_pos hbound]
    exact ⟨rfl, rfl⟩
  | startScreenshot output now =>
    obtain ⟨hbound, hnode⟩ := Option.ite_none_right_eq_some.mp h
    cases hnode
    obtain ⟨hsource, hmanager⟩ := Bool.and_eq_true_iff.mp hbound
    refine ⟨output, true, now, ?_⟩
    rw [handle, dispatch, startScreenshot, hsource, hmanager]
    exact ⟨rfl, rfl⟩
  | checkHandshakeTimeouts walk now => cases h
  | session node e => cases h

/-- Without the globals no capture begins. -/
theorem dispatch_startCapture_of_unbound {output : ℕ} {cursor : Bool}
    (h : s.starts (.startCapture node output cursor now) = none) :
    s.dispatch (.startCapture node output cursor now) = (s, []) := by
  have hbound : ¬ (s.sourceManager && s.manager) = true := by simpa [starts] using h
  rw [dispatch, startCapture, if_neg hbound]

/-- Without the globals no screenshot begins, and whoever waits for it is told. -/
theorem dispatch_startScreenshot_of_unbound {output : ℕ}
    (h : s.starts (.startScreenshot output now) = none) :
    ∃ e, s.dispatch (.startScreenshot output now) = (s, [.reply s.nextObject (.error e)]) := by
  have hbound : ¬ (s.sourceManager && s.manager) = true := by simpa [starts] using h
  rw [dispatch, startScreenshot]
  split
  · exact ⟨_, rfl⟩
  · split
    · exact ⟨_, rfl⟩
    · simp_all

theorem handle_session {e : SessionEvent} (h : s.captures node = some c) :
    (s.handle (.session node e)).1.captures = Function.update s.captures node
        (c.handle s.shm s.pipewire s.nextObject node e).1 ∧
      (s.handle (.session node e)).2 = (c.handle s.shm s.pipewire s.nextObject node e).2 := by
  rw [handle, dispatch, onCapture_of_some h]
  exact ⟨rfl, rfl⟩

theorem handle_session_of_none {e : SessionEvent} (h : s.captures node = none) :
    (s.handle (.session node e)).1.captures = s.captures ∧ (s.handle (.session node e)).2 = [] := by
  rw [handle, dispatch, onCapture_of_none h]
  exact ⟨rfl, rfl⟩

/-- A capture in the map was there before, with the same session, or it has just begun. -/
theorem captures_handle {e : ExtEvent} (h : (s.handle e).1.captures node = some c') :
    (∃ c, s.captures node = some c ∧ c'.session = c.session) ∨
      s.starts e = some node ∧ c'.session = s.nextObject := by
  cases hstarts : s.starts e with
  | some first =>
    obtain ⟨output, cursor, now, hcaptures, -⟩ := handle_of_starts hstarts
    rw [hcaptures] at h
    by_cases hnode : node = first
    · subst hnode
      rw [Function.update_self] at h
      cases h
      exact .inr ⟨rfl, rfl⟩
    · rw [Function.update_of_ne hnode] at h
      exact .inl ⟨c', h, rfl⟩
  | none =>
  refine .inl ?_
  cases e with
  | startCapture first output cursor now =>
    rw [handle, dispatch_startCapture_of_unbound hstarts] at h
    exact ⟨c', h, rfl⟩
  | startScreenshot output now =>
    obtain ⟨e, hunbound⟩ := dispatch_startScreenshot_of_unbound hstarts
    rw [handle, hunbound] at h
    exact ⟨c', h, rfl⟩
  | checkHandshakeTimeouts walk now =>
    change (s.checkHandshakeTimeouts walk now).1.captures node = some c' at h
    rw [captures_checkHandshakeTimeouts] at h
    split at h
    · cases h
    · exact ⟨c', h, rfl⟩
  | session first e =>
    change (s.onCapture first _).1.captures node = some c' at h
    rw [captures_onCapture] at h
    by_cases hnode : node = first
    · subst hnode
      rw [Function.update_self] at h
      obtain ⟨c, hc, hc'⟩ := Option.bind_eq_some_iff.mp h
      exact ⟨c, hc, ActiveExtCapture.session_handle hc'⟩
    · rw [Function.update_of_ne hnode] at h
      exact ⟨c', h, rfl⟩

theorem live_handle {e : ExtEvent} {session : ℕ} (h : (s.handle e).1.Live session) :
    s.Live session ∨ session = s.nextObject := by
  obtain ⟨node, c', hc', rfl⟩ := h
  rcases captures_handle hc' with ⟨c, hc, hsession⟩ | ⟨-, hsession⟩
  · exact .inl ⟨node, c, hc, hsession.symm⟩
  · exact .inr hsession

/-- The replies of the check, one for every screenshot that is overdue. -/
theorem reportTimeouts_actions (hnodup : nodes.Nodup) :
    (s.reportTimeouts now nodes).2 =
      nodes.flatMap fun node => (s.captures node).elim [] fun c => (c.reportTimeout now).2 := by
  induction nodes generalizing s with
  | nil => rfl
  | cons first nodes ih =>
    obtain ⟨hfirst, hnodup⟩ := List.nodup_cons.mp hnodup
    have hrest : ∀ node ∈ nodes, ∀ o,
        Function.update s.captures first o node = s.captures node := by
      intro node hnode o
      have hne : node ≠ first := by
        rintro rfl
        exact hfirst hnode
      exact Function.update_of_ne hne ..
    rw [reportTimeouts, List.flatMap_cons]
    dsimp only
    rw [ih hnodup, actions_onCapture, captures_onCapture]
    congr 1
    refine List.flatMap_congr fun node hnode => ?_
    rw [hrest node hnode]

theorem overdue_nodup (walk : Walk) : (s.overdue walk now).Nodup := by
  unfold overdue
  split
  · exact List.nodup_nil
  · exact walk.nodup.filter _

/-- Who is told by the check waits for a capture that is overdue. -/
theorem mem_reportTimeouts {a : ExtAction} (hnodup : nodes.Nodup)
    (h : a ∈ (s.reportTimeouts now nodes).2) :
    ∃ node ∈ nodes, ∃ c result, s.captures node = some c ∧ a = .reply c.session result := by
  rw [reportTimeouts_actions hnodup] at h
  obtain ⟨node, hnode, ha⟩ := List.mem_flatMap.mp h
  cases hc : s.captures node with
  | none =>
    rw [hc] at ha
    exact absurd ha List.not_mem_nil
  | some c =>
    rw [hc, Option.elim_some] at ha
    have hreply : ∃ result, a = .reply c.session result :=
      (ActiveExtCapture.forall_mem_reply (P := fun a => ∃ result, a = .reply c.session result)).mpr
        (fun _ => ⟨_, rfl⟩) a ha
    obtain ⟨result, rfl⟩ := hreply
    exact ⟨node, hnode, c, result, hc, rfl⟩

/-- Captures that are stopped destroy what they have. -/
theorem mem_stopCaptures {a : ExtAction} (h : a ∈ (s.stopCaptures nodes).2) :
    (∃ node ∈ nodes, ∃ c, s.captures node = some c ∧ c.session = a.session) ∧
      ((∃ frame, a = .destroyFrame a.session frame) ∨ a = .destroySession a.session) := by
  induction nodes generalizing s with
  | nil => exact absurd h List.not_mem_nil
  | cons first nodes ih =>
    rcases List.mem_append.mp h with h | h
    · cases hc : s.captures first with
      | none =>
        rw [onCapture_of_none hc] at h
        exact absurd h List.not_mem_nil
      | some c =>
        rw [onCapture_of_some hc] at h
        have hall := (ActiveExtCapture.forall_mem_stopCapture (c := c) (P := fun a =>
            a.session = c.session ∧
              ((∃ frame, a = .destroyFrame a.session frame) ∨ a = .destroySession a.session))).mpr
          ⟨fun frame _ => ⟨rfl, .inl ⟨frame, rfl⟩⟩, rfl, .inr rfl⟩
        obtain ⟨hsession, hkind⟩ := hall a h
        exact ⟨⟨first, List.mem_cons_self .., c, hc, hsession.symm⟩, hkind⟩
    · obtain ⟨⟨node, hmem, c, hc, hsession⟩, hkind⟩ := ih h
      rw [captures_onCapture] at hc
      refine ⟨⟨node, List.mem_cons_of_mem _ hmem, c, ?_, hsession⟩, hkind⟩
      by_cases hnode : node = first
      · subst hnode
        rw [Function.update_self] at hc
        obtain ⟨d, -, hd⟩ := Option.bind_eq_some_iff.mp hc
        cases hd
      · rwa [Function.update_of_ne hnode] at hc

/-- What the check does is done for the captures that are overdue, and ends something of theirs. -/
theorem mem_checkHandshakeTimeouts {a : ExtAction} {walk : Walk}
    (h : a ∈ (s.checkHandshakeTimeouts walk now).2) :
    (∃ node ∈ s.overdue walk now, ∃ c, s.captures node = some c ∧ c.session = a.session) ∧
      ((∃ result, a = .reply a.session result) ∨ (∃ frame, a = .destroyFrame a.session frame) ∨
        a = .destroySession a.session) := by
  rcases List.mem_append.mp h with h | h
  · obtain ⟨node, hnode, c, result, hc, rfl⟩ := mem_reportTimeouts (overdue_nodup walk) h
    exact ⟨⟨node, hnode, c, hc, rfl⟩, .inl ⟨result, rfl⟩⟩
  · obtain ⟨⟨node, hnode, c', hc', hsession⟩, hkind⟩ := mem_stopCaptures h
    rw [captures_reportTimeouts, if_pos hnode] at hc'
    obtain ⟨c, hc, rfl⟩ := Option.map_eq_some_iff.mp hc'
    exact ⟨⟨node, hnode, c, hc, hsession⟩, .inr hkind⟩

/-- What is done is done for a session in the map, or for one that has just got its number. -/
theorem session_of_mem_handle (e : ExtEvent) :
    ∀ a ∈ (s.handle e).2, s.Live a.session ∨ a.session = s.nextObject := by
  intro a ha
  cases hstarts : s.starts e with
  | some node =>
    obtain ⟨output, cursor, now, -, hactions⟩ := handle_of_starts hstarts
    rw [hactions] at ha
    rw [List.mem_singleton.mp ha]
    exact .inr rfl
  | none =>
  cases e with
  | startCapture node output cursor now =>
    rw [handle, dispatch_startCapture_of_unbound hstarts] at ha
    exact absurd ha List.not_mem_nil
  | startScreenshot output now =>
    obtain ⟨e, hunbound⟩ := dispatch_startScreenshot_of_unbound hstarts
    rw [handle, hunbound] at ha
    rw [List.mem_singleton.mp ha]
    exact .inr rfl
  | checkHandshakeTimeouts walk now =>
    obtain ⟨⟨node, -, c, hc, hsession⟩, -⟩ := mem_checkHandshakeTimeouts ha
    exact .inl ⟨node, c, hc, hsession⟩
  | session node e =>
    left
    cases hc : s.captures node with
    | none =>
      rw [handle, dispatch, onCapture_of_none hc] at ha
      exact absurd ha List.not_mem_nil
    | some c =>
      rw [handle, dispatch, onCapture_of_some hc] at ha
      exact ⟨node, c, hc, (ActiveExtCapture.session_of_mem_handle e a ha).symm⟩

end ExtCaptureState

/-- Sessions in the map have different numbers, all of them given out. -/
structure Numbered (s : ExtCaptureState) : Prop where
  lt : ∀ node c, s.captures node = some c → c.session < s.nextObject
  unique : ∀ node node' c c', s.captures node = some c → s.captures node' = some c' →
    c.session = c'.session → node = node'

theorem Numbered.bound (manager sourceManager shm pipewire : Bool) (handshakeTimeout : ℕ) :
    Numbered (.bound manager sourceManager shm pipewire handshakeTimeout) where
  lt _ _ hc := by cases hc
  unique _ _ _ _ hc := by cases hc

theorem Numbered.handle (h : Numbered s) (e : ExtEvent) : Numbered (s.handle e).1 where
  lt node c' hc' := by
    change c'.session < s.nextObject + 2
    rcases ExtCaptureState.captures_handle hc' with ⟨c, hc, hsession⟩ | ⟨-, hsession⟩
    · have := h.lt node c hc
      omega
    · omega
  unique node₁ node₂ c₁ c₂ h₁ h₂ hsession := by
    rcases ExtCaptureState.captures_handle h₁ with ⟨d₁, hd₁, hs₁⟩ | ⟨hstart₁, hs₁⟩ <;>
      rcases ExtCaptureState.captures_handle h₂ with ⟨d₂, hd₂, hs₂⟩ | ⟨hstart₂, hs₂⟩
    · exact h.unique node₁ node₂ d₁ d₂ hd₁ hd₂ (by omega)
    · have := h.lt node₁ d₁ hd₁
      omega
    · have := h.lt node₂ d₂ hd₂
      omega
    · exact Option.some_injective _ (hstart₁.symm.trans hstart₂)

end Client

end Wayland

end Cheirizo
