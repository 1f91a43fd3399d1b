import Cheirizo.Lib.Machine
import Mathlib.Logic.Function.Basic

/-!
# Screen capture by wlr-screencopy

`src/desktop/portal/xdg_desktop/wayland/screencopy.rs`: each captured output has one frame at a
time. The compositor offers the parameters of a buffer for that frame, in shared memory (`buffer`)
and as a DMA-BUF (`linux_dmabuf`), the client asks for a copy into a buffer of its own, and when the
copy is `ready` the client takes the pixels out of that buffer and asks for the next frame. Buffers
are kept from one frame to the next.

## What is outside

Whether a buffer can be allocated or mapped, and whether a consumer is still there, is part of the
events. Pixels are not modelled: what matters is which buffer they are taken from, and Wayland
objects have numbers.

`Frame` is the compositor's side: what has been offered for the frame, and the buffer it was copied
into. The client keeps no such record.

## Main definitions

* `ActiveCapture`, `ScreencopyState` — the state of the client
* `ActiveCapture.allocateAndCopy` — the choice of a buffer
* `screencopyMachine` — client and compositor, with every request and every delivery logged
-/

namespace Cheirizo

namespace Wayland

/-! ### Buffers -/

/-- The PipeWire node a capture is for. -/
abbrev NodeId := UInt32

/-- A buffer in graphics memory, as a frame asks for it. -/
structure DmabufFormatInfo where
  format : UInt32
  width : UInt32
  height : UInt32
  deriving DecidableEq, Repr

/-- A buffer in shared memory, as a frame asks for it. -/
structure BufferFormatInfo where
  formatRaw : UInt32
  width : UInt32
  height : UInt32
  stride : UInt32
  deriving DecidableEq, Repr

/-- A DMA-BUF. The format is not a field of the program's own record but of the GBM object in it. -/
structure DmabufFrameBuffer where
  buffer : ℕ
  format : UInt32
  width : UInt32
  height : UInt32
  stride : UInt32
  deriving DecidableEq, Repr

/-- A buffer in shared memory that was allocated. -/
structure ShmFrameBuffer where
  buffer : ℕ
  mmapSize : UInt32
  format : BufferFormatInfo
  deriving DecidableEq, Repr

/-- Either kind of buffer. -/
inductive FrameBuffer where
  | dmabuf (buffer : DmabufFrameBuffer)
  | shm (buffer : ShmFrameBuffer)
  deriving DecidableEq, Repr

/-- `allocated` is the stride of the allocation, or why there is none. -/
def DmabufFrameBuffer.new (buffer : ℕ) (info : DmabufFormatInfo)
    (allocated : Except String UInt32) : Except String DmabufFrameBuffer :=
  allocated.map fun stride => ⟨buffer, info.format, info.width, info.height, stride⟩

/-- `mapped` says whether the memory could be created and mapped. -/
def ShmFrameBuffer.new (buffer : ℕ) (format : BufferFormatInfo) (mapped : Except String Unit) :
    Except String ShmFrameBuffer :=
  let size := format.stride * format.height
  if size = 0 then .error "Buffer size is zero"
  else mapped.map fun _ => ⟨buffer, size, format⟩

theorem ShmFrameBuffer.format_new {buffer : ℕ} {format : BufferFormatInfo}
    {mapped : Except String Unit} {buf : ShmFrameBuffer}
    (h : ShmFrameBuffer.new buffer format mapped = .ok buf) : buf.format = format := by
  rw [new] at h
  split_ifs at h with hsize
  cases mapped with
  | error e => cases h
  | ok u =>
    cases h
    rfl

/-- Shared memory that is not replaced has the parameters asked for. -/
theorem ShmFrameBuffer.format_eq_of_kept {shmBuffer : Option ShmFrameBuffer}
    {format : BufferFormatInfo}
    (h : (shmBuffer.all fun buf =>
      buf.format.formatRaw ≠ format.formatRaw || buf.format.width ≠ format.width ||
        buf.format.height ≠ format.height || buf.format.stride ≠ format.stride) = false) :
    ∃ buf, shmBuffer = some buf ∧ buf.format = format := by
  cases shmBuffer with
  | none => cases h
  | some buf =>
    obtain ⟨buffer, mmapSize, formatRaw, width, height, stride⟩ := buf
    obtain ⟨formatRaw', width', height', stride'⟩ := format
    simp at h
    obtain ⟨⟨⟨rfl, rfl⟩, rfl⟩, rfl⟩ := h
    exact ⟨_, rfl, rfl⟩

/-! ### Captures -/

/-- A capture of an output, with the buffers it keeps from frame to frame. -/
structure ActiveCapture where
  output : ℕ
  cursorOverlay : Bool
  dmabufBuffer : Option DmabufFrameBuffer
  shmBuffer : Option ShmFrameBuffer
  pendingFrame : Bool
  pendingFormat : Option BufferFormatInfo
  pendingDmabufFormat : Option DmabufFormatInfo
  dmabufDisabled : Bool
  bufferDoneReceived : Bool
  screenshotReply : Bool
  deriving DecidableEq, Repr

/-- What is sent along with the pixels. -/
structure RawFrame where
  width : UInt32
  height : UInt32
  stride : UInt32
  formatRaw : UInt32
  deriving DecidableEq, Repr

/-- Where the pixels go. -/
inductive Sink where
  | screenshot
  /-- The direct channel, which may have been closed at the other end. -/
  | direct (received : Bool)
  | pipewire
  | nobody
  deriving DecidableEq, Repr

/-- What the client asks of the compositor, and what it hands on. -/
inductive Action where
  | captureOutput (node : NodeId) (cursor : Bool) (output : ℕ)
  | copy (node : NodeId) (buffer : FrameBuffer)
  | destroyFrame (node : NodeId)
  | deliver (node : NodeId) (sink : Sink) (source : FrameBuffer) (frame : RawFrame)
  | screenshotFailed (error : String)
  deriving DecidableEq, Repr

/-- The consumer at the other end of the direct channel is gone. -/
def Action.isRefused : Action → Bool
  | .deliver _ (.direct false) _ _ => true
  | _ => false

/-- What comes of the allocations that a frame may need. -/
structure Allocation where
  dmabuf : Except String UInt32
  shm : Except String Unit
  deriving DecidableEq

namespace ActiveCapture

/-- The first frame is asked for at once. -/
def start (output : ℕ) (cursorOverlay screenshot : Bool) : ActiveCapture :=
  ⟨output, cursorOverlay, none, none, true, none, none, false, false, screenshot⟩

/-- The first format offered is the one to use. -/
def recordFormat (c : ActiveCapture) (info : BufferFormatInfo) : ActiveCapture :=
  if c.pendingFormat.isNone then { c with pendingFormat := some info } else c

/-- Only the first offer of a frame counts. -/
def recordDmabufFormat (c : ActiveCapture) (info : DmabufFormatInfo) : ActiveCapture :=
  if !c.dmabufDisabled && c.pendingDmabufFormat.isNone then
    { c with pendingDmabufFormat := some info }
  else c

/-- A DMA-BUF that is kept is judged by its size. -/
def needsNewDmabuf (c : ActiveCapture) (info : DmabufFormatInfo) : Bool :=
  c.dmabufBuffer.all fun buf => buf.width ≠ info.width || buf.height ≠ info.height

/-- Shared memory that is kept is judged by its format, its size and its stride. -/
def needsNewShm (c : ActiveCapture) (format : BufferFormatInfo) : Bool :=
  c.shmBuffer.all fun buf =>
    buf.format.formatRaw ≠ format.formatRaw || buf.format.width ≠ format.width ||
      buf.format.height ≠ format.height || buf.format.stride ≠ format.stride

/-- Have a DMA-BUF ready for the frame, or give them up for good. -/
def allocateDmabuf (c : ActiveCapture) (buffer : ℕ) (info : DmabufFormatInfo)
    (allocated : Except String UInt32) : ActiveCapture :=
  if c.needsNewDmabuf info then
    match DmabufFrameBuffer.new buffer info allocated with
    | .ok buf => { c with dmabufBuffer := some buf, shmBuffer := none }
    | .error _ => { c with pendingDmabufFormat := none, dmabufDisabled := true }
  else c

/-- The copy into shared memory, with the buffer the frame is copied into. -/
def copyShm (c : ActiveCapture) (shm : Bool) (buffer : ℕ) (mapped : Except String Unit) :
    ActiveCapture × Option FrameBuffer :=
  match c.pendingFormat.filter fun _ => shm with
  | none => (c, none)
  | some format =>
    let allocated :=
      if c.needsNewShm format then
        (ShmFrameBuffer.new buffer format mapped).map fun buf => { c with shmBuffer := some buf }
      else .ok c
    match allocated with
    | .error _ => (c, none)
    | .ok c => (c, (c.shmBuffer.filter fun _ => c.pendingFrame).map .shm)

/-- The buffer a frame is copied into: a DMA-BUF if one is offered and there is one, else shared
memory. -/
def allocateAndCopy (c : ActiveCapture) (linuxDmabuf shm : Bool) (buffer : ℕ) (alloc : Allocation) :
    ActiveCapture × Option FrameBuffer :=
  match c.pendingDmabufFormat.filter fun _ => linuxDmabuf with
  | none => c.copyShm shm (buffer + 1) alloc.shm
  | some info =>
    let c := c.allocateDmabuf buffer info alloc.dmabuf
    match c.dmabufBuffer.filter fun _ => c.pendingFrame with
    | some buf => (c, some (.dmabuf buf))
    | none => c.copyShm shm (buffer + 1) alloc.shm

/-- Take the pixels of the frame: from the DMA-BUF if there is one, else from shared memory. A
DMA-BUF that cannot be mapped is given up for good. -/
def takePixels (c : ActiveCapture) (mapped : Except String Unit) :
    ActiveCapture × Except String (FrameBuffer × RawFrame) :=
  match c.dmabufBuffer with
  | some buf =>
    match mapped with
    | .ok () =>
      let formatRaw := (c.pendingFormat.map BufferFormatInfo.formatRaw).getD 1
      (c, .ok (.dmabuf buf, ⟨buf.width, buf.height, buf.stride, formatRaw⟩))
    | .error e =>
      ({ c with dmabufBuffer := none, pendingDmabufFormat := none, dmabufDisabled := true },
        .error e)
  | none =>
    match c.shmBuffer with
    | some buf =>
      (c, .ok (.shm buf, ⟨buf.format.width, buf.format.height, buf.format.stride,
        buf.format.formatRaw⟩))
    | none => (c, .error "frame ready without a capture buffer")

/-- Ask for the next frame. -/
def requestNextFrame (c : ActiveCapture) (manager : Bool) (node : NodeId) :
    ActiveCapture × List Action :=
  if manager then
    ({ c with
        pendingFormat := none
        pendingDmabufFormat := none
        bufferDoneReceived := false
        pendingFrame := true },
      [.captureOutput node c.cursorOverlay c.output])
  else (c, [])

/-- The frame that is pending, if one is. -/
def destroyFrame (c : ActiveCapture) (node : NodeId) : List Action :=
  if c.pendingFrame then [.destroyFrame node] else []

end ActiveCapture

/-! ### The client -/

/-- The client's side of the protocol. -/
structure ScreencopyState where
  manager : Bool
  managerVersion : UInt32
  captures : NodeId → Option ActiveCapture
  pipewire : Bool
  frameTx : Bool
  shm : Bool
  linuxDmabuf : Bool
  /-- The number of the next Wayland buffer. -/
  nextBuffer : ℕ
  /-- The next name for a screenshot. -/
  screenshotId : NodeId

/-- The events of a frame, and the commands that begin and end captures. -/
inductive ScreencopyEvent where
  | startCapture (output : ℕ) (cursor : Bool)
  | startScreenshot (output : ℕ)
  | stopCapture
  | buffer (info : BufferFormatInfo) (alloc : Allocation)
  | linuxDmabuf (info : DmabufFormatInfo)
  | bufferDone (alloc : Allocation)
  | ready (mapped : Except String Unit) (received : Bool)
  | failed
  deriving DecidableEq

namespace ScreencopyState

/-- Work on the capture of a node, if there is one. -/
def onCapture (s : ScreencopyState) (node : NodeId)
    (f : ActiveCapture → Option ActiveCapture × List Action) : ScreencopyState × List Action :=
  match s.captures node with
  | none => (s, [])
  | some c => ({ s with captures := Function.update s.captures node (f c).1 }, (f c).2)

/-- A capture starts if the compositor has the protocol. -/
def insert (s : ScreencopyState) (node : NodeId) (c : ActiveCapture) :
    ScreencopyState × List Action :=
  if s.manager then
    ({ s with captures := Function.update s.captures node (some c) },
      [.captureOutput node c.cursorOverlay c.output])
  else (s, [])

/-- The capture goes with its frame. There is no session to end. -/
def stopCapture (s : ScreencopyState) (node : NodeId) : ScreencopyState × List Action :=
  s.onCapture node fun c => (none, c.destroyFrame node)

/-- The buffer of a frame is chosen, and the frame copied into it. -/
def allocateAndCopy (s : ScreencopyState) (node : NodeId) (alloc : Allocation) (c : ActiveCapture) :
    Option ActiveCapture × List Action :=
  let result := c.allocateAndCopy s.linuxDmabuf s.shm s.nextBuffer alloc
  (some result.1, (result.2.map (.copy node)).toList)

/-- Buffers that may have been allocated have their numbers. -/
def countBuffers (r : ScreencopyState × List Action) : ScreencopyState × List Action :=
  ({ r.1 with nextBuffer := r.1.nextBuffer + 2 }, r.2)

/-- An offer of shared memory. -/
def onFrameBuffer (s : ScreencopyState) (node : NodeId) (info : BufferFormatInfo)
    (alloc : Allocation) : ScreencopyState × List Action :=
  countBuffers <| s.onCapture node fun c =>
    let c := c.recordFormat info
    -- Before version 3 there is no event that ends the offers.
    if s.managerVersion < 3 then s.allocateAndCopy node alloc c else (some c, [])

/-- An offer of graphics memory. -/
def onFrameLinuxDmabuf (s : ScreencopyState) (node : NodeId) (info : DmabufFormatInfo) :
    ScreencopyState × List Action :=
  s.onCapture node fun c => (some (c.recordDmabufFormat info), [])

/-- The offers are over. -/
def onFrameBufferDone (s : ScreencopyState) (node : NodeId) (alloc : Allocation) :
    ScreencopyState × List Action :=
  countBuffers <| s.onCapture node fun c =>
    s.allocateAndCopy node alloc { c with bufferDoneReceived := true }

/-- Where the pixels of a capture go. -/
def sink (s : ScreencopyState) (c : ActiveCapture) (received : Bool) : Sink :=
  if c.screenshotReply then .screenshot
  else if s.frameTx then .direct received
  else if s.pipewire then .pipewire
  else .nobody

/-- A screenshot is over when it is delivered, and a capture when its consumer is gone; any other
capture goes on with the next frame. -/
def frameReady (s : ScreencopyState) (node : NodeId) (mapped : Except String Unit) (received : Bool)
    (c : ActiveCapture) : Option ActiveCapture × List Action :=
  let destroyed := c.destroyFrame node
  let result := { c with pendingFrame := false }.takePixels mapped
  let next := result.1.requestNextFrame s.manager node
  match result.2 with
  | .error _ => (some next.1, destroyed ++ next.2)
  | .ok (source, frame) =>
    let delivered := destroyed ++ [.deliver node (s.sink c received) source frame]
    match s.sink c received with
    | .screenshot => (none, delivered)
    | .direct false => (none, delivered)
    | _ => (some next.1, delivered ++ next.2)

/-- A receiver that is gone is not tried again. -/
def onFrameReady (s : ScreencopyState) (node : NodeId) (mapped : Except String Unit)
    (received : Bool) : ScreencopyState × List Action :=
  let next := s.onCapture node (s.frameReady node mapped received)
  ({ next.1 with frameTx := s.frameTx && !next.2.any Action.isRefused }, next.2)

/-- A failed frame ends a screenshot. A stream asks for another. -/
def onFrameFailed (s : ScreencopyState) (node : NodeId) : ScreencopyState × List Action :=
  s.onCapture node fun c =>
    let destroyed := c.destroyFrame node
    if c.screenshotReply then
      (none, destroyed ++ [.screenshotFailed "Screencopy frame capture failed"])
    else
      let next := { c with pendingFrame := false }.requestNextFrame s.manager node
      (some next.1, destroyed ++ next.2)

/-- What an event does to the capture of its node. -/
def handle (s : ScreencopyState) (node : NodeId) : ScreencopyEvent → ScreencopyState × List Action
  | .startCapture output cursor => s.insert node (.start output cursor false)
  | .startScreenshot output =>
    if s.manager then
      { s with screenshotId := s.screenshotId + 1 }.insert s.screenshotId (.start output true true)
    else (s, [.screenshotFailed "Screencopy manager not bound"])
  | .stopCapture => s.stopCapture node
  | .buffer info alloc => s.onFrameBuffer node info alloc
  | .linuxDmabuf info => s.onFrameLinuxDmabuf node info
  | .bufferDone alloc => s.onFrameBufferDone node alloc
  | .ready mapped received => s.onFrameReady node mapped received
  | .failed => s.onFrameFailed node

end ScreencopyState

/-! ### The compositor -/

/-- A frame as the compositor knows it. -/
structure Frame where
  shmOffer : Option BufferFormatInfo
  dmabufOffer : Option DmabufFormatInfo
  offersOver : Bool
  /-- The buffer that a copy was requested into. -/
  copied : Option FrameBuffer
  deriving DecidableEq, Repr

namespace Frame

/-- A frame that was just asked for: nothing is offered or copied. -/
def fresh : Frame := ⟨none, none, false, none⟩

/-- What an event tells the client about the frame. -/
def offer (f : Frame) (version : UInt32) : ScreencopyEvent → Frame
  | .buffer info _ => { f with shmOffer := some info, offersOver := f.offersOver || version < 3 }
  | .linuxDmabuf info => { f with dmabufOffer := some info }
  | .bufferDone _ => { f with offersOver := true }
  | _ => f

end Frame

/-- What the compositor remembers of a request. -/
def Action.remember (frames : NodeId → Frame) : Action → NodeId → Frame
  | .captureOutput node _ _ => Function.update frames node .fresh
  | .copy node buffer => Function.update frames node { frames node with copied := some buffer }
  | _ => frames

/-- The client next to the frames it holds. -/
structure Screencopy where
  client : ScreencopyState
  frames : NodeId → Frame

namespace Screencopy

/-- A client with the globals it could bind. -/
def bound (version : UInt32) (manager shm linuxDmabuf pipewire frameTx : Bool) : Screencopy where
  client := ⟨manager, version, fun _ => none, pipewire, frameTx, shm, linuxDmabuf, 0, 0x80000000⟩
  frames _ := .fresh

/-- The frames when an event has been sent, before it is handled. -/
def offered (w : Screencopy) (e : NodeId × ScreencopyEvent) : NodeId → Frame :=
  Function.update w.frames e.1 ((w.frames e.1).offer w.client.managerVersion e.2)

/-- The client acts first, and what it asks is then remembered. -/
def step (w : Screencopy) (e : NodeId × ScreencopyEvent) : Screencopy × List Action :=
  let r := w.client.handle e.1 e.2
  (⟨r.1, r.2.foldl Action.remember (w.offered e)⟩, r.2)

end Screencopy

/-- Client and compositor, with every request and every delivery logged. -/
def screencopyMachine : Machine Screencopy (NodeId × ScreencopyEvent) Action where
  step := Screencopy.step

end Wayland

end Cheirizo
