import Cheirizo.Portal.Sessions

/-!
# The portal on the bus

`src/desktop/portal/xdg_desktop/dbus/{remote_desktop,screencast,session,request}.rs`, with
`session/state.rs` and the two backends of `services/input`. Any application calls any method at any
time. A call locks the session manager, and some have work left to do when they have let it go:
inject an event, or release what a closed session had.

`ConnectToEIS` locks the manager again while it still has it, once the backend has made a context.
So it waits for itself, and everything after that waits for it. The waiting call is not a step of
its own: the flag `held` is set in its place, and no call is let in any more.

## Steps

A call arrives and puts a request object on the bus, if it comes with a handle for one. It is let in
when the lock is free, in any order. What is left to do is done in any order too, one lock of a
backend at a time. What the backends and the clocks answer is part of the call or of the step.

## What is outside

Coordinates are passed on as they are, and time stamps are left out. The conversion of an event into
requests of a virtual device is floating-point arithmetic. The capture backend is not modelled.

## Main definitions

* `Opened` — a session as the methods see it
* `InputBackend` — contexts with virtual devices, behind either protocol
* `PortalState.locked`, `PortalState.resume` — a call with the lock, and the rest of it
* `portalBus` — the portal with any number of calls
-/

namespace Cheirizo

namespace Portal

/-! ### Devices and events -/

/-- The kinds of devices that an application may control. -/
structure DeviceTypes where
  keyboard : Bool
  pointer : Bool
  touchscreen : Bool
  deriving DecidableEq, Repr

/-- A kind of device, as an event needs it. -/
inductive Device where
  | keyboard
  | pointer
  | touchscreen
  deriving DecidableEq, Repr

namespace DeviceTypes

/-- No devices, as a new session has them. -/
def none : DeviceTypes := ⟨false, false, false⟩

/-- Every kind of device, which is what is selected if an application names none. -/
def all : DeviceTypes := ⟨true, true, true⟩

/-- The kinds in the bit mask of the D-Bus interface. Unknown bits are ignored. -/
def fromBits (bits : UInt32) : DeviceTypes :=
  ⟨bits &&& 0x01 ≠ 0, bits &&& 0x02 ≠ 0, bits &&& 0x04 ≠ 0⟩

/-- The bit mask that `Start` returns. -/
def toBits (d : DeviceTypes) : UInt32 :=
  (if d.keyboard then 0x01 else 0) ||| (if d.pointer then 0x02 else 0) |||
    (if d.touchscreen then 0x04 else 0)

/-- Whether events for this kind of device may be injected. -/
def allows (d : DeviceTypes) : Device → Bool
  | .keyboard => d.keyboard
  | .pointer => d.pointer
  | .touchscreen => d.touchscreen

end DeviceTypes

/-- The bits of a floating-point number, which are only passed on. -/
abbrev Double := UInt64

/-- Of a key or of a button. -/
inductive KeyState where
  | pressed
  | released
  deriving DecidableEq, Repr

/-- Anything but 1 is a release. -/
def KeyState.fromDbus (state : UInt32) : KeyState :=
  if state = 1 then pressed else released

/-- The axis of a wheel with detents. -/
inductive ScrollAxis where
  | vertical
  | horizontal
  deriving DecidableEq, Repr

/-- Anything but 0 is the horizontal axis. -/
def ScrollAxis.fromDbus (axis : UInt32) : ScrollAxis :=
  if axis = 0 then vertical else horizontal

/-- What a pointer does, with positions relative to a stream. -/
inductive PointerEvent where
  | motion (dx dy : Double)
  | motionAbsolute (x y : Double) (stream : UInt32)
  | button (button : UInt32) (state : KeyState)
  | scroll (dx dy : Double)
  | scrollDiscrete (axis : ScrollAxis) (steps : Int32)
  | scrollStop
  deriving DecidableEq, Repr

/-- What a finger does. The number of the finger is its slot. -/
inductive TouchEvent where
  | down (id : Int32) (x y : Double) (stream : UInt32)
  | motion (id : Int32) (x y : Double) (stream : UInt32)
  | up (id : Int32)
  deriving DecidableEq, Repr

/-- An event as the input backend takes it. -/
inductive InputEvent where
  | keyboard (keycode : UInt32) (state : KeyState)
  | pointer (event : PointerEvent)
  | touch (event : TouchEvent)
  deriving DecidableEq, Repr

/-- The kind of device that an event is for. -/
def InputEvent.device : InputEvent → Device
  | keyboard _ _ => .keyboard
  | pointer _ => .pointer
  | touch _ => .touchscreen

/-- The `Notify` methods with their arguments, behind the session. -/
inductive Notification where
  | pointerMotion (dx dy : Double)
  | pointerMotionAbsolute (stream : UInt32) (x y : Double)
  | pointerButton (button : Int32) (state : UInt32)
  | pointerAxis (dx dy : Double) (finish : Option Bool)
  | pointerAxisDiscrete (axis : UInt32) (steps : Int32)
  | keyboardKeycode (keycode : Int32) (state : UInt32)
  | keyboardKeysym (keysym : Int32) (state : UInt32)
  | touchDown (stream slot : UInt32) (x y : Double)
  | touchMotion (stream slot : UInt32) (x y : Double)
  | touchUp (slot : UInt32)
  deriving DecidableEq, Repr

/-- The errors of the methods. -/
inductive Fault where
  | sessionNotFound (handle : String)
  | invalidState (expected actual : String)
  | permissionDenied (message : String)
  | eisCreationFailed (message : String)
  | wayland (message : String)
  | config (message : String)
  | failed (message : String)
  deriving DecidableEq, Repr

namespace Notification

/-- The kind of device that a session must have selected for the method. -/
def device : Notification → Device
  | pointerMotion _ _ => .pointer
  | pointerMotionAbsolute _ _ _ => .pointer
  | pointerButton _ _ => .pointer
  | pointerAxis _ _ _ => .pointer
  | pointerAxisDiscrete _ _ => .pointer
  | keyboardKeycode _ _ => .keyboard
  | keyboardKeysym _ _ => .keyboard
  | touchDown _ _ _ _ => .touchscreen
  | touchMotion _ _ _ _ => .touchscreen
  | touchUp _ => .touchscreen

/-- At least four hexadecimal digits. -/
def hex (n : UInt32) : String :=
  String.ofList ((Nat.toDigits 16 n.toNat).leftpad 4 '0')

/-- The events to inject. Only a keysym can fail to become one. -/
def events (keymap : UInt32 → Option UInt32) : Notification → Except Fault (List InputEvent)
  | pointerMotion dx dy => .ok [.pointer (.motion dx dy)]
  | pointerMotionAbsolute stream x y => .ok [.pointer (.motionAbsolute x y stream)]
  | pointerButton button state =>
    .ok [.pointer (.button button.toUInt32 (.fromDbus state))]
  | pointerAxis dx dy finish =>
    .ok (.pointer (.scroll dx dy) :: if finish.getD false then [.pointer .scrollStop] else [])
  | pointerAxisDiscrete axis steps => .ok [.pointer (.scrollDiscrete (.fromDbus axis) steps)]
  | keyboardKeycode keycode state => .ok [.keyboard keycode.toUInt32 (.fromDbus state)]
  | keyboardKeysym keysym state =>
    match keymap keysym.toUInt32 with
    | some keycode => .ok [.keyboard keycode (.fromDbus state)]
    | none => .error (.config
        ("No keycode found for keysym 0x" ++ hex keysym.toUInt32 ++ " in current keymap"))
  | touchDown stream slot x y => .ok [.touch (.down slot.toInt32 x y stream)]
  | touchMotion stream slot x y => .ok [.touch (.motion slot.toInt32 x y stream)]
  | touchUp slot => .ok [.touch (.up slot.toInt32)]

end Notification

/-! ### Sessions -/

/-- What is captured: a monitor, a window, or a monitor made for the purpose. -/
inductive SourceType where
  | monitor
  | window
  | virtual
  deriving DecidableEq, Repr

/-- A source that the capture backend offers. -/
structure SourceInfo where
  id : UInt32
  name : String
  description : String
  width : UInt32
  height : UInt32
  refreshRate : UInt32
  sourceType : SourceType
  deriving DecidableEq, Repr

/-- A stream that captures a source, with its place on the desktop. -/
structure StreamInfo where
  nodeId : UInt32
  sourceId : UInt32
  position : Int32 × Int32
  size : UInt32 × UInt32
  sourceType : SourceType
  mappingId : Option String
  deriving DecidableEq, Repr

/-- What an application hands back to get the sources of an earlier session. -/
structure RestoreData where
  vendor : String
  version : UInt32
  outputNames : List String
  deriving DecidableEq, Repr

/-- The fields of a session that the session manager does not look at. -/
structure Grants where
  deviceTypes : DeviceTypes
  devicesSelected : Bool
  usesEis : Bool
  eisContextId : Option UInt32
  sources : List SourceInfo
  sourcesSelected : Bool
  streams : List StreamInfo
  clipboardEnabled : Bool
  persistMode : PersistMode
  restoreData : Option RestoreData
  deriving DecidableEq, Repr

/-- A new session has nothing selected and nothing enabled. -/
def Grants.new (persistMode : PersistMode) : Grants where
  deviceTypes := .none
  devicesSelected := false
  usesEis := false
  eisContextId := none
  sources := []
  sourcesSelected := false
  streams := []
  clipboardEnabled := false
  persistMode := persistMode
  restoreData := none

/-- A session as the methods see it. -/
structure Opened where
  session : Session
  grants : Grants

/-- The name of a state in error messages. -/
def SessionState.name : SessionState → String
  | init => "Init"
  | started => "Started"
  | closed => "Closed"

/-- The number of a mode on the bus. -/
def PersistMode.toDbus : PersistMode → UInt32
  | none => 0
  | transient => 1
  | persistent => 2

namespace Opened

variable (o : Opened)

/-- A session starts once, and not without something to share. -/
def canStart : Bool :=
  o.session.state = .init && (o.grants.devicesSelected || o.grants.sourcesSelected)

/-- A session connects to EIS once, after it was started with devices. -/
def canConnectToEis : Bool :=
  o.session.state = .started && o.grants.devicesSelected && !o.grants.usesEis

/-- A session is started from its initial state, closed from any, and otherwise stays. -/
def transitionTo (state : SessionState) : Except Fault Opened :=
  if (o.session.state = .init ∧ state = .started) ∨ state = .closed ∨ o.session.state = state then
    .ok { o with session := { o.session with state } }
  else .error (.invalidState ("valid transition from " ++ o.session.state.name)
    (o.session.state.name ++ " -> " ++ state.name))

/-- Devices can be selected again, until the session is started. -/
def selectDevices (devices : DeviceTypes) : Except Fault Opened :=
  if o.session.state ≠ .init then .error (.invalidState "Init" o.session.state.name)
  else .ok { o with grants := { o.grants with deviceTypes := devices, devicesSelected := true } }

/-- Sources can be selected again, until the session is started. -/
def selectSources (sources : List SourceInfo) : Except Fault Opened :=
  if o.session.state ≠ .init then .error (.invalidState "Init" o.session.state.name)
  else .ok { o with grants := { o.grants with sources, sourcesSelected := true } }

/-- The clipboard can be enabled before and after the start. -/
def requestClipboard : Except Fault Opened :=
  if o.session.state = .closed then .error (.invalidState "not Closed" o.session.state.name)
  else .ok { o with grants := { o.grants with clipboardEnabled := true } }

/-- The streams are written, and the session is started. -/
def start (streams : List StreamInfo) : Except Fault Opened :=
  if !o.canStart then .error (.invalidState "Init" o.session.state.name)
  else transitionTo { o with grants := { o.grants with streams } } .started

end Opened

/-! ### The input backends -/

/-- How events get to the compositor: through an EIS server, or by virtual devices directly. -/
inductive InputProtocol where
  | eis
  | wlrVirtualInput
  deriving DecidableEq, Repr

/-- The virtual devices of a session. -/
structure WlrSessionContext where
  pointer : Bool
  keyboard : Bool
  deriving DecidableEq, Repr

/-- The part of the desktop that a stream shows, for positions relative to it. -/
structure StreamOutputMapping where
  streamNodeId : UInt32
  x : Int32
  y : Int32
  width : UInt32
  height : UInt32
  deriving DecidableEq, Repr

/-- The part of the desktop that this stream shows. -/
def StreamInfo.mapping (s : StreamInfo) : StreamOutputMapping :=
  ⟨s.nodeId, s.position.1, s.position.2, s.size.1, s.size.2⟩

/-- Contexts with virtual devices. With EIS there is a server in front of each of them. -/
structure InputBackend where
  protocol : InputProtocol
  pointerManager : Bool
  keyboardManager : Bool
  seat : Bool
  keymap : UInt32 → Option UInt32
  eisSessions : List String
  contexts : String → Option WlrSessionContext
  streamMappings : List StreamOutputMapping

/-- What happens while a context is made: an error of the EIS server, whether the keymap was sent,
and an error of the Wayland connection. -/
structure Creation where
  eis : Option String
  keymapSent : Bool
  connection : Option String
  deriving DecidableEq, Repr

namespace InputBackend

variable (b : InputBackend)

/-- Virtual devices for a session. A device is left out if its manager is missing, a keyboard also
without a seat or a keymap. -/
def wlrCreateContext (session : String) (devices : DeviceTypes) (c : Creation) :
    Except String InputBackend :=
  if (b.contexts session).isSome then
    .error ("Invalid session: wlr context already exists for session " ++ session)
  else
    match c.connection with
    | some message => .error ("Wayland error: " ++ message)
    | none => .ok { b with contexts := Function.update b.contexts session (some {
        pointer := devices.pointer && b.pointerManager
        keyboard := devices.keyboard && (b.keyboardManager && b.seat && c.keymapSent) }) }

/-- The bridge makes a server first, and it is gone if the devices cannot be made. -/
def createContext (session : String) (devices : DeviceTypes) (c : Creation) :
    Except String InputBackend :=
  match b.protocol with
  | .wlrVirtualInput => b.wlrCreateContext session devices c
  | .eis =>
    if session ∈ b.eisSessions then
      .error ("Invalid session: EIS bridge context already exists for session " ++ session)
    else
      match c.eis with
      | some message => .error message
      | none => (b.wlrCreateContext session devices c).map fun b =>
          { b with eisSessions := session :: b.eisSessions }

/-- The server and the devices of a session are gone, if it had any. -/
def destroyContext (session : String) : InputBackend :=
  { b with
    eisSessions := b.eisSessions.filter (· ≠ session)
    contexts := Function.update b.contexts session none }

/-- An event for a device that the context does not have is dropped without an error. -/
def injectEvent (session : String) (event : InputEvent) (flush : Option String) :
    Bool × Except Fault Unit :=
  let flushed : Except Fault Unit := match flush with
    | some message => .error (.wayland ("flush failed (connection may be broken): " ++ message))
    | none => .ok ()
  match b.contexts session with
  | none => (false, .error (.sessionNotFound session))
  | some context =>
    match event.device with
    | .pointer => (context.pointer, flushed)
    | .keyboard => (context.keyboard, flushed)
    | .touchscreen =>
      (false, .error (.config "Touch input not supported via wlr virtual pointer protocol"))

/-- Events one after the other, up to the first error, with those that got to a device. -/
def injectEach (session : String) (flush : InputEvent → Option String) :
    List InputEvent → List InputEvent × Except Fault Unit
  | [] => ([], .ok ())
  | event :: events =>
    let (sent, result) := b.injectEvent session event (flush event)
    let sent := if sent then [event] else []
    match result with
    | .error fault => (sent, .error fault)
    | .ok () =>
      let (more, result) := injectEach session flush events
      (sent ++ more, result)

end InputBackend

/-! ### Calls -/

/-- What the methods with a request object are called with. -/
structure Requested where
  handle : String
  session : String
  appId : String
  sender : String
  deriving DecidableEq, Repr

/-- A call, with what the clocks and the backends answer to it. -/
inductive PortalCall where
  | createSession (r : Requested) (persistMode : PersistMode) (createdAt lastActivity : DateTime)
  | selectDevices (r : Requested) (types : Option UInt32)
  | selectSources (r : Requested) (restoreData : Option RestoreData) (persistMode : PersistMode)
      (available : Except String (List SourceInfo)) (picked : List SourceInfo)
  | start (r : Requested) (captured : Except String (List StreamInfo))
  | startCast (r : Requested) (captured : Except String (List StreamInfo))
  | connectToEis (session appId sender : String) (creation : Creation)
  | requestClipboard (session : String)
  | notify (session : String) (n : Notification)
  | close (session : String)
  /-- `Close` of a request object, which may stand for a session. -/
  | cancel (session : Option String)
  /-- An application has left the bus. -/
  | disconnected (sender : String)
  | cleanup (now : DateTime)

/-- The request object of a call: where it is, and the session it stands for. -/
def PortalCall.request : PortalCall → Option (String × Option String)
  | createSession r _ _ _ => some (r.handle, none)
  | selectDevices r _ => some (r.handle, some r.session)
  | selectSources r _ _ _ _ => some (r.handle, some r.session)
  | start r _ => some (r.handle, some r.session)
  | startCast r _ => some (r.handle, some r.session)
  | _ => none

/-- The results of `Start`: what was selected, the streams, and what to hand back later. -/
structure Started where
  devices : Option UInt32
  streams : List StreamInfo
  clipboardEnabled : Bool
  restore : Option (RestoreData × UInt32)
  deriving DecidableEq, Repr

/-- How a call ends that gets to its end. -/
inductive Reply where
  | success
  | other
  | created (session : String)
  | started (results : Started)
  deriving DecidableEq, Repr

/-- How a call leaves before its end: with an error, or because there is no source to select. -/
inductive Leave where
  | fault (fault : Fault)
  | noSources
  deriving DecidableEq, Repr

/-- What is left to do without the lock of the manager. -/
inductive Rest where
  | inject (session : String) (n : Notification)
  | release (sessions : List String)
  deriving DecidableEq, Repr

/-- The portal: the sessions and what they were granted, the request objects on the bus, the input
backend, the lock of the manager, and what waits for it or is left to do without it. -/
structure PortalState where
  manager : SessionManager
  grants : String → Grants
  requests : String → Option (Option String)
  input : InputBackend
  /-- The manager is locked by a call that waits for it. This stands for the second lock of
  `ConnectToEIS`: since the lock never comes free again, nothing else is kept of that call. -/
  held : Bool
  waiting : List PortalCall
  rests : List Rest

/-- What can be seen of a step: answers, decisions about events, sessions that are closed, and
events that reach a device. -/
inductive PortalAction where
  | answered (call : PortalCall) (result : Except Leave Reply)
  | authorized (session : String) (n : Notification)
  | refused (session : String) (n : Notification) (fault : Fault)
  | connected (session : String) (devices : DeviceTypes)
  | closed (sessions : List String)
  | sent (session : String) (event : InputEvent)
  | notified (session : String) (n : Notification) (result : Except Fault Unit)

/-- The sources with these names, or else those that were picked. -/
def restoredSources (restoreData : Option RestoreData) (sources picked : List SourceInfo) :
    List SourceInfo :=
  match restoreData with
  | none => picked
  | some data =>
    match data.outputNames.filterMap fun name => sources.find? (·.name = name) with
    | [] => picked
    | restored => restored

/-- What an application may hand back to select the same sources again. -/
def restoreOf (grants : Grants) : Option (RestoreData × UInt32) :=
  if grants.persistMode ≠ .none then
    some (⟨"generic", 1, grants.sources.map SourceInfo.name⟩, grants.persistMode.toDbus)
  else none

/-- Five minutes. -/
def staleAfter : ℕ := 300 * 1000000000

namespace PortalState

variable (p : PortalState)

/-- The session with this handle, as a method sees it. -/
def getSession (handle : String) : Option Opened :=
  (p.manager.sessions.lookup handle).map fun session => ⟨session, p.grants handle⟩

/-- Write back a session that a method has changed. -/
def store (handle : String) (o : Opened) : PortalState :=
  { p with
    manager := p.manager.amend handle o.session.state o.session.lastActivity
    grants := Function.update p.grants handle o.grants }

/-- The session, if it is of this application and this sender. -/
def validateSession (handle appId sender : String) : Except Fault Opened :=
  match p.getSession handle with
  | none => .error (.sessionNotFound handle)
  | some o =>
    if o.session.appId ≠ appId then .error (.permissionDenied
      ("App " ++ appId ++ " tried to access session owned by " ++ o.session.appId))
    else if o.session.sender ≠ sender then .error (.permissionDenied
      ("Sender " ++ sender ++ " tried to access session owned by " ++ o.session.sender))
    else .ok o

/-- The session of a call, or the fault that the call leaves with. -/
def validated (r : Requested) : Except Leave Opened :=
  (p.validateSession r.session r.appId r.sender).mapError .fault

/-- `SelectDevices`. Without types in the options every device is selected. -/
def selectDevices (r : Requested) (types : Option UInt32) : Except Leave (Opened × Reply) := do
  let o ← p.validated r
  let o ← (o.selectDevices (types.elim .all .fromBits)).mapError .fault
  .ok (o, .success)

/-- The mode and the data are written before the sources are selected, so they stay if the session
refuses the sources. An error comes with the state that it leaves. -/
def selectSources (r : Requested) (restoreData : Option RestoreData) (persistMode : PersistMode)
    (available : Except String (List SourceInfo)) (picked : List SourceInfo) :
    Except (PortalState × Leave) (Opened × Reply) := do
  let o ← (p.validated r).mapError (p, ·)
  let sources ← available.mapError fun message => (p, .fault (.failed message))
  if sources = [] then .error (p, .noSources)
  else
    let written : Opened := { o with grants := { o.grants with persistMode, restoreData } }
    let o ← (written.selectSources (restoredSources restoreData sources picked)).mapError
      fun fault => (p.store r.session written, .fault fault)
    .ok (o, .success)

/-- Streams are captured only if sources were selected. -/
def capture (o : Opened) (captured : Except String (List StreamInfo)) :
    Except Leave (List StreamInfo) :=
  if o.grants.sourcesSelected ∧ o.grants.sources ≠ [] then
    captured.mapError fun message => .fault (.failed message)
  else .ok []

/-- `Start` of a remote desktop session, with streams for its sources if it has any. -/
def start (r : Requested) (captured : Except String (List StreamInfo)) :
    Except Leave (Opened × Reply) := do
  let o ← p.validated r
  let streams ← capture o captured
  let started ← (o.start streams).mapError .fault
  .ok (started, .started {
    devices := some o.grants.deviceTypes.toBits
    streams := streams
    clipboardEnabled := o.grants.clipboardEnabled
    restore := if o.grants.sources = [] then none else restoreOf o.grants })

/-- Selecting devices is not asked for here, selecting sources is. -/
def startCast (r : Requested) (captured : Except String (List StreamInfo)) :
    Except Leave (Opened × Reply) := do
  let o ← p.validated r
  if !o.grants.sourcesSelected then
    .error (.fault (.invalidState "Sources selected" "No sources selected"))
  else
    let streams ← captured.mapError fun message => .fault (.failed message)
    let started ← (o.start streams).mapError .fault
    .ok (started, .started {
      devices := none
      streams := streams
      clipboardEnabled := false
      restore := restoreOf o.grants })

/-- The end of a call with a request object. A call that leaves early does not take its object off
the bus. -/
def answer (call : PortalCall) (r : Requested) :
    Except Leave (Opened × Reply) → PortalState × List PortalAction
  | .error leave => (p, [.answered call (.error leave)])
  | .ok (o, reply) =>
    ({ p.store r.session o with requests := Function.update p.requests r.handle none },
      [.answered call (.ok reply)])

/-- The outputs of the streams of a session that was started become known to the input backend. -/
def mapStreams : PortalState × List PortalAction → PortalState × List PortalAction
  | (p, [.answered call (.ok (.started results))]) =>
    let input := if results.streams = [] then p.input
      else { p.input with streamMappings := results.streams.map StreamInfo.mapping }
    ({ p with input }, [.answered call (.ok (.started results))])
  | other => other

/-- A context is made while the manager is locked, and then the manager is to be locked again. -/
def connectToEis (session appId sender : String) (creation : Creation) :
    Except Fault (InputBackend × DeviceTypes) := do
  let o ← p.validateSession session appId sender
  if !o.canConnectToEis then
    .error (.invalidState "Started with devices selected, not yet connected"
      ("state=" ++ o.session.state.name ++ ", devices_selected=" ++
        toString o.grants.devicesSelected ++ ", uses_eis=" ++ toString o.grants.usesEis))
  else
    let input ← (p.input.createContext session o.grants.deviceTypes creation).mapError
      .eisCreationFailed
    .ok (input, o.grants.deviceTypes)

/-- Who sends an event is not looked at, and neither is the state of the session. -/
def checkNotify (session : String) (n : Notification) : Except Fault Unit :=
  match p.getSession session with
  | none => .error (.sessionNotFound session)
  | some o =>
    if o.grants.deviceTypes.allows n.device then .ok ()
    else .error (.permissionDenied (match n.device with
      | .keyboard => "Keyboard not enabled"
      | .pointer => "Pointer not enabled"
      | .touchscreen => "Touchscreen not enabled"))

/-- Sessions that were taken out of the map, and what they had. -/
def release (closed : List Session) (manager : SessionManager) : PortalState × List PortalAction :=
  ({ p with manager, rests := p.rests ++ [.release (closed.map Session.id)] },
    [.closed (closed.map Session.id)])

/-- Sessions that were taken out of the map, and nothing else. -/
def forget (closed : List Session) (manager : SessionManager) : PortalState × List PortalAction :=
  ({ p with manager }, [.closed (closed.map Session.id)])

/-- A call with the lock of the manager. -/
def locked (call : PortalCall) : PortalState × List PortalAction :=
  match call with
  | .createSession r persistMode createdAt lastActivity =>
    let requests := Function.update p.requests r.handle none
    match p.manager.createSession r.session r.sender r.appId persistMode createdAt lastActivity with
    | (.ok _, manager) =>
      ({ p with
          manager
          requests
          grants := Function.update p.grants r.session (.new persistMode) },
        [.answered call (.ok (.created r.session))])
    | (.error _, manager) => ({ p with manager, requests }, [.answered call (.ok .other)])
  | .selectDevices r types => p.answer call r (p.selectDevices r types)
  | .selectSources r restoreData persistMode available picked =>
    match p.selectSources r restoreData persistMode available picked with
    | .ok done => p.answer call r (.ok done)
    | .error (q, leave) => q.answer call r (.error leave)
  | .start r captured => mapStreams (p.answer call r (p.start r captured))
  | .startCast r captured => p.answer call r (p.startCast r captured)
  | .connectToEis session appId sender creation =>
    match p.connectToEis session appId sender creation with
    | .error fault => (p, [.answered call (.error (.fault fault))])
    | .ok (input, devices) => ({ p with input, held := true }, [.connected session devices])
  | .requestClipboard session =>
    match p.getSession session with
    | none => (p, [.answered call (.error (.fault (.sessionNotFound session)))])
    | some o =>
      match o.requestClipboard with
      | .error fault => (p, [.answered call (.error (.fault fault))])
      | .ok o => (p.store session o, [.answered call (.ok .success)])
  | .notify session n =>
    match p.checkNotify session n with
    | .error fault => (p, [.refused session n fault])
    | .ok () => ({ p with rests := p.rests ++ [.inject session n] }, [.authorized session n])
  | .close session =>
    let (closed, manager) := p.manager.closeSession session
    p.release closed.toList manager
  | .cancel session =>
    match session with
    | none => (p, [])
    | some session =>
      let (closed, manager) := p.manager.closeSession session
      p.forget closed.toList manager
  | .disconnected sender =>
    let (closed, manager) := p.manager.closeSenderSessions sender
    p.release closed manager
  | .cleanup now =>
    match p.manager.cleanupStaleSessions staleAfter now with
    | none => (p, [])
    | some (closed, manager) => p.forget closed manager

/-- What is left to do, one lock of a backend at a time, and the rest of it. -/
def resume (flush : InputEvent → Option String) :
    Rest → PortalState × Option Rest × List PortalAction
  | .inject session n =>
    match n.events p.input.keymap with
    | .error fault => (p, none, [.notified session n (.error fault)])
    | .ok events =>
      let (sent, result) := p.input.injectEach session flush events
      (p, none, sent.map (.sent session) ++ [.notified session n result])
  | .release [] => (p, none, [])
  | .release (session :: sessions) =>
    ({ p with input := p.input.destroyContext session }, some (.release sessions), [])

/-- A request object is put on the bus unless there is one. -/
def register : Option (String × Option String) → PortalState
  | none => p
  | some (handle, session) =>
    { p with
      requests := Function.update p.requests handle (some ((p.requests handle).getD session)) }

end PortalState

/-! ### Runs -/

/-- What can happen next. -/
inductive PortalInput where
  /-- A call arrives. -/
  | arrive (call : PortalCall)
  /-- A request object is closed. -/
  | close (handle : String)
  /-- A call is let in, if the lock is free. -/
  | enter (index : ℕ)
  /-- Some of what is left to do is done. -/
  | resume (index : ℕ) (flush : InputEvent → Option String)

/-- The portal with any number of calls, let in and completed in any order. -/
def portalBus : Machine PortalState PortalInput PortalAction where
  step p
    | .arrive call => ({ p.register call.request with waiting := p.waiting ++ [call] }, [])
    | .close handle =>
      match p.requests handle with
      | none => (p, [])
      | some session => ({ p with waiting := p.waiting ++ [.cancel session] }, [])
    | .enter index =>
      if p.held then (p, [])
      else
        match p.waiting[index]? with
        | none => (p, [])
        | some call => { p with waiting := p.waiting.eraseIdx index }.locked call
    | .resume index flush =>
      match p.rests[index]? with
      | none => (p, [])
      | some rest =>
        let (p, more, actions) := { p with rests := p.rests.eraseIdx index }.resume flush rest
        ({ p with rests := p.rests ++ more.toList }, actions)

/-- The portal when it is started. -/
def PortalState.initial (maxSessionsPerApp : ℕ) (protocol : InputProtocol)
    (pointerManager keyboardManager seat : Bool) (keymap : UInt32 → Option UInt32) :
    PortalState where
  manager := .withConfig maxSessionsPerApp
  grants _ := .new .none
  requests _ := none
  input := ⟨protocol, pointerManager, keyboardManager, seat, keymap, [], fun _ => none, []⟩
  held := false
  waiting := []
  rests := []

end Portal

end Cheirizo
