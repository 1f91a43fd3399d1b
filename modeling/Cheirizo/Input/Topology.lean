import Cheirizo.Input.Coordinates
import Cheirizo.Lib.Machine

/-!
# The topology of the input channel

The part of `InputChannelHandler` in `src/rdp/server/input_handler.rs` that knows the desktop: the
list of monitors, the coordinate transformer that was made from it, and the streams of the session,
which are handed to the injection backend too. A resize of the primary stream changes all three, one
after the other. What can fail is done before anything is stored.

## Main definitions

* `updatePrimaryTopology` — a resize, of copies
* `InputChannelHandler` — the three stores
* `TopologyCall`, `inputTopology` — the calls that change them

## Main results

* `topology_consistent` — the stores agree, and a failed call changes nothing
-/

namespace Cheirizo

namespace Input

/-! ### Streams -/

/-- A captured stream: its size, and where it lies on the desktop. -/
structure StreamInfo where
  nodeId : UInt32
  width : UInt32
  height : UInt32
  positionX : Int32
  positionY : Int32
  deriving DecidableEq, Repr

/-- A stream as the injection backend knows it. -/
structure StreamOutputMapping where
  streamNodeId : UInt32
  x : Int32
  y : Int32
  width : UInt32
  height : UInt32
  deriving DecidableEq, Repr

/-- What the input backend is told of a stream. -/
def StreamInfo.mapping (s : StreamInfo) : StreamOutputMapping :=
  ⟨s.nodeId, s.positionX, s.positionY, s.width, s.height⟩

/-- A session; the mappings are those of its injection backend, if it has one. -/
structure SessionHandle where
  streams : List StreamInfo
  mappings : Option (List StreamOutputMapping)
  deriving DecidableEq, Repr

/-- A backend that keeps mappings gets new ones with the streams. -/
def SessionHandle.setStreams (s : SessionHandle) (streams : List StreamInfo) : SessionHandle where
  streams
  mappings := s.mappings.map fun _ => streams.map StreamInfo.mapping

/-! ### A resize -/

/-- A monitor with another size, on the desktop and in the stream. -/
def MonitorInfo.resize (rdpWidth rdpHeight streamWidth streamHeight : UInt32) (m : MonitorInfo) :
    MonitorInfo :=
  { m with width := rdpWidth, height := rdpHeight, streamWidth, streamHeight }

/-- A stream with another size. -/
def StreamInfo.resize (streamWidth streamHeight : UInt32) (s : StreamInfo) : StreamInfo :=
  { s with width := streamWidth, height := streamHeight }

/-- Both entries are looked for before either is changed. -/
def updatePrimaryTopology (monitors : List MonitorInfo) (streams : List StreamInfo)
    (primaryStreamId rdpWidth rdpHeight streamWidth streamHeight : UInt32) :
    Except MonitorError (List MonitorInfo × List StreamInfo) :=
  match monitors.findIdx? MonitorInfo.isPrimary with
  | none => .error (.invalidMonitorConfig "no primary monitor configured")
  | some primaryMonitor =>
    match streams.findIdx? fun stream => stream.nodeId = primaryStreamId with
    | none => .error (.monitorNotFound primaryStreamId)
    | some primaryStream =>
      .ok (monitors.modify primaryMonitor (.resize rdpWidth rdpHeight streamWidth streamHeight),
        streams.modify primaryStream (.resize streamWidth streamHeight))

/-- What the handler knows of monitors and streams. -/
structure InputChannelHandler where
  sessionHandle : SessionHandle
  coordinateTransformer : CoordinateTransformer
  monitors : List MonitorInfo
  primaryStreamId : UInt32
  deriving DecidableEq, Repr

namespace InputChannelHandler

/-- The monitors are checked. -/
def new (sessionHandle : SessionHandle) (monitors : List MonitorInfo) (primaryStreamId : UInt32) :
    Except MonitorError InputChannelHandler := do
  let coordinateTransformer ← CoordinateTransformer.new monitors
  return ⟨sessionHandle, coordinateTransformer, monitors, primaryStreamId⟩

variable (h : InputChannelHandler)

/-- Monitors that do not pass the check change nothing. -/
def updateMonitors (monitors : List MonitorInfo) : Except MonitorError Unit × InputChannelHandler :=
  match CoordinateTransformer.new monitors with
  | .error e => (.error e, h)
  | .ok coordinateTransformer => (.ok (), { h with monitors, coordinateTransformer })

/-- The monitors are checked first, and the session is told of its streams only then. -/
def updatePrimaryStreamMapping (rdpWidth rdpHeight streamWidth streamHeight : UInt32) :
    Except MonitorError Unit × InputChannelHandler :=
  match updatePrimaryTopology h.monitors h.sessionHandle.streams h.primaryStreamId (max rdpWidth 1)
    (max rdpHeight 1) (max streamWidth 1) (max streamHeight 1) with
  | .error e => (.error e, h)
  | .ok (monitors, streams) =>
    match h.updateMonitors monitors with
    | (.error e, h) => (.error e, h)
    | (.ok (), h) => (.ok (), { h with sessionHandle := h.sessionHandle.setStreams streams })

/-- The client sees the stream in its own size. -/
def updatePrimaryStreamGeometry (width height : UInt32) :
    Except MonitorError Unit × InputChannelHandler :=
  h.updatePrimaryStreamMapping width height width height

end InputChannelHandler

/-! ### Calls -/

/-- The calls that change the topology. -/
inductive TopologyCall where
  | updateMonitors (monitors : List MonitorInfo)
  | updatePrimaryStreamGeometry (width height : UInt32)
  | updatePrimaryStreamMapping (rdpWidth rdpHeight streamWidth streamHeight : UInt32)

namespace InputChannelHandler

variable (h : InputChannelHandler)

/-- One call. -/
def call : TopologyCall → Except MonitorError Unit × InputChannelHandler
  | .updateMonitors monitors => h.updateMonitors monitors
  | .updatePrimaryStreamGeometry width height => h.updatePrimaryStreamGeometry width height
  | .updatePrimaryStreamMapping rdpWidth rdpHeight streamWidth streamHeight =>
    h.updatePrimaryStreamMapping rdpWidth rdpHeight streamWidth streamHeight

/-- The transformer is the one for the monitors. -/
structure Consistent : Prop where
  monitors : h.coordinateTransformer.monitors = h.monitors
  coordSystem : h.coordinateTransformer.coordSystem = calculateCoordinateSystem h.monitors

/-- The next handler differs in the size of the first primary monitor and of the first stream with
the primary id, and in the transformer, which is for its monitors. -/
def ResizesPrimary (rdpWidth rdpHeight streamWidth streamHeight : UInt32)
    (next : InputChannelHandler) : Prop :=
  next.primaryStreamId = h.primaryStreamId ∧
    (∃ before primary after, h.monitors = before ++ primary :: after ∧
      (∀ m ∈ before, m.isPrimary = false) ∧ primary.isPrimary = true ∧
      next.monitors =
        before ++ primary.resize rdpWidth rdpHeight streamWidth streamHeight :: after) ∧
    ∃ before primary after, h.sessionHandle.streams = before ++ primary :: after ∧
      (∀ s ∈ before, s.nodeId ≠ h.primaryStreamId) ∧ primary.nodeId = h.primaryStreamId ∧
      next.sessionHandle.streams = before ++ primary.resize streamWidth streamHeight :: after

/-- What a successful call does. -/
def Performs (next : InputChannelHandler) : TopologyCall → Prop
  | .updateMonitors monitors =>
    next = { h with monitors, coordinateTransformer := next.coordinateTransformer }
  | .updatePrimaryStreamGeometry width height =>
    h.ResizesPrimary (max width 1) (max height 1) (max width 1) (max height 1) next
  | .updatePrimaryStreamMapping rdpWidth rdpHeight streamWidth streamHeight =>
    h.ResizesPrimary (max rdpWidth 1) (max rdpHeight 1) (max streamWidth 1) (max streamHeight 1)
      next

/-- A call does what it is for, or nothing. -/
def Atomic (call : TopologyCall) : Prop :=
  match h.call call with
  | (.error _, next) => next = h
  | (.ok (), next) => h.Performs next call

end InputChannelHandler

/-- The handler as a machine that is called. -/
def inputTopology : Machine InputChannelHandler TopologyCall (Except MonitorError Unit) where
  step h call := ((h.call call).2, [(h.call call).1])

/-! ### What a call does -/

/-- Change the first element that is looked for. -/
theorem modify_findIdx? {α : Type*} {p : α → Bool} {l : List α} {i : ℕ}
    (h : l.findIdx? p = some i) (f : α → α) :
    ∃ before a after, l = before ++ a :: after ∧ (∀ b ∈ before, p b = false) ∧ p a = true ∧
      l.modify i f = before ++ f a :: after := by
  induction l generalizing i with
  | nil => cases h
  | cons a l ih =>
    rw [List.findIdx?_cons] at h
    split at h
    · rename_i ha
      cases h
      exact ⟨[], a, l, rfl, fun _ hb => absurd hb List.not_mem_nil, ha, rfl⟩
    · rename_i ha
      obtain ⟨j, hj, rfl⟩ := Option.map_eq_some_iff.mp h
      obtain ⟨before, a', after, rfl, hbefore, ha', hmodify⟩ := ih hj
      refine ⟨a :: before, a', after, rfl, ?_, ha', ?_⟩
      · exact List.forall_mem_cons.mpr ⟨Bool.eq_false_of_not_eq_true ha, hbefore⟩
      · rw [List.modify_succ_cons, hmodify, List.cons_append]

theorem CoordinateTransformer.new_ok {monitors : List MonitorInfo} {t : CoordinateTransformer}
    (h : CoordinateTransformer.new monitors = .ok t) :
    t.monitors = monitors ∧ t.coordSystem = calculateCoordinateSystem monitors := by
  rw [CoordinateTransformer.new] at h
  cases hvalid : validateMonitors monitors with
  | error e =>
    rw [hvalid] at h
    cases h
  | ok _ =>
    rw [hvalid] at h
    cases h
    exact ⟨rfl, rfl⟩

namespace InputChannelHandler

variable {h : InputChannelHandler}

/-- New monitors are stored with the transformer for them, or not at all. -/
theorem updateMonitors_cases (h : InputChannelHandler) (monitors : List MonitorInfo) :
    (∃ e, h.updateMonitors monitors = (.error e, h)) ∨
      ∃ t, CoordinateTransformer.new monitors = .ok t ∧
        h.updateMonitors monitors = (.ok (), { h with monitors, coordinateTransformer := t }) := by
  rw [updateMonitors]
  cases hnew : CoordinateTransformer.new monitors with
  | error e => exact Or.inl ⟨e, rfl⟩
  | ok t => exact Or.inr ⟨t, rfl, rfl⟩

/-- A resize is stored everywhere, or nowhere. -/
theorem updatePrimaryStreamMapping_cases (h : InputChannelHandler)
    (rdpWidth rdpHeight streamWidth streamHeight : UInt32) :
    (∃ e, h.updatePrimaryStreamMapping rdpWidth rdpHeight streamWidth streamHeight =
        (.error e, h)) ∨
      ∃ monitors streams t, CoordinateTransformer.new monitors = .ok t ∧
        updatePrimaryTopology h.monitors h.sessionHandle.streams h.primaryStreamId (max rdpWidth 1)
          (max rdpHeight 1) (max streamWidth 1) (max streamHeight 1) = .ok (monitors, streams) ∧
        h.updatePrimaryStreamMapping rdpWidth rdpHeight streamWidth streamHeight =
          (.ok (), ⟨h.sessionHandle.setStreams streams, t, monitors, h.primaryStreamId⟩) := by
  rw [updatePrimaryStreamMapping]
  cases htopology : updatePrimaryTopology h.monitors h.sessionHandle.streams h.primaryStreamId
      (max rdpWidth 1) (max rdpHeight 1) (max streamWidth 1) (max streamHeight 1) with
  | error e => exact Or.inl ⟨e, rfl⟩
  | ok copies =>
    obtain ⟨monitors, streams⟩ := copies
    dsimp only
    obtain ⟨e, herror⟩ | ⟨t, hnew, hok⟩ := h.updateMonitors_cases monitors
    · rw [herror]
      exact Or.inl ⟨e, rfl⟩
    · rw [hok]
      exact Or.inr ⟨monitors, streams, t, hnew, rfl, rfl⟩

/-- The copies that are stored are resized ones. -/
theorem resizesPrimary {rdpWidth rdpHeight streamWidth streamHeight : UInt32}
    {monitors : List MonitorInfo} {streams : List StreamInfo}
    (htopology : updatePrimaryTopology h.monitors h.sessionHandle.streams h.primaryStreamId rdpWidth
      rdpHeight streamWidth streamHeight = .ok (monitors, streams)) (t : CoordinateTransformer) :
    h.ResizesPrimary rdpWidth rdpHeight streamWidth streamHeight
      ⟨h.sessionHandle.setStreams streams, t, monitors, h.primaryStreamId⟩ := by
  rw [updatePrimaryTopology] at htopology
  cases hmonitor : h.monitors.findIdx? MonitorInfo.isPrimary with
  | none =>
    rw [hmonitor] at htopology
    cases htopology
  | some i =>
    rw [hmonitor] at htopology
    cases hstream : h.sessionHandle.streams.findIdx?
        fun stream => stream.nodeId = h.primaryStreamId with
    | none =>
      rw [hstream] at htopology
      cases htopology
    | some j =>
      rw [hstream] at htopology
      cases htopology
      refine ⟨rfl, modify_findIdx? hmonitor _, ?_⟩
      obtain ⟨before, primary, after, hsplit, hbefore, hprimary, hmodify⟩ :=
        modify_findIdx? hstream (.resize streamWidth streamHeight)
      exact ⟨before, primary, after, hsplit, fun s hs => of_decide_eq_false (hbefore s hs),
        of_decide_eq_true hprimary, hmodify⟩

theorem atomic (h : InputChannelHandler) (call : TopologyCall) : h.Atomic call := by
  have hmapping : ∀ rdpWidth rdpHeight streamWidth streamHeight,
      match h.updatePrimaryStreamMapping rdpWidth rdpHeight streamWidth streamHeight with
      | (.error _, next) => next = h
      | (.ok (), next) => h.ResizesPrimary (max rdpWidth 1) (max rdpHeight 1) (max streamWidth 1)
        (max streamHeight 1) next := by
    intro rdpWidth rdpHeight streamWidth streamHeight
    obtain ⟨e, herror⟩ | ⟨monitors, streams, t, -, htopology, hok⟩ :=
      h.updatePrimaryStreamMapping_cases rdpWidth rdpHeight streamWidth streamHeight
    · rw [herror]
    · rw [hok]
      exact resizesPrimary htopology t
  cases call with
  | updateMonitors monitors =>
    rw [Atomic, InputChannelHandler.call]
    obtain ⟨e, herror⟩ | ⟨t, -, hok⟩ := h.updateMonitors_cases monitors
    · rw [herror]
    · rw [hok]
      rfl
  | updatePrimaryStreamGeometry width height => exact hmapping width height width height
  | updatePrimaryStreamMapping rdpWidth rdpHeight streamWidth streamHeight =>
    exact hmapping rdpWidth rdpHeight streamWidth streamHeight

theorem Consistent.call (hc : h.Consistent) (call : TopologyCall) : (h.call call).2.Consistent := by
  have hmapping : ∀ rdpWidth rdpHeight streamWidth streamHeight,
      (h.updatePrimaryStreamMapping rdpWidth rdpHeight streamWidth streamHeight).2.Consistent := by
    intro rdpWidth rdpHeight streamWidth streamHeight
    obtain ⟨e, herror⟩ | ⟨monitors, streams, t, hnew, -, hok⟩ :=
      h.updatePrimaryStreamMapping_cases rdpWidth rdpHeight streamWidth streamHeight
    · rw [herror]
      exact hc
    · rw [hok]
      exact ⟨(CoordinateTransformer.new_ok hnew).1, (CoordinateTransformer.new_ok hnew).2⟩
  cases call with
  | updateMonitors monitors =>
    rw [InputChannelHandler.call]
    obtain ⟨e, herror⟩ | ⟨t, hnew, hok⟩ := h.updateMonitors_cases monitors
    · rw [herror]
      exact hc
    · rw [hok]
      exact ⟨(CoordinateTransformer.new_ok hnew).1, (CoordinateTransformer.new_ok hnew).2⟩
  | updatePrimaryStreamGeometry width height => exact hmapping width height width height
  | updatePrimaryStreamMapping rdpWidth rdpHeight streamWidth streamHeight =>
    exact hmapping rdpWidth rdpHeight streamWidth streamHeight

theorem consistent_new {sessionHandle : SessionHandle} {monitors : List MonitorInfo}
    {primaryStreamId : UInt32} (hnew : new sessionHandle monitors primaryStreamId = .ok h) :
    h.Consistent := by
  rw [new] at hnew
  cases htransformer : CoordinateTransformer.new monitors with
  | error e =>
    rw [htransformer] at hnew
    cases hnew
  | ok t =>
    rw [htransformer] at hnew
    cases hnew
    exact ⟨(CoordinateTransformer.new_ok htransformer).1,
      (CoordinateTransformer.new_ok htransformer).2⟩

end InputChannelHandler

/-- **The topology stays consistent.** Whatever the calls, the transformer is for the monitors, and
each call does what it is for or changes nothing. -/
theorem topology_consistent {sessionHandle : SessionHandle} {monitors : List MonitorInfo}
    {primaryStreamId : UInt32} {h : InputChannelHandler}
    (hnew : InputChannelHandler.new sessionHandle monitors primaryStreamId = .ok h)
    (calls : List TopologyCall) :
    inputTopology.Always InputChannelHandler.Consistent h calls ∧
      inputTopology.Along InputChannelHandler.Atomic h calls :=
  ⟨Machine.always_of_invariant (C := fun _ _ => True) (fun _ call hc _ => hc.call call)
      (fun _ hc => hc) (InputChannelHandler.consistent_new hnew) Machine.along_true,
    Machine.Along.of_invariant (I := fun _ => True) (fun _ _ _ _ => trivial)
      (fun h call _ _ => h.atomic call) trivial Machine.along_true⟩

/-- One monitor, and the stream that shows it. -/
def singleScreen : SessionHandle × List MonitorInfo :=
  (⟨[⟨7, 1920, 1080, 0, 0⟩], some []⟩,
    [⟨1, "primary", 0, 0, 1920, 1080, .systemDpi, .one, 0, 0, 1920, 1080, true⟩])

/-- It is resized, and a size that does not fit is refused. -/
theorem singleScreen_consistent :
    ∃ h, InputChannelHandler.new singleScreen.1 singleScreen.2 7 = .ok h ∧
      inputTopology.Always InputChannelHandler.Consistent h
        [.updatePrimaryStreamMapping 1600 900 2560 1440,
          .updatePrimaryStreamGeometry 4294967295 1] ∧
      inputTopology.trace h [.updatePrimaryStreamMapping 1600 900 2560 1440,
          .updatePrimaryStreamGeometry 4294967295 1] =
        [.ok (),
          .error (.invalidMonitorConfig "Monitor 'primary' coordinate extent overflows")] := by
  obtain ⟨h, hnew⟩ : ∃ h, InputChannelHandler.new singleScreen.1 singleScreen.2 7 = .ok h :=
    ⟨_, rfl⟩
  refine ⟨h, hnew, (topology_consistent hnew _).1, ?_⟩
  cases hnew
  decide +kernel

end Input

end Cheirizo
