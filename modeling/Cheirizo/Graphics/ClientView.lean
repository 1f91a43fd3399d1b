import Cheirizo.Graphics.LoopMoves
import Cheirizo.Lib.Log

/-!
# What the client was given

A client that is told a mode expects frames of its codec, each on a surface of its size, and not to
be shown bitmaps in between. What it was told so far is read off the log, and the loop is asked
whether it keeps to that.

A surface is written down where everybody can see it, but only if nobody else is just looking there,
and it is crossed out again when the mode is published anew. So a frame may be for a surface of
another size, if one could not be made or written down.

## Main definitions

* `ClientView` — what a client was given
* `Holding` — the loop will stay with EGFX

## Main results

* `avc_on_surface` — which frames are sent over EGFX
* `bitmap_after_reset` — when bitmaps come after them
-/

namespace Cheirizo

namespace Graphics

variable {cfg : LoopConfig} {p q : DisplayLoop} {i : LoopInput} {log actions : List LoopAction}

/-! ### The client -/

/-- The mode, the surface that was made since, with its encoded and its visible size, and whether
the last picture came over EGFX. -/
structure ClientView where
  mode : Option NegotiatedEgfxMode
  surface : Option (UInt16 × DesktopSize × DesktopSize)
  avc : Bool

namespace ClientView

/-- A new mode takes the surface away. A resize leaves it. -/
def see (v : ClientView) : LoopAction → ClientView
  | .published mode _ => { v with mode := some mode, surface := none }
  | .resized _ => { v with avc := false }
  | .coreReset _ => { v with avc := false }
  | .surface surface encoded display => { v with surface := some (surface, encoded, display) }
  | .avc _ _ _ _ => { v with avc := true }
  | .activated _ => v
  | .gaveUp _ => v
  | .bitmap => v

/-- The client after all that was logged. -/
def after (log : List LoopAction) : ClientView := log.foldl see ⟨none, none, false⟩

/-- What the client knows is read off the log from its end. -/
@[simp] theorem after_append (log : List LoopAction) (x : LoopAction) :
    after (log ++ [x]) = (after log).see x := by
  simp [after]

end ClientView

open ClientView

/-! ### Surfaces -/

/-- The size that encoders work with. -/
def alignedSize (size : DesktopSize) : DesktopSize :=
  (.ofNat (alignTo16 size.1.toNat), .ofNat (alignTo16 size.2.toNat))

/-- The frame is of this size. -/
def VideoFrame.HasSize (frame : VideoFrame) (size : DesktopSize) : Prop :=
  (frame.width, frame.height) = (size.1.toNat, size.2.toNat)

/-- A frame of this size is encoded in the aligned size and shown in its own. -/
theorem VideoFrame.HasSize.sizes {frame : VideoFrame} {size : DesktopSize}
    (h : frame.HasSize size) :
    frame.encodedSize = alignedSize size ∧ frame.displaySize = size := by
  obtain ⟨hwidth, hheight⟩ := Prod.mk.inj h
  simp [VideoFrame.encodedSize, VideoFrame.displaySize, alignedSize, hwidth, hheight]

/-- The frame of a phase behind the check of its size. -/
def LoopPhase.checked : LoopPhase → Option VideoFrame
  | poll => none
  | captured _ => none
  | idle => none
  | replay => none
  | pace _ => none
  | gate frame => some frame
  | late frame => some frame
  | lateMode frame => some frame
  | reset frame _ => some frame
  | mode frame _ => some frame
  | caps frame => some frame
  | initialise frame => some frame
  | surface frame => some frame
  | send frame => some frame

/-- A frame on its way was let through in the size of the path. -/
theorem Goes.checked {from' next : LoopPhase} (h : Goes p from' next) {frame : VideoFrame}
    (hframe : next.checked = some frame) :
    from'.checked = some frame ∨ frame.HasSize p.egfx.size := by
  cases h with
  | paced frame' hsize => exact Or.inr (Option.some.inj hframe ▸ hsize)
  | avc frame' needsInit mode hbypassed hmode havc =>
    cases needsInit with
    | true => exact Or.inl hframe
    | false => exact Or.inl hframe
  | passed | looked | loaded | noReset | noMode => exact Or.inl hframe
  | idle | client | noClient | waiting | again | nothing | dropped | held => cases hframe

/-- From a surface it goes on by a move of its own. -/
theorem Goes.not_surface {from' next : LoopPhase} (h : Goes p from' next) (frame : VideoFrame) :
    from' ≠ .surface frame := by
  cases h <;> exact LoopPhase.noConfusion

/-- The mode whose codec an encoder has. -/
def VideoEncoder.mode : VideoEncoder → NegotiatedEgfxMode
  | avc420 => .avc420
  | avc444 => .avc444
  | hardware => .avc420

/-- The codec of an encoder is that of the negotiated mode. -/
theorem negotiatedMode_of_enabledIn {state : HandlerState} (h : state.Consistent)
    {encoder : VideoEncoder} (henabled : encoder.enabledIn state = true) :
    state.negotiatedMode = some encoder.mode := by
  cases encoder with
  | avc420 => exact h.avc420.mp henabled
  | avc444 => exact h.avc444.mp henabled
  | hardware => exact h.avc420.mp henabled

/-- A frame is of the mode that was published last and, if surfaces are `stored`, on the one that
was made last and for a frame of its size. -/
def OnSurface (stored : Prop) (before : List LoopAction) : LoopAction → Prop
  | .avc encoder surface encoded display =>
    (after before).mode = some encoder.mode ∧
      (stored → (after before).surface = some (surface, encoded, display))
  | _ => True

/-- What neither makes a surface nor uses one. -/
def LoopAction.Aside : LoopAction → Prop
  | published _ _ => False
  | surface _ _ _ => False
  | avc _ _ _ _ => False
  | _ => True

/-- What is published is what the client was told, and its surface is of the committed size, as long
as there is a sender. -/
structure Presented (stored : Prop) (p : DisplayLoop) (log : List LoopAction) : Prop where
  supported : Supported (OnSurface stored) log
  mode : ∀ state, p.handler = some state →
    state.Consistent ∧ state.negotiatedMode = (after log).mode
  surface : stored → ∀ state surface, p.handler = some state →
    state.primarySurfaceId = some surface → p.egfx.sender = true →
    (∀ frame, p.phase ≠ .surface frame) →
    (after log).surface = some (surface, alignedSize p.egfx.size, p.egfx.size)
  checked : ∀ frame, p.phase.checked = some frame → frame.HasSize p.egfx.size

variable {stored : Prop}

/-- What is neither a mode nor a surface leaves the client with what it was given. -/
theorem Presented.aside (h : Presented stored p log) {x : LoopAction} (hx : x.Aside) :
    Presented stored p (log ++ [x]) := by
  have hview : ((after log).see x).mode = (after log).mode ∧
      ((after log).see x).surface = (after log).surface := by
    cases x with
    | published | surface | avc => exact hx.elim
    | activated | gaveUp | resized | coreReset | bitmap => exact ⟨rfl, rfl⟩
  refine ⟨supported_append.mpr ⟨h.supported, supported_singleton.mpr ?_⟩, ?_, ?_, h.checked⟩
  · cases x with
    | published | surface | avc => exact hx.elim
    | activated | gaveUp | resized | coreReset | bitmap => trivial
  · rw [after_append, hview.1]
    exact h.mode
  · rw [after_append, hview.2]
    exact h.surface

/-- Nothing changes for the surface unless there is no sender any more. -/
theorem Presented.of_eq (h : Presented stored p log) (hhandler : q.handler = p.handler)
    (hsender : q.egfx.sender = true →
      p.egfx.sender = true ∧ q.egfx.size = p.egfx.size ∧ ∀ frame, p.phase ≠ .surface frame)
    (hchecked : ∀ frame, q.phase.checked = some frame → frame.HasSize q.egfx.size) :
    Presented stored q log := by
  refine ⟨h.supported, hhandler ▸ h.mode, fun hstored state surface hstate hsurface hq _ => ?_,
    hchecked⟩
  obtain ⟨hp, hsize, hphase⟩ := hsender hq
  rw [hsize]
  exact h.surface hstored state surface (hhandler ▸ hstate) hsurface hp hphase

/-- The check of the size is still ahead. -/
theorem Presented.unchecked (h : Presented stored p log) (hhandler : q.handler = p.handler)
    (hsender : q.egfx.sender = true →
      p.egfx.sender = true ∧ q.egfx.size = p.egfx.size ∧ ∀ frame, p.phase ≠ .surface frame)
    (hphase : q.phase.checked = none) : Presented stored q log := by
  refine h.of_eq hhandler hsender fun frame hframe => ?_
  rw [hphase] at hframe
  cases hframe

/-- Something is published. -/
theorem Presented.publish (h : Presented stored p log) {mode : NegotiatedEgfxMode} {required : Bool}
    {state : HandlerState} (hstate : state.Consistent) (hmode : state.negotiatedMode = some mode)
    (hsurface : state.primarySurfaceId = none) :
    Presented stored { p with handler := some state } (log ++ [.published mode required]) := by
  refine ⟨supported_append.mpr ⟨h.supported, supported_singleton.mpr trivial⟩, ?_, ?_, h.checked⟩
  · rintro state' hstate'
    obtain rfl := Option.some.inj hstate'
    rw [after_append]
    exact ⟨hstate, hmode⟩
  · rintro - state' surface hstate' hsome
    obtain rfl := Option.some.inj hstate'
    rw [hsurface] at hsome
    cases hsome

/-- Whenever a surface is asked for, it is made and written down. -/
def StoresSurface (p : DisplayLoop) : LoopInput → Prop
  | .advance a => ∀ frame, p.phase = .surface frame → a.surface.isSome = true ∧ a.stored = true
  | _ => True

/-- One move. The client knows the surface if it could be written down. -/
theorem presented_move (hmove : Move cfg p i actions q) (hstores : stored → StoresSurface p i)
    (h : Presented stored p log) : Presented stored q (log ++ actions) := by
  cases hmove with
  | nothing => simpa using h
  | ready cap hoffers => exact h.publish (consistent_onReady _ _) rfl rfl
  | closed hoffers => exact h.publish (consistent_bitmapFallback _) rfl rfl
  | updates =>
    rw [List.append_nil]
    exact ⟨h.supported, h.mode, h.surface, h.checked⟩
  | release =>
    rw [List.append_nil]
    exact ⟨h.supported, h.mode, h.surface, h.checked⟩
  | stopped a =>
    rw [List.append_nil]
    exact ⟨h.supported, h.mode, h.surface, h.checked⟩
  | go a next hgoes =>
    rw [List.append_nil]
    refine h.of_eq rfl (fun hsender => ⟨hsender, rfl, hgoes.not_surface⟩) fun frame hframe => ?_
    exact (hgoes.checked hframe).elim (h.checked frame) id
  | keep a frame hphase hcaptured =>
    rw [List.append_nil]
    exact h.unchecked rfl (fun hsender => ⟨hsender, rfl, by simp [hphase]⟩) rfl
  | resize a frame size hphase hcaptured hresize =>
    refine Presented.aside (x := .resized size) ?_ trivial
    exact h.unchecked rfl (fun hsender => by cases hsender) rfl
  | lose a frame hphase hclient =>
    rw [List.append_nil]
    exact h.unchecked rfl (fun hsender => ⟨hsender, rfl, by simp [hphase]⟩) rfl
  | activate a next hphase hclient hwas =>
    refine Presented.aside (x := .activated a.now) ?_ trivial
    refine h.of_eq rfl (fun hsender => by cases hsender) fun frame hframe => ?_
    obtain ⟨frame', -, rfl⟩ | ⟨-, rfl⟩ := hphase
    · cases hframe
    · cases hframe
  | giveUp a frame hphase hready htime =>
    refine Presented.aside (x := .gaveUp a.now) ?_ trivial
    refine h.of_eq rfl (fun hsender => ⟨hsender, rfl, fun frame' => ?_⟩) fun frame' hframe => ?_
    · simp [hphase]
    · exact h.checked frame' (hphase ▸ hframe)
  | stay a frame hphase =>
    rw [List.append_nil]
    refine h.of_eq rfl (fun hsender => ⟨hsender, rfl, fun frame' => ?_⟩) fun frame' hframe => ?_
    · simp [hphase]
    · exact h.checked frame' (hphase ▸ hframe)
  | comeBack a frame hphase =>
    rw [List.append_nil]
    refine h.of_eq rfl (fun hsender => ⟨hsender, rfl, fun frame' => ?_⟩) fun frame' hframe => ?_
    · simp [hphase]
    · exact h.checked frame' (hphase ▸ hframe)
  | reset a frame needsInit hphase state hstate hrequired =>
    obtain ⟨hconsistent, hmode⟩ := h.mode state hstate
    have hreset : Presented stored
        { p with
          phase := .mode frame needsInit
          handler := some { state with requiresCoreReset := false }
          egfx := p.egfx.coreGraphicsReset a.published } log := by
      refine ⟨h.supported, fun state' hstate' => ?_, fun _ _ _ _ _ => nofun,
        fun frame' hframe => ?_⟩
      · obtain rfl := Option.some.inj hstate'
        exact ⟨⟨hconsistent.avc420, hconsistent.avc444⟩, hmode⟩
      · exact h.checked frame' (hphase ▸ hframe)
    split
    · exact hreset.aside trivial
    · rw [List.append_nil]
      exact hreset
  | bitmap a q hfalls =>
    have hfallen : Presented stored { q with phase := .poll } log := by
      cases hfalls with
      | mode frame needsInit hphase hbypassed hmode =>
        exact h.unchecked rfl (fun hsender => by cases hsender) rfl
      | noMode frame hphase hnone =>
        exact h.unchecked rfl (fun hsender => ⟨hsender, rfl, by simp [hphase]⟩) rfl
      | pending frame hphase =>
        exact h.unchecked rfl (fun hsender => ⟨hsender, rfl, by simp [hphase]⟩) rfl
      | settled frame hphase =>
        exact h.unchecked rfl (fun hsender => ⟨hsender, rfl, by simp [hphase]⟩) rfl
      | noEncoder frame hphase hnone =>
        exact h.unchecked rfl (fun hsender => ⟨hsender, rfl, by simp [hphase]⟩) rfl
    split
    · exact hfallen.aside trivial
    · rw [List.append_nil]
      exact hfallen
  | initialise a frame hphase =>
    rw [List.append_nil]
    refine ⟨h.supported, h.mode, fun _ state surface _ _ hsender hsurface => ?_,
      fun frame' hframe => ?_⟩
    · refine absurd ?_ (hsurface frame)
      exact if_pos hsender
    · refine h.checked frame' ?_
      rw [hphase]
      rw [← hframe]
      simp only [DisplayLoop.initialise]
      split <;> rfl
  | surface a frame surface hphase hsurface =>
    have hsize := h.checked frame (hphase ▸ rfl)
    obtain ⟨hencoded, hdisplay⟩ := hsize.sizes
    rw [hencoded, hdisplay]
    refine ⟨supported_append.mpr ⟨h.supported, supported_singleton.mpr trivial⟩, ?_, ?_, ?_⟩
    · intro state hstate
      rw [after_append]
      dsimp only at hstate
      split at hstate
      · obtain ⟨state', hstate', rfl⟩ := Option.map_eq_some_iff.mp hstate
        obtain ⟨hconsistent, hmode⟩ := h.mode state' hstate'
        exact ⟨⟨hconsistent.avc420, hconsistent.avc444⟩, hmode⟩
      · exact h.mode state hstate
    · intro hstored state surface' hstate hsurface' _ _
      dsimp only at hstate
      rw [if_pos (hstores hstored frame hphase).2] at hstate
      obtain ⟨state', hstate', rfl⟩ := Option.map_eq_some_iff.mp hstate
      obtain rfl := Option.some.inj hsurface'
      rw [after_append]
      rfl
    · rintro frame' hframe
      obtain rfl := Option.some.inj hframe
      exact hsize
  | noSurface a frame hphase hsurface =>
    rw [List.append_nil]
    refine ⟨h.supported, h.mode, fun hstored => ?_, fun frame' hframe => ?_⟩
    · have hsome := (hstores hstored frame hphase).1
      rw [hsurface] at hsome
      cases hsome
    · exact h.checked frame' (hphase ▸ hframe)
  | send a frame encoder hardwareDisabled actions hphase hencoder hsender hactions =>
    have hlater := p.egfx.later_process (p.capture frame encoder a)
    have hsent : Presented stored
        { p with
          egfx := (p.egfx.process (p.capture frame encoder a)).egfx
          hardwareDisabled
          phase := .poll } log := by
      exact h.unchecked rfl (fun _ => ⟨hsender, hlater.size, by simp [hphase]⟩) rfl
    obtain rfl | ⟨surface, frameId, hok, rfl⟩ := hactions
    · rw [List.append_nil]
      exact hsent
    · obtain ⟨state, hstate, -, henabled, hsurface⟩ := sendEncoded_ok hok
      obtain ⟨hconsistent, hmode⟩ := h.mode state hstate
      obtain ⟨hencoded, hdisplay⟩ := (h.checked frame (hphase ▸ rfl)).sizes
      have hlast := fun hstored =>
        h.surface hstored state surface hstate hsurface hsender (by simp [hphase])
      refine ⟨supported_append.mpr ⟨h.supported, supported_singleton.mpr ?_⟩, ?_, ?_, nofun⟩
      · rw [hencoded, hdisplay, List.append_nil]
        exact ⟨hmode ▸ negotiatedMode_of_enabledIn hconsistent henabled, hlast⟩
      · rw [after_append]
        exact hsent.mode
      · rw [after_append]
        exact hsent.surface

/-! ### Bitmaps -/

namespace DisplayLoop

/-- There is an encoder, and a sender for what it makes. -/
def SetUp (p : DisplayLoop) : Prop := p.egfx.encoder.isSome = true ∧ p.egfx.sender = true

/-- The published mode is one of AVC. -/
def AvcMode (p : DisplayLoop) : Prop :=
  ∃ mode, p.negotiatedMode = some mode ∧ mode.usesAvc = true

/-- What it takes in a phase for the frame not to go out as a bitmap. -/
def Stays (p : DisplayLoop) : LoopPhase → Prop
  | .lateMode _ => False
  | .caps _ => False
  | .reset _ needsInit => needsInit = true ∨ p.SetUp
  | .mode _ needsInit => p.AvcMode ∧ (needsInit = true ∨ p.SetUp)
  | .initialise _ => True
  | .surface _ => p.SetUp
  | .send _ => p.SetUp
  | _ => p.needsInit = true ∨ p.SetUp

/-- The loop will stay with EGFX, or take a reset first. -/
structure Holding (p : DisplayLoop) : Prop where
  bypassed : p.bypassed = false
  gfxServer : p.gfxServer = true
  handler : ∃ state, p.handler = some state ∧ state.isReady = true ∧
    (state.requiresCoreReset = true ∨
      ∃ mode, state.negotiatedMode = some mode ∧ mode.usesAvc = true)
  phase : p.Stays p.phase

end DisplayLoop

/-- The client confirms AVC only, and does not close its channel between the look for a reset and
the look at the mode; a reset has a place in the queue, and there is always an encoder. -/
def KeepsAvc (cfg : LoopConfig) (p : DisplayLoop) : LoopInput → Prop
  | .ready cap false => (selectMode cfg.policy (codecSupport cap)).usesAvc = true
  | .closed false => ∀ frame needsInit, p.phase ≠ .mode frame needsInit
  | .advance a =>
    (∀ frame needsInit state, p.phase = .reset frame needsInit → p.handler = some state →
      state.requiresCoreReset = true → a.published = true) ∧
    ∀ frame, p.phase = .initialise frame → (p.newEncoder cfg a).isSome = true
  | _ => True

theorem DisplayLoop.AvcMode.ne_bitmap (h : p.AvcMode) : p.negotiatedMode ≠ some .bitmap := by
  obtain ⟨mode, hmode, havc⟩ := h
  rintro hbitmap
  obtain rfl := Option.some.inj (hmode.symm.trans hbitmap)
  cases havc

/-- A loop that stays with EGFX is ready for it. -/
theorem DisplayLoop.Holding.ready (h : p.Holding) : p.isEgfxReady = true := by
  obtain ⟨state, hstate, hready, -⟩ := h.handler
  simp [DisplayLoop.isEgfxReady, h.gfxServer, hstate, hready]

/-- Once no reset is required, it is in a mode with a codec. -/
theorem DisplayLoop.Holding.avcMode (h : p.Holding)
    (hreset : ∀ state, p.handler = some state → state.requiresCoreReset = false) : p.AvcMode := by
  obtain ⟨state, hstate, -, hrequired | ⟨mode, hmode, havc⟩⟩ := h.handler
  · rw [hreset state hstate] at hrequired
    cases hrequired
  · exact ⟨mode, by rw [DisplayLoop.negotiatedMode, hstate]; exact hmode, havc⟩

/-- It stays so from phase to phase. -/
theorem DisplayLoop.Holding.goes (h : p.Holding) {next : LoopPhase} (hgoes : Goes p p.phase next) :
    p.Stays next := by
  have hphase := h.phase
  generalize p.phase = phase at hphase hgoes
  cases hgoes with
  | idle | client | noClient | waiting | again | nothing | paced | dropped | held | passed =>
    exact hphase
  | looked frame hbypassed hready =>
    rw [h.bypassed] at hbypassed
    cases hbypassed
  | loaded frame =>
    show (!p.bypassed && p.needsInit) = true ∨ p.SetUp
    rw [h.bypassed]
    exact hphase
  | noReset frame needsInit hreset => exact ⟨h.avcMode hreset, hphase⟩
  | avc frame needsInit mode hbypassed hmode havc =>
    cases needsInit with
    | true => trivial
    | false => exact hphase.2.resolve_left Bool.false_ne_true
  | noMode frame hnone =>
    obtain hbypassed | hmode := hnone
    · rw [h.bypassed] at hbypassed
      cases hbypassed
    · obtain ⟨mode, hsome, -⟩ := hphase.1
      cases hmode.symm.trans hsome

/-- No frame of it goes out as a bitmap. -/
theorem DisplayLoop.Holding.not_falls (h : p.Holding) (hfalls : Falls p q) : False := by
  have hphase := h.phase
  cases hfalls with
  | mode frame needsInit hmode hbypassed hbitmap =>
    rw [hmode] at hphase
    exact hphase.1.ne_bitmap hbitmap
  | noMode frame hmode hnone =>
    rw [hmode] at hphase
    obtain hbypassed | hmode := hnone
    · rw [h.bypassed] at hbypassed
      cases hbypassed
    · obtain ⟨mode, hsome, -⟩ := hphase.1
      cases hmode.symm.trans hsome
  | pending frame hcaps =>
    rw [hcaps] at hphase
    exact hphase
  | settled frame hcaps =>
    rw [hcaps] at hphase
    exact hphase
  | noEncoder frame hsend hnone =>
    rw [hsend] at hphase
    obtain hencoder | hsender := hnone
    · have hsome := hphase.1
      rw [hencoder] at hsome
      cases hsome
    · cases hsender.symm.trans hphase.2

/-- A loop that holds on to EGFX does so until a reset. -/
theorem holding_move (hmove : Move cfg p i actions q) (hkeeps : KeepsAvc cfg p i)
    (h : p.Holding) :
    (∃ size, actions = [.coreReset size]) ∨ (q.Holding ∧ .bitmap ∉ actions) := by
  obtain ⟨hbypassed, hgfx, hhandler, hphase⟩ := id h
  have hnot : LoopAction.bitmap ∉ ([] : List LoopAction) := List.not_mem_nil
  cases hmove with
  | nothing => exact Or.inr ⟨h, hnot⟩
  | ready cap hoffers =>
    refine Or.inr ⟨⟨hbypassed, hgfx, ⟨_, rfl, rfl, Or.inr ⟨_, rfl, hkeeps⟩⟩, ?_⟩, by simp⟩
    dsimp only
    generalize p.phase = phase at hphase ⊢
    cases phase with
    | mode frame needsInit => exact ⟨⟨_, rfl, hkeeps⟩, hphase.2⟩
    | _ => exact hphase
  | closed hoffers =>
    refine Or.inr ⟨⟨hbypassed, hgfx, ⟨_, rfl, rfl, Or.inl rfl⟩, ?_⟩, by simp⟩
    have hkeeps : ∀ frame needsInit, p.phase ≠ .mode frame needsInit := hkeeps
    dsimp only
    generalize p.phase = phase at hphase hkeeps ⊢
    cases phase with
    | mode frame needsInit => exact absurd rfl (hkeeps frame needsInit)
    | _ => exact hphase
  | updates =>
    refine Or.inr ⟨⟨hbypassed, hgfx, hhandler, ?_⟩, hnot⟩
    show DisplayLoop.Stays _ p.phase
    have hinit : p.needsInit = true → (!p.receiver || p.needsInit) = true := by
      intro hinit
      simp [hinit]
    generalize p.phase = phase at hphase ⊢
    cases phase with
    | lateMode | caps | reset | mode | initialise | surface | send => exact hphase
    | poll | captured | idle | replay | pace | gate | late => exact hphase.imp_left hinit
  | release => exact Or.inr ⟨⟨hbypassed, hgfx, hhandler, hphase⟩, hnot⟩
  | stopped a => exact Or.inr ⟨⟨hbypassed, hgfx, hhandler, hphase⟩, hnot⟩
  | go a next hgoes => exact Or.inr ⟨⟨hbypassed, hgfx, hhandler, h.goes hgoes⟩, hnot⟩
  | keep a frame hpoll hcaptured =>
    rw [hpoll] at hphase
    exact Or.inr ⟨⟨hbypassed, hgfx, hhandler, hphase⟩, hnot⟩
  | resize a frame size hpoll hcaptured hresize =>
    exact Or.inr ⟨⟨hbypassed, hgfx, hhandler, Or.inl rfl⟩, by simp⟩
  | lose a frame hcaptured hclient =>
    rw [hcaptured] at hphase
    exact Or.inr ⟨⟨hbypassed, hgfx, hhandler, hphase⟩, hnot⟩
  | activate a next hcaptured hclient hwas =>
    refine Or.inr ⟨⟨rfl, hgfx, hhandler, ?_⟩, by simp⟩
    obtain ⟨frame, -, rfl⟩ | ⟨-, rfl⟩ := hcaptured
    · exact Or.inl rfl
    · exact Or.inl rfl
  | giveUp a frame hgate hready htime =>
    rw [h.ready] at hready
    cases hready
  | stay a frame hlate =>
    rw [hlate] at hphase
    exact hphase.elim
  | comeBack a frame hlate =>
    rw [hlate] at hphase
    exact hphase.elim
  | reset a frame needsInit hreset state hstate hrequired =>
    refine Or.inl ⟨p.egfx.size, if_pos ?_⟩
    exact hkeeps.1 frame needsInit state hreset hstate hrequired
  | bitmap a q hfalls => exact (h.not_falls hfalls).elim
  | initialise a frame hinitialise =>
    have hsome := hkeeps.2 frame hinitialise
    refine Or.inr ⟨⟨hbypassed, hgfx, hhandler, ?_⟩, hnot⟩
    have hnext : (p.initialise cfg frame a).phase = .surface frame :=
      if_pos (by rw [hsome, hgfx]; rfl)
    rw [hnext]
    exact ⟨hsome, by rw [DisplayLoop.initialise, Egfx.initialise, hsome, hgfx]; rfl⟩
  | surface a frame surface hsurface hmade =>
    rw [hsurface] at hphase
    refine Or.inr ⟨⟨hbypassed, hgfx, ?_, hphase⟩, by simp⟩
    obtain ⟨state, hstate, hready, hmode⟩ := hhandler
    dsimp only
    split
    · exact ⟨{ state with primarySurfaceId := some surface }, by rw [hstate]; rfl, hready, hmode⟩
    · exact ⟨state, hstate, hready, hmode⟩
  | noSurface a frame hsurface hmade =>
    rw [hsurface] at hphase
    exact Or.inr ⟨⟨hbypassed, hgfx, hhandler, hphase⟩, hnot⟩
  | send a frame encoder hardwareDisabled actions hsend hencoder hsender hactions =>
    have hlater := p.egfx.later_process (p.capture frame encoder a)
    refine Or.inr ⟨⟨hbypassed, hgfx, hhandler, Or.inr ⟨?_, hlater.sender.trans hsender⟩⟩, ?_⟩
    · obtain hsame | ⟨-, hsoft⟩ := hlater.encoder
      · simp [hsame, hencoder]
      · simp [hsoft]
    · obtain rfl | ⟨surface, frameId, -, rfl⟩ := hactions
      · exact hnot
      · simp

/-- A bitmap does not come right after pictures over EGFX. -/
def NotMixed (before : List LoopAction) : LoopAction → Prop
  | .bitmap => (after before).avc = false
  | _ => True

/-- What is so in every run. -/
structure Steady (p : DisplayLoop) (log : List LoopAction) : Prop where
  presented : Presented False p log
  connected : p.egfx.sender = true → p.gfxServer = true
  unbypassed : ∀ frame, p.phase = .initialise frame ∨ p.phase = .surface frame ∨
    p.phase = .send frame → p.bypassed = false

/-- While the last picture came over EGFX, the loop holds on to that. -/
structure Unmixed (p : DisplayLoop) (log : List LoopAction) : Prop where
  steady : Steady p log
  supported : Supported NotMixed log
  holding : (after log).avc = true → p.Holding

theorem Goes.unbypassed {from' next : LoopPhase} (h : Goes p from' next) {frame : VideoFrame}
    (hnext : next = .initialise frame ∨ next = .surface frame ∨ next = .send frame) :
    p.bypassed = false := by
  cases h with
  | avc frame' needsInit mode hbypassed hmode havc => exact hbypassed
  | idle | client | noClient | waiting | again | nothing | paced | dropped | held | passed
  | looked | loaded | noReset | noMode => simp at hnext

/-- A path that can send was attached to a server, which nothing detaches. -/
theorem connected_move (hmove : Move cfg p i actions q)
    (h : p.egfx.sender = true → p.gfxServer = true) :
    q.egfx.sender = true → q.gfxServer = true := by
  cases hmove with
  | resize | activate | reset => exact fun hsender => by cases hsender
  | bitmap a q hfalls =>
    cases hfalls with
    | mode => exact fun hsender => by cases hsender
    | noMode | pending | settled | noEncoder => exact h
  | initialise a frame hphase =>
    exact fun hsender => (Bool.and_eq_true _ _ ▸ hsender : _ ∧ _).2
  | send a frame encoder hardwareDisabled actions hphase hencoder hsender hactions =>
    exact fun _ => h hsender
  | nothing | ready | closed | updates | release | stopped | go | keep | lose | giveUp | stay
  | comeBack | surface | noSurface => exact h

theorem unbypassed_move (hmove : Move cfg p i actions q)
    (h : ∀ frame, p.phase = .initialise frame ∨ p.phase = .surface frame ∨
      p.phase = .send frame → p.bypassed = false) (frame : VideoFrame)
    (hq : q.phase = .initialise frame ∨ q.phase = .surface frame ∨ q.phase = .send frame) :
    q.bypassed = false := by
  cases hmove with
  | go a next hgoes => exact hgoes.unbypassed hq
  | activate => rfl
  | nothing | ready | closed | updates | release | stopped => exact h frame hq
  | initialise a frame' hphase => exact h frame' (Or.inl hphase)
  | surface a frame' surface hphase hsurface => exact h frame' (Or.inr (Or.inl hphase))
  | noSurface a frame' hphase hsurface => exact h frame' (Or.inr (Or.inl hphase))
  | keep | resize | lose | giveUp | stay | comeBack | reset | bitmap | send =>
    simp [DisplayLoop.loadNeedsInit] at hq

/-- One move, for all that holds without a condition on the inputs. -/
theorem steady_move (hmove : Move cfg p i actions q) (h : Steady p log) :
    Steady q (log ++ actions) where
  presented := presented_move hmove False.elim h.presented
  connected := connected_move hmove h.connected
  unbypassed := unbypassed_move hmove h.unbypassed

/-- A picture that goes out over EGFX. -/
theorem Steady.sent (h : Steady p log) (hmove : Move cfg p i actions q) {encoder : VideoEncoder}
    {surface : UInt16} {encoded display : DesktopSize}
    (hin : .avc encoder surface encoded display ∈ actions) : q.Holding := by
  cases hmove with
  | send a frame encoder' hardwareDisabled actions hphase hencoder hsender hactions =>
    obtain rfl | ⟨surface', frameId, hok, rfl⟩ := hactions
    · cases hin
    obtain ⟨state, hstate, hready, henabled, -⟩ := sendEncoded_ok hok
    have hmode := negotiatedMode_of_enabledIn (h.presented.mode state hstate).1 henabled
    have hlater := p.egfx.later_process (p.capture frame encoder' a)
    have havc : encoder'.mode.usesAvc = true := by cases encoder' <;> rfl
    refine ⟨h.unbypassed frame (Or.inr (Or.inr hphase)), h.connected hsender,
      ⟨state, hstate, hready, Or.inr ⟨_, hmode, havc⟩⟩, Or.inr ⟨?_, hlater.sender.trans hsender⟩⟩
    obtain hsame | ⟨-, hsoft⟩ := hlater.encoder
    · simp [hsame, hencoder]
    · simp [hsoft]
  | nothing | ready | closed | updates | release | stopped | go | keep | resize | lose | activate
  | giveUp | stay | comeBack | initialise | surface | noSurface => simp at hin
  | reset | bitmap => split at hin <;> simp at hin

/-- A move is seen at most once. -/
theorem Move.single (hmove : Move cfg p i actions q) : actions = [] ∨ ∃ x, actions = [x] := by
  cases hmove with
  | reset | bitmap =>
    split
    · exact Or.inr ⟨_, rfl⟩
    · exact Or.inl rfl
  | send a frame encoder hardwareDisabled actions hphase hencoder hsender hactions =>
    exact hactions.imp_right fun ⟨_, _, _, hactions⟩ => ⟨_, hactions⟩
  | nothing | updates | release | stopped | go | keep | lose | stay | comeBack | initialise
  | noSurface => exact Or.inl rfl
  | ready | closed | resize | activate | giveUp | surface => exact Or.inr ⟨_, rfl⟩

/-- One move. A bitmap after a frame of a codec takes an input that gives the codec up. -/
theorem unmixed_move (hmove : Move cfg p i actions q) (hkeeps : KeepsAvc cfg p i)
    (h : Unmixed p log) : Unmixed q (log ++ actions) := by
  have hholding := holding_move hmove hkeeps
  refine ⟨steady_move hmove h.steady, ?_, ?_⟩
  · refine supported_append.mpr ⟨h.supported, ?_⟩
    obtain rfl | ⟨x, rfl⟩ := hmove.single
    · exact supported_nil
    · refine supported_singleton.mpr ?_
      cases x with
      | bitmap =>
        rw [List.append_nil]
        refine Bool.eq_false_of_not_eq_true fun havc => ?_
        obtain ⟨size, hreset⟩ | ⟨-, hbitmap⟩ := hholding (h.holding havc)
        · cases hreset
        · exact hbitmap List.mem_cons_self
      | published | activated | gaveUp | resized | coreReset | surface | avc => trivial
  · intro havc
    obtain rfl | ⟨x, rfl⟩ := hmove.single
    · rw [List.append_nil] at havc
      obtain ⟨size, hreset⟩ | ⟨hq, -⟩ := hholding (h.holding havc)
      · cases hreset
      · exact hq
    · rw [after_append] at havc
      cases x with
      | avc => exact h.steady.sent hmove List.mem_cons_self
      | resized | coreReset => cases havc
      | published | activated | gaveUp | surface | bitmap =>
        obtain ⟨size, hreset⟩ | ⟨hq, -⟩ := hholding (h.holding havc)
        · cases hreset
        · exact hq

/-! ### Runs -/

section Runs

variable (cfg : LoopConfig) (attached : Bool) (size : DesktopSize) (now : Instant)

/-- Before the first input nothing has been given. -/
theorem presented_initial (stored : Prop) :
    Presented stored (.initial cfg attached size now) [] where
  supported := supported_nil
  mode := fun _ hstate => by cases hstate
  surface := fun _ _ _ hstate => by cases hstate
  checked := fun _ hframe => by cases hframe

theorem steady_initial : Steady (.initial cfg attached size now) [] where
  presented := presented_initial cfg attached size now False
  connected := fun hsender => by cases hsender
  unbypassed := fun frame hphase => by simp [DisplayLoop.initial] at hphase

/-- By induction on the inputs. -/
theorem steady_of_run (inputs : List LoopInput) :
    Steady ((displayLoop cfg).exec (.initial cfg attached size now) inputs)
      ((displayLoop cfg).trace (.initial cfg attached size now) inputs) :=
  Machine.exec_log (m := displayLoop cfg)
    (fun p i _ hsteady => steady_move (move_step cfg p i) hsteady)
    (steady_initial cfg attached size now) inputs

/-- **Frames over EGFX.** In every run, a frame that is sent over EGFX has the codec of the mode
that was published last. If each surface that was asked for was made and written down, it is on the
one that was made last, after the mode was published, and this has the frame's encoded size and the
size of its visible part. -/
theorem avc_on_surface {inputs : List LoopInput} {before afterwards : List LoopAction}
    {encoder : VideoEncoder} {surface : UInt16} {encoded display : DesktopSize}
    (h : (displayLoop cfg).trace (.initial cfg attached size now) inputs =
      before ++ .avc encoder surface encoded display :: afterwards) :
    (after before).mode = some encoder.mode ∧
      ((displayLoop cfg).Along StoresSurface (.initial cfg attached size now) inputs →
        (after before).surface = some (surface, encoded, display)) := by
  have hrun : ∀ stored : Prop, (displayLoop cfg).Along (fun p i => stored → StoresSurface p i)
      (.initial cfg attached size now) inputs →
      OnSurface stored before (.avc encoder surface encoded display) := by
    intro stored hstores
    have hpresented := Machine.exec_log_along
      (fun p i _ hp hi => presented_move (move_step cfg p i) hi hp)
      (presented_initial cfg attached size now stored) hstores
    rw [List.nil_append, h] at hpresented
    exact hpresented.supported _ _ _ rfl
  have hwithout : (displayLoop cfg).Along (fun p i => False → StoresSurface p i)
      (.initial cfg attached size now) inputs :=
    Machine.along_true.of_invariant (I := fun _ => True) (fun _ _ _ _ => trivial)
      (fun _ _ _ _ => False.elim) trivial
  refine ⟨(hrun False hwithout).1, fun hstores => (hrun True ?_).2 trivial⟩
  exact hstores.of_invariant (I := fun _ => True) (fun _ _ _ _ => trivial)
    (fun _ _ _ hi _ => hi) trivial

/-- All that the loop asks for is granted, and the same frame is captured over and over. -/
def LoopAnswer.granted (now : Instant) : LoopAnswer where
  now := now
  captured := some ⟨[0, 0, 0, 0], 1, 1⟩
  resize := none
  paced := true
  published := true
  hardware := true
  avc444 := true
  avc420 := true
  surface := some 0
  stored := true
  periodicIdrDue := false
  decision := .encodeNow
  encoded := .frame 1 none
  delivery := ⟨some 1, some 0, .ok ()⟩
  fallbackOk := true
  bitmap := true

theorem avc_on_surface_granted :
    let cfg : LoopConfig := ⟨.auto, true, true, false, none⟩
    let inputs := .ready .v10_1 false :: .updates :: List.replicate 10 (.advance (.granted 0))
    (after [.published .avc444 false, .activated 0, .surface 0 (16, 16) (1, 1)]).mode =
        some VideoEncoder.avc444.mode ∧
      ((displayLoop cfg).Along StoresSurface (.initial cfg true (1, 1) 0) inputs →
        (after [.published .avc444 false, .activated 0, .surface 0 (16, 16) (1, 1)]).surface =
          some (0, (16, 16), (1, 1))) :=
  avc_on_surface _ _ _ _ (show _ = _ ++ _ :: ([] : List LoopAction) from rfl)

/-- **No bitmaps after EGFX without a reset.** In every run in which the client confirms AVC only
and does not close its channel between two looks of one iteration, resets have a place in the queue
and there is always an encoder, bitmaps are not sent after frames over EGFX unless the client was
made to reset its graphics in between, by a core reset or a resize. -/
theorem bitmap_after_reset {inputs : List LoopInput} {before afterwards : List LoopAction}
    (hkeeps : (displayLoop cfg).Along (KeepsAvc cfg) (.initial cfg attached size now) inputs)
    (h : (displayLoop cfg).trace (.initial cfg attached size now) inputs =
      before ++ .bitmap :: afterwards) : (after before).avc = false := by
  have hinitial : Unmixed (.initial cfg attached size now) [] :=
    ⟨steady_initial cfg attached size now, supported_nil, fun havc => by cases havc⟩
  have hunmixed := Machine.exec_log_along
    (fun p i _ hp hi => unmixed_move (move_step cfg p i) hi hp) hinitial hkeeps
  rw [List.nil_append, h] at hunmixed
  exact hunmixed.supported _ _ _ rfl

theorem keepsAvc_granted (p : DisplayLoop) (t : Instant) :
    KeepsAvc cfg p (.advance (.granted t)) := by
  refine ⟨fun _ _ _ _ _ _ => rfl, fun _ _ => ?_⟩
  rw [DisplayLoop.newEncoder]
  split_ifs <;> first | rfl | simp_all [LoopAnswer.granted]

theorem bitmap_after_reset_closed :
    (after [.published .avc444 false, .activated 0, .surface 0 (16, 16) (1, 1),
      .avc .avc444 0 (16, 16) (1, 1), .published .bitmap true, .coreReset (1, 1)]).avc = false := by
  have htrace : (displayLoop ⟨.auto, true, true, false, none⟩).trace
      (.initial ⟨.auto, true, true, false, none⟩ true (1, 1) 0)
      (.ready .v10_1 false :: .updates :: List.replicate 10 (.advance (.granted 0)) ++
        .closed false :: List.replicate 9 (.advance (.granted 0))) =
      [.published .avc444 false, .activated 0, .surface 0 (16, 16) (1, 1),
        .avc .avc444 0 (16, 16) (1, 1), .published .bitmap true, .coreReset (1, 1)] ++ [.bitmap] :=
    rfl
  refine bitmap_after_reset _ _ _ _ ?_ htrace
  refine ⟨rfl, trivial, ?_⟩
  iterate 10 refine ⟨keepsAvc_granted _ _ 0, ?_⟩
  refine ⟨fun _ _ => LoopPhase.noConfusion, ?_⟩
  iterate 9 refine ⟨keepsAvc_granted _ _ 0, ?_⟩
  trivial

end Runs

end Graphics

end Cheirizo
