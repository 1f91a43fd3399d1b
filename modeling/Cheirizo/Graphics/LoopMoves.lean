import Cheirizo.Graphics.DisplayLoop

/-!
# What the display loop can do

Every step of the loop, and of what runs beside it, is one of a few moves. Most of them only lead to
the next phase. What a move asks for is part of it, so that an invariant of the loop is checked move
by move.

## Why moves

The loop is one long function that leaves in the middle at many places, and an invariant would have
to be carried through all of them. But at most places nothing is stored and nothing is seen, and
the loop only stands somewhere else afterwards. Those places are `Goes`, and they are one move. What
is left is a move for each place where something is stored or seen, with the conditions under which
the source comes to it, so that no invariant has to look at the source again.

## Main definitions

* `Goes` — what leads from one phase to the next
* `Falls` — what leads to a bitmap
* `Move` — all that can happen

## Main results

* `move_step` — every step is a move
-/

namespace Cheirizo

namespace Graphics

open Fallible

/-! ### Moves -/

/-- From one phase to the next, and nothing else changes. -/
inductive Goes (p : DisplayLoop) : LoopPhase → LoopPhase → Prop
  | idle : Goes p .poll .idle
  | client (frame : VideoFrame) (hwas : p.wasClientActive = true) :
      Goes p (.captured frame) (.pace frame)
  | noClient : Goes p .idle .poll
  | waiting (hwas : p.wasClientActive = true) : Goes p .idle .replay
  | again (frame : VideoFrame) (hcached : p.cached = some frame) : Goes p .replay (.pace frame)
  | nothing : Goes p .replay .poll
  | paced (frame : VideoFrame)
      (hsize : (frame.width, frame.height) = (p.egfx.size.1.toNat, p.egfx.size.2.toNat)) :
      Goes p (.pace frame) (.gate frame)
  | dropped (frame : VideoFrame) : Goes p (.pace frame) .poll
  | held (frame : VideoFrame) : Goes p (.gate frame) .poll
  | passed (frame : VideoFrame) (h : p.bypassed = true ∨ p.isEgfxReady = true) :
      Goes p (.gate frame) (.late frame)
  | looked (frame : VideoFrame) (hbypassed : p.bypassed = true) (hready : p.isEgfxReady = true) :
      Goes p (.late frame) (.lateMode frame)
  | loaded (frame : VideoFrame) :
      Goes p (.late frame) (.reset frame (!p.bypassed && p.needsInit))
  | noReset (frame : VideoFrame) (needsInit : Bool)
      (h : ∀ state, p.handler = some state → state.requiresCoreReset = false) :
      Goes p (.reset frame needsInit) (.mode frame needsInit)
  | avc (frame : VideoFrame) (needsInit : Bool) (mode : NegotiatedEgfxMode)
      (hbypassed : p.bypassed = false) (hmode : p.negotiatedMode = some mode)
      (havc : mode.usesAvc = true) :
      Goes p (.mode frame needsInit) (if needsInit then .initialise frame else .send frame)
  | noMode (frame : VideoFrame) (h : p.bypassed = true ∨ p.negotiatedMode = none) :
      Goes p (.mode frame true) (.caps frame)

/-- A frame goes out as a bitmap: what is changed before it does. -/
inductive Falls (p : DisplayLoop) : DisplayLoop → Prop
  | mode (frame : VideoFrame) (needsInit : Bool) (hphase : p.phase = .mode frame needsInit)
      (hbypassed : p.bypassed = false) (hmode : p.negotiatedMode = some .bitmap) :
      Falls p { p.dropEncoder with bypassed := true, needsInit := false }
  | noMode (frame : VideoFrame) (hphase : p.phase = .mode frame false)
      (h : p.bypassed = true ∨ p.negotiatedMode = none) : Falls p p
  | pending (frame : VideoFrame) (hphase : p.phase = .caps frame) : Falls p p
  | settled (frame : VideoFrame) (hphase : p.phase = .caps frame) :
      Falls p { p with needsInit := false }
  | noEncoder (frame : VideoFrame) (hphase : p.phase = .send frame)
      (h : p.egfx.encoder = none ∨ p.egfx.sender = false) : Falls p p

/-- What an input can do to the loop, and what is seen of it. There is one constructor for each
place where something is stored or seen. -/
inductive Move (cfg : LoopConfig) (p : DisplayLoop) :
    LoopInput → List LoopAction → DisplayLoop → Prop
  | nothing (i : LoopInput) : Move cfg p i [] p
  | ready (cap : CapabilitySet) (hoffers : cfg.offersEgfx = true) :
      Move cfg p (.ready cap false)
        [.published (selectMode cfg.policy (codecSupport cap)) false]
        { p with handler := some (.onReady cfg.policy cap) }
  | closed (hoffers : cfg.offersEgfx = true) :
      Move cfg p (.closed false) [.published .bitmap true]
        { p with handler := some (.bitmapFallback true) }
  | updates : Move cfg p .updates [] p.updates
  | release : Move cfg p .release [] { p with stop := true, clientActive := false }
  | stopped (a : LoopAnswer) :
      Move cfg p (.advance a) [] { p with egfx := { p.egfx with running := false } }
  | go (a : LoopAnswer) (next : LoopPhase) (h : Goes p p.phase next) :
      Move cfg p (.advance a) [] { p with phase := next }
  | keep (a : LoopAnswer) (frame : VideoFrame) (hphase : p.phase = .poll)
      (hcaptured : a.captured = some frame) :
      Move cfg p (.advance a) []
        { p with cached := some frame, firstFrameReceived := true, phase := .captured frame }
  | resize (a : LoopAnswer) (frame : VideoFrame) (size : DesktopSize) (hphase : p.phase = .poll)
      (hcaptured : a.captured = some frame) (hresize : a.resize = some size) :
      Move cfg p (.advance a) [.resized size]
        { p with
          cached := some frame
          firstFrameReceived := true
          phase := .captured frame
          egfx := p.egfx.resize size
          needsInit := true }
  | lose (a : LoopAnswer) (frame : VideoFrame) (hphase : p.phase = .captured frame)
      (hclient : p.clientActive = false) :
      Move cfg p (.advance a) [] { p with wasClientActive := false, phase := .poll }
  | activate (a : LoopAnswer) (next : LoopPhase)
      (hphase : (∃ frame, p.phase = .captured frame ∧ next = .pace frame) ∨
        (p.phase = .idle ∧ next = .replay))
      (hclient : p.clientActive = true) (hwas : p.wasClientActive = false) :
      Move cfg p (.advance a) [.activated a.now] { p.activate a.now with phase := next }
  | giveUp (a : LoopAnswer) (frame : VideoFrame) (hphase : p.phase = .gate frame)
      (hready : p.isEgfxReady = false) (htime : p.sessionStart + seconds 5 < a.now) :
      Move cfg p (.advance a) [.gaveUp a.now] { p with bypassed := true, phase := .late frame }
  | stay (a : LoopAnswer) (frame : VideoFrame) (hphase : p.phase = .lateMode frame) :
      Move cfg p (.advance a) [] ({ p with needsInit := false }.loadNeedsInit frame)
  | comeBack (a : LoopAnswer) (frame : VideoFrame) (hphase : p.phase = .lateMode frame) :
      Move cfg p (.advance a) [] ({ p with bypassed := false }.loadNeedsInit frame)
  | reset (a : LoopAnswer) (frame : VideoFrame) (needsInit : Bool)
      (hphase : p.phase = .reset frame needsInit) (state : HandlerState)
      (hstate : p.handler = some state) (hrequired : state.requiresCoreReset = true) :
      Move cfg p (.advance a) (if a.published then [.coreReset p.egfx.size] else [])
        { p with
          phase := .mode frame needsInit
          handler := some { state with requiresCoreReset := false }
          egfx := p.egfx.coreGraphicsReset a.published }
  | bitmap (a : LoopAnswer) (q : DisplayLoop) (h : Falls p q) :
      Move cfg p (.advance a) (if a.bitmap then [.bitmap] else []) { q with phase := .poll }
  | initialise (a : LoopAnswer) (frame : VideoFrame) (hphase : p.phase = .initialise frame) :
      Move cfg p (.advance a) [] (p.initialise cfg frame a)
  | surface (a : LoopAnswer) (frame : VideoFrame) (surface : UInt16)
      (hphase : p.phase = .surface frame) (hsurface : a.surface = some surface) :
      Move cfg p (.advance a) [.surface surface frame.encodedSize frame.displaySize]
        { p with
          needsInit := false
          phase := .send frame
          handler := if a.stored then
              p.handler.map fun state => { state with primarySurfaceId := some surface }
            else p.handler }
  | noSurface (a : LoopAnswer) (frame : VideoFrame) (hphase : p.phase = .surface frame)
      (hsurface : a.surface = none) :
      Move cfg p (.advance a) [] { p with needsInit := false, phase := .send frame }
  | send (a : LoopAnswer) (frame : VideoFrame) (encoder : VideoEncoder) (hardwareDisabled : Bool)
      (actions : List LoopAction) (hphase : p.phase = .send frame)
      (hencoder : p.egfx.encoder = some encoder) (hsender : p.egfx.sender = true)
      (hactions : actions = [] ∨ ∃ surface frameId,
        p.sendEncoded frame encoder a = .ok (surface, frameId) ∧
          actions = [.avc encoder surface frame.encodedSize frame.displaySize]) :
      Move cfg p (.advance a) actions
        { p with
          egfx := (p.egfx.process (p.capture frame encoder a)).egfx
          hardwareDisabled
          phase := .poll }

variable {cfg : LoopConfig} {p : DisplayLoop}

/-! ### Every step is a move -/

/-- Where the lock is taken nothing is stored, and nothing is told. -/
theorem move_publish {i : LoopInput} {mode : NegotiatedEgfxMode} {state : HandlerState}
    {contended : Bool}
    (h : contended = false → Move cfg p i [.published mode state.requiresCoreReset]
      { p with handler := some state }) :
    Move cfg p i (p.publish mode state contended).2 (p.publish mode state contended).1 := by
  cases contended with
  | true => exact .nothing i
  | false => exact h rfl

/-- The loop goes on with an active client, by way of an activation if it did not know of the
client. -/
theorem move_notice {a : LoopAnswer} {next : LoopPhase} (hgo : Goes p p.phase next ∨
      p.wasClientActive = false)
    (hphase : (∃ frame, p.phase = .captured frame ∧ next = .pace frame) ∨
      (p.phase = .idle ∧ next = .replay)) (hclient : p.clientActive = true) :
    Move cfg p (.advance a) (p.notice next a.now).2 (p.notice next a.now).1 := by
  rw [DisplayLoop.notice]
  split
  · rename_i hwas
    exact .go a next (hgo.resolve_right (by simp [hwas]))
  · rename_i hwas
    exact .activate a next hphase hclient (Bool.eq_false_of_not_eq_true hwas)

/-- The loop stops, waits without a frame or keeps one, and a frame may realise the size asked
for. -/
theorem move_poll (hphase : p.phase = .poll) (a : LoopAnswer) :
    Move cfg p (.advance a) (p.poll a).2 (p.poll a).1 := by
  rw [DisplayLoop.poll]
  split
  · exact .stopped a
  cases hcaptured : a.captured with
  | none => exact .go a _ (hphase ▸ .idle)
  | some frame =>
    dsimp only
    cases hresize : a.resize.filter (DisplayLoop.realizes frame) with
    | none => exact .keep a frame hphase hcaptured
    | some size =>
      exact .resize a frame size hphase hcaptured (Option.filter_eq_some_iff.mp hresize).1

/-- A frame without an active client is dropped. -/
theorem move_captured {frame : VideoFrame} (hphase : p.phase = .captured frame) (a : LoopAnswer) :
    Move cfg p (.advance a) (p.captured frame a).2 (p.captured frame a).1 := by
  rw [DisplayLoop.captured]
  split
  · rename_i hclient
    refine move_notice ?_ (Or.inl ⟨frame, hphase, rfl⟩) hclient
    rw [hphase, ← Bool.not_eq_true, ← imp_iff_or_not]
    exact .client frame
  · rename_i hclient
    exact .lose a frame hphase (Bool.eq_false_of_not_eq_true hclient)

/-- Without a frame the loop may go on to a replay, if a client is active. -/
theorem move_idle (hphase : p.phase = .idle) (a : LoopAnswer) :
    Move cfg p (.advance a) (p.idle a).2 (p.idle a).1 := by
  rw [DisplayLoop.idle]
  split
  · rename_i hclient
    refine move_notice ?_ (Or.inr ⟨hphase, rfl⟩) hclient
    rw [hphase, ← Bool.not_eq_true, ← imp_iff_or_not]
    exact .waiting
  · exact .go a _ (hphase ▸ .noClient)

theorem move_replay (hphase : p.phase = .replay) (a : LoopAnswer) :
    Move cfg p (.advance a) [] p.replay := by
  rw [DisplayLoop.replay]
  split
  · rename_i frame hcached
    split
    · exact .go a (.pace frame) (hphase ▸ .again frame hcached)
    · exact .go a .poll (hphase ▸ .nothing)
  · exact .go a .poll (hphase ▸ .nothing)

/-- A frame goes on only in the size of the path. -/
theorem move_pace {frame : VideoFrame} (hphase : p.phase = .pace frame) (a : LoopAnswer) :
    Move cfg p (.advance a) [] (p.pace frame a) := by
  rw [DisplayLoop.pace]
  split
  · rename_i hsize
    exact .go a _ (hphase ▸ .paced frame hsize.1)
  · exact .go a _ (hphase ▸ .dropped frame)

/-- Until the channel is ready a frame is held back, and after the time limit the loop gives up. -/
theorem move_gate {frame : VideoFrame} (hphase : p.phase = .gate frame) (a : LoopAnswer) :
    Move cfg p (.advance a) (p.gate frame a).2 (p.gate frame a).1 := by
  rw [DisplayLoop.gate]
  split
  · rename_i hready
    rw [Bool.and_eq_true, Bool.not_eq_true', Bool.not_eq_true'] at hready
    split
    · rename_i htime
      rw [Bool.and_eq_true, decide_eq_true_eq] at htime
      exact .giveUp a frame hphase hready.2 htime.2
    · exact .go a _ (hphase ▸ .held frame)
  · rename_i hready
    refine .go a _ (hphase ▸ .passed frame ?_)
    rw [Bool.and_eq_true, Bool.not_eq_true', Bool.not_eq_true', not_and_or] at hready
    exact hready.imp Bool.eq_true_of_not_eq_false Bool.eq_true_of_not_eq_false

theorem move_late {frame : VideoFrame} (hphase : p.phase = .late frame) (a : LoopAnswer) :
    Move cfg p (.advance a) [] (p.late frame) := by
  rw [DisplayLoop.late]
  split
  · rename_i h
    rw [Bool.and_eq_true] at h
    exact .go a _ (hphase ▸ .looked frame h.1 h.2)
  · exact .go a _ (hphase ▸ .loaded frame)

theorem move_lateMode {frame : VideoFrame} (hphase : p.phase = .lateMode frame) (a : LoopAnswer) :
    Move cfg p (.advance a) [] (p.lateMode frame) := by
  rw [DisplayLoop.lateMode]
  split
  · exact .stay a frame hphase
  · exact .comeBack a frame hphase

/-- A reset of the core is done once, since the handler no longer asks for it. -/
theorem move_reset {frame : VideoFrame} {needsInit : Bool}
    (hphase : p.phase = .reset frame needsInit) (a : LoopAnswer) :
    Move cfg p (.advance a) (p.reset frame needsInit a).2 (p.reset frame needsInit a).1 := by
  rw [DisplayLoop.reset]
  dsimp only
  split
  · rename_i state hstate
    split
    · rename_i hrequired
      exact .reset a frame needsInit hphase state hstate hrequired
    · rename_i hrequired
      refine .go a (.mode frame needsInit) (hphase ▸ .noReset frame needsInit fun state' h => ?_)
      obtain rfl := Option.some.inj (hstate.symm.trans h)
      exact Bool.eq_false_of_not_eq_true hrequired
  · rename_i hstate
    refine .go a (.mode frame needsInit) (hphase ▸ .noReset frame needsInit fun state h => ?_)
    cases hstate.symm.trans h

/-- A frame goes on to the encoder, falls to a bitmap, or waits for the capabilities. -/
theorem move_mode {frame : VideoFrame} {needsInit : Bool}
    (hphase : p.phase = .mode frame needsInit) (a : LoopAnswer) :
    Move cfg p (.advance a) (p.mode frame needsInit a).2 (p.mode frame needsInit a).1 := by
  have hnone : p.bypassed = true ∨ p.negotiatedMode = none →
      Move cfg p (.advance a)
        (if needsInit then ({ p with phase := .caps frame }, []) else p.sendBitmap a).2
        (if needsInit then ({ p with phase := .caps frame }, []) else p.sendBitmap a).1 := by
    intro h
    cases needsInit with
    | true => exact .go a _ (hphase ▸ .noMode frame h)
    | false => exact .bitmap a p (.noMode frame hphase h)
  rw [DisplayLoop.mode]
  by_cases hbypassed : p.bypassed = true
  · rw [if_pos hbypassed]
    exact hnone (Or.inl hbypassed)
  · rw [if_neg hbypassed]
    rw [Bool.not_eq_true] at hbypassed
    cases hmode : p.negotiatedMode with
    | none => exact hnone (Or.inr hmode)
    | some mode =>
      cases mode with
      | bitmap => exact .bitmap a _ (.mode frame needsInit hphase hbypassed hmode)
      | avc420 => exact .go a _ (hphase ▸ .avc frame needsInit _ hbypassed hmode rfl)
      | avc444 => exact .go a _ (hphase ▸ .avc frame needsInit _ hbypassed hmode rfl)

/-- In both cases the frame falls to a bitmap; only what is stored differs. -/
theorem move_caps {frame : VideoFrame} (hphase : p.phase = .caps frame) (a : LoopAnswer) :
    Move cfg p (.advance a) (p.caps a).2 (p.caps a).1 := by
  rw [DisplayLoop.caps]
  split
  · exact .bitmap a p (.pending frame hphase)
  · exact .bitmap a _ (.settled frame hphase)

/-- A surface is stored with the handler, if it still is there. -/
theorem move_surface {frame : VideoFrame} (hphase : p.phase = .surface frame) (a : LoopAnswer) :
    Move cfg p (.advance a) (p.createSurface frame a).2 (p.createSurface frame a).1 := by
  rw [DisplayLoop.createSurface]
  cases hsurface : a.surface with
  | none => exact .noSurface a frame hphase hsurface
  | some surface => exact .surface a frame surface hphase hsurface

/-- A frame is encoded and sent, or falls to a bitmap. -/
theorem move_send {frame : VideoFrame} (hphase : p.phase = .send frame) (a : LoopAnswer) :
    Move cfg p (.advance a) (p.send frame a).2 (p.send frame a).1 := by
  rw [DisplayLoop.send]
  cases hencoder : p.egfx.encoder with
  | none => exact .bitmap a p (.noEncoder frame hphase (Or.inl hencoder))
  | some encoder =>
    cases hsender : p.egfx.sender with
    | false => exact .bitmap a p (.noEncoder frame hphase (Or.inr hsender))
    | true =>
      refine .send a frame encoder _ _ hphase hencoder hsender ?_
      dsimp only
      split
      · rename_i regions surface frameId _ hsent
        exact Or.inr ⟨surface, frameId, hsent, rfl⟩
      · exact Or.inl rfl

/-- **Every step is a move.** -/
theorem move_step (cfg : LoopConfig) (p : DisplayLoop) (i : LoopInput) :
    Move cfg p i ((displayLoop cfg).step p i).2 ((displayLoop cfg).step p i).1 := by
  cases i with
  | ready cap contended =>
    simp only [displayLoop]
    split
    · rename_i hoffers
      exact move_publish fun hfree => hfree ▸ .ready cap hoffers
    · exact .nothing _
  | closed contended =>
    simp only [displayLoop]
    split
    · rename_i hoffers
      exact move_publish fun hfree => hfree ▸ .closed hoffers
    · exact .nothing _
  | updates => exact .updates
  | release => exact .release
  | advance a =>
    simp only [displayLoop]
    split
    · rw [DisplayLoop.advance]
      cases hphase : p.phase with
      | poll => exact move_poll hphase a
      | captured frame => exact move_captured hphase a
      | idle => exact move_idle hphase a
      | replay => exact move_replay hphase a
      | pace frame => exact move_pace hphase a
      | gate frame => exact move_gate hphase a
      | late frame => exact move_late hphase a
      | lateMode frame => exact move_lateMode hphase a
      | reset frame needsInit => exact move_reset hphase a
      | mode frame needsInit => exact move_mode hphase a
      | caps frame => exact move_caps hphase a
      | initialise frame => exact .initialise a frame hphase
      | surface frame => exact move_surface hphase a
      | send frame => exact move_send hphase a
    · exact .nothing _

/-! ### What is sent -/

/-- What is published has the codec of an encoder. -/
def VideoEncoder.enabledIn (state : HandlerState) : VideoEncoder → Bool
  | avc420 => state.isAvc420Enabled
  | avc444 => state.isAvc444Enabled
  | hardware => state.isAvc420Enabled

/-- What a frame needs to be sent: a ready handler with the codec of the encoder, and a surface. -/
theorem sendEncoded_ok {frame : VideoFrame} {encoder : VideoEncoder} {a : LoopAnswer}
    {surface : UInt16} {frameId : UInt32}
    (h : p.sendEncoded frame encoder a = .ok (surface, frameId)) :
    ∃ state, p.handler = some state ∧ state.isReady = true ∧ encoder.enabledIn state = true ∧
      state.primarySurfaceId = some surface := by
  cases hencoded : a.encoded with
  | frame main aux =>
    cases encoder with
    | avc420 =>
      simp only [DisplayLoop.sendEncoded, hencoded] at h
      exact sendFrameWithRegions_ok h
    | avc444 =>
      simp only [DisplayLoop.sendEncoded, hencoded] at h
      exact sendAvc444FrameWithRegions_ok h
    | hardware =>
      simp only [DisplayLoop.sendEncoded, hencoded] at h
      exact sendFrameWithRegions_ok h
  | noOutput =>
    simp only [DisplayLoop.sendEncoded, hencoded] at h
    cases h
  | error =>
    simp only [DisplayLoop.sendEncoded, hencoded] at h
    cases h

namespace Egfx

/-- What a frame may do to the path: the hardware encoder is given up, but never the path. -/
structure Later (s s' : Egfx) : Prop where
  size : s'.size = s.size
  sender : s'.sender = s.sender
  encoder : s'.encoder = s.encoder ∨ (s.encoder = some .hardware ∧ s'.encoder = some .avc420)

variable {s s' : Egfx} {c : Capture} {encoder : VideoEncoder}

/-- Only the hardware encoder is given up. -/
theorem later_fallBack (h : s.encoder = some .hardware) (c : Capture) : s.Later (s.fallBack c) := by
  rw [fallBack]
  split
  · exact ⟨rfl, rfl, Or.inr ⟨h, rfl⟩⟩
  · exact ⟨rfl, rfl, Or.inl rfl⟩

theorem later_finish (h : s.encoder = some encoder) (c : Capture)
    (reported : Option (List DamageRegion)) (regions : List DamageRegion) :
    s.Later (s.finish encoder c reported regions).egfx := by
  have hself : s.Later s := ⟨rfl, rfl, Or.inl rfl⟩
  rw [finish]
  split
  · exact hself
  dsimp only
  rw [encodeAndSend]
  split <;> split_ifs <;> first | exact hself | exact later_fallBack (by simp_all) c

theorem accepts_encoder (h : s.accepts c = some encoder) : s.encoder = some encoder := by
  rw [accepts] at h
  split_ifs at h
  exact h

/-- Whatever is made of a frame. -/
theorem later_process (s : Egfx) (c : Capture) : s.Later (s.process c).egfx := by
  obtain ⟨-, hprocess⟩ | ⟨encoder, haccepts, ⟨-, hprocess⟩ | ⟨-, d, -, -, hprocess⟩ |
    ⟨-, d, report, next, -, -, hprocess⟩⟩ := s.process_cases c
  · rw [hprocess]
    exact ⟨rfl, rfl, Or.inl rfl⟩
  · have h := later_finish (s := { s with forceFirstFrame := false }) (accepts_encoder haccepts) c
      none c.frame.full
    rw [hprocess]
    exact ⟨h.size, h.sender, h.encoder⟩
  · rw [hprocess]
    exact ⟨rfl, rfl, Or.inl rfl⟩
  · have h := later_finish (s := { s with forceFirstFrame := false, detector := some next })
      (accepts_encoder haccepts) c (some report) report
    rw [hprocess]
    exact ⟨h.size, h.sender, h.encoder⟩

end Egfx

end Graphics

end Cheirizo
