import Cheirizo.Graphics.FirstPicture

/-!
# When the screen stays black

EGFX is set up when the client is seen, when it is reactivated and when it is resized, and at no
other time. So what was negotiated in between has no effect on what was set up: a client that fell
back to bitmaps is not taken back to EGFX, and a client that confirms its capabilities anew is left
without a surface that its frames could go out on.

The mode is chosen without regard to the encoders there are. If it is AVC444 and the encoder that is
made is of AVC420, each frame is encoded and then refused by the sender, since the client is said to
have AVC444 only.

## Main definitions

* `NoSetUp` — nothing has EGFX set up
* `Settled` — the loop is not about to set it up

## Main results

* `no_avc_after_bitmap` — bitmaps, whatever is negotiated
* `nothing_after_ready` — capabilities that are confirmed anew
* `nothing_without_avc444` — an encoder that does not fit the mode
-/

namespace Cheirizo

namespace Graphics

variable {cfg : LoopConfig} {p q : DisplayLoop} {i : LoopInput} {actions : List LoopAction}

/-! ### No set-up -/

/-- The client is not reactivated, and no resize is realized. -/
def NoSetUp : LoopInput → Prop
  | .updates => False
  | .advance a => a.resize = none
  | _ => True

/-- Behind the look at what is to be set up, nothing is. -/
def LoopPhase.settled : LoopPhase → Bool
  | reset _ needsInit => !needsInit
  | mode _ needsInit => !needsInit
  | initialise _ => false
  | surface _ => false
  | _ => true

/-- Nothing is to be set up, and the client was seen or will not be. -/
structure Settled (p : DisplayLoop) : Prop where
  needsInit : p.needsInit = false
  client : p.wasClientActive = true ∨ p.clientActive = false
  phase : p.phase.settled = true

/-- Without a set-up to be done no phase leads to one. -/
theorem Goes.settled {from' next : LoopPhase} (h : Goes p from' next) (hinit : p.needsInit = false)
    (hfrom : from'.settled = true) : next.settled = true := by
  cases h with
  | idle | client | noClient | waiting | again | nothing | paced | dropped | held | passed
  | looked | noMode => rfl
  | loaded frame => simp [LoopPhase.settled, hinit]
  | noReset frame needsInit hreset => exact hfrom
  | avc frame needsInit mode hbypassed hmode havc =>
    cases needsInit with
    | true => cases hfrom
    | false => rfl

/-- A bitmap has nothing set up. -/
theorem Falls.noSetUp (h : Falls p q) (hinit : p.needsInit = false) :
    q.needsInit = false ∧ q.wasClientActive = p.wasClientActive ∧
      q.clientActive = p.clientActive := by
  cases h with
  | mode | settled => exact ⟨rfl, rfl, rfl⟩
  | noMode | pending | noEncoder => exact ⟨hinit, rfl, rfl⟩

/-- A loop that is settled stays so. -/
theorem settled_move (hmove : Move cfg p i actions q) (hi : NoSetUp i) (h : Settled p) :
    Settled q := by
  obtain ⟨hinit, hclient, hphase⟩ := id h
  cases hmove with
  | nothing => exact h
  | ready | closed | stopped => exact ⟨hinit, hclient, hphase⟩
  | updates => exact hi.elim
  | release => exact ⟨hinit, Or.inr rfl, hphase⟩
  | go a next hgoes => exact ⟨hinit, hclient, hgoes.settled hinit hphase⟩
  | keep | giveUp | send => exact ⟨hinit, hclient, rfl⟩
  | resize a frame size _ _ hresize => cases hresize.symm.trans hi
  | lose a frame _ hactive => exact ⟨hinit, Or.inr hactive, rfl⟩
  | activate a next _ hactive hwas => simp [hactive, hwas] at hclient
  | stay a frame => exact ⟨rfl, hclient, by simp [DisplayLoop.loadNeedsInit, LoopPhase.settled]⟩
  | comeBack a frame =>
    exact ⟨hinit, hclient, by simp [DisplayLoop.loadNeedsInit, LoopPhase.settled, hinit]⟩
  | reset a frame needsInit hat => exact ⟨hinit, hclient, by rw [hat] at hphase; exact hphase⟩
  | bitmap a q hfalls =>
    obtain ⟨hinit', hwas, hactive⟩ := hfalls.noSetUp hinit
    exact ⟨hinit', by rw [hwas, hactive]; exact hclient, rfl⟩
  | initialise _ _ hat | surface _ _ _ hat | noSurface _ _ hat =>
    simp [hat, LoopPhase.settled] at hphase

/-! ### Bitmaps for good -/

/-- A picture is sent over EGFX. -/
def LoopAction.IsAvc : LoopAction → Prop
  | avc _ _ _ _ => True
  | _ => False

/-- One move with no encoder: what is shown is a bitmap. -/
theorem latched_move (hmove : Move cfg p i actions q) (hi : NoSetUp i)
    (h : Settled p ∧ p.egfx.encoder = none) :
    (Settled q ∧ q.egfx.encoder = none) ∧ ∀ x ∈ actions, ¬ x.IsAvc := by
  obtain ⟨hsettled, hencoder⟩ := h
  have hphase := hsettled.phase
  rw [and_assoc]
  refine ⟨settled_move hmove hi hsettled, ?_⟩
  cases hmove with
  | nothing | updates | release | stopped | go | keep | lose | stay | comeBack =>
    exact ⟨hencoder, by simp⟩
  | ready | closed | giveUp => exact ⟨hencoder, by simp [LoopAction.IsAvc]⟩
  | resize | activate => exact ⟨rfl, by simp [LoopAction.IsAvc]⟩
  | reset =>
    refine ⟨rfl, ?_⟩
    split <;> simp [LoopAction.IsAvc]
  | bitmap a q hfalls =>
    constructor
    · cases hfalls with
      | mode => rfl
      | noMode | pending | settled | noEncoder => exact hencoder
    · split <;> simp [LoopAction.IsAvc]
  | send a frame encoder _ _ _ hsome => cases hencoder.symm.trans hsome
  | initialise _ _ hat | surface _ _ _ hat | noSurface _ _ hat =>
    simp [hat, LoopPhase.settled] at hphase

/-! ### No surface -/

/-- A picture, which the client does not have to be shown on a surface that is made. -/
def LoopAction.Shows : LoopAction → Prop
  | avc _ _ _ _ => True
  | bitmap => True
  | _ => False

/-- Nothing has EGFX set up, and the client confirms AVC only, if it confirms anything, and does not
close its channel. -/
def Undisturbed (cfg : LoopConfig) : LoopInput → Prop
  | .ready cap false => (selectMode cfg.policy (codecSupport cap)).usesAvc = true
  | .closed false => False
  | .updates => False
  | .advance a => a.resize = none
  | _ => True

theorem Undisturbed.noSetUp (h : Undisturbed cfg i) : NoSetUp i := by
  cases i with
  | ready | closed | release => trivial
  | updates => exact h
  | advance a => exact h

/-- The graphics are reset only if that is asked for. -/
theorem Move.coreReset (hmove : Move cfg p i actions q) {size : DesktopSize}
    (hin : .coreReset size ∈ actions) :
    ∃ state, p.handler = some state ∧ state.requiresCoreReset = true := by
  cases hmove with
  | reset a frame needsInit hphase state hstate hrequired => exact ⟨state, hstate, hrequired⟩
  | bitmap => split at hin <;> simp at hin
  | send a frame encoder hardwareDisabled actions hphase hencoder hsender hactions =>
    obtain rfl | ⟨surface, frameId, -, rfl⟩ := hactions <;> simp at hin
  | nothing | ready | closed | updates | release | stopped | go | keep | resize | lose | activate
  | giveUp | stay | comeBack | initialise | surface | noSurface => simp at hin

/-- Without a reset the loop holds on to EGFX. -/
theorem DisplayLoop.Holding.move (h : p.Holding) (hmove : Move cfg p i actions q)
    (hkeeps : KeepsAvc cfg p i)
    (hreset : ∀ state, p.handler = some state → state.requiresCoreReset = false) :
    q.Holding ∧ .bitmap ∉ actions := by
  refine (holding_move hmove hkeeps h).resolve_left ?_
  rintro ⟨size, rfl⟩
  obtain ⟨state, hstate, hrequired⟩ := hmove.coreReset List.mem_cons_self
  rw [hreset state hstate] at hrequired
  cases hrequired

/-- EGFX is set up, but there is no surface that anybody knows of. -/
structure Blind (p : DisplayLoop) : Prop where
  settled : Settled p
  holding : p.Holding
  handler : ∀ state, p.handler = some state →
    state.primarySurfaceId = none ∧ state.requiresCoreReset = false

/-- While the loop is blind, the mode keeps a codec. -/
theorem Blind.keepsAvc (h : Blind p) (hi : Undisturbed cfg i) : KeepsAvc cfg p i := by
  cases i with
  | ready cap contended =>
    cases contended with
    | true => trivial
    | false => exact hi
  | closed contended =>
    cases contended with
    | true => trivial
    | false => exact hi.elim
  | updates | release => trivial
  | advance a =>
    constructor
    · intro frame needsInit state _ hstate hrequired
      rw [(h.handler state hstate).2] at hrequired
      cases hrequired
    · intro frame hphase
      have hsettled := h.settled.phase
      simp [hphase, LoopPhase.settled] at hsettled

/-- A frame was just sent over EGFX. -/
theorem Move.sent (hmove : Move cfg p i actions q) {encoder : VideoEncoder} {surface : UInt16}
    {encoded display : DesktopSize} (hin : .avc encoder surface encoded display ∈ actions)
    (hinit : p.needsInit = false) {w : Wait} (hknown : Known cfg w p) :
    Settled q ∧ cfg.offersEgfx = true := by
  cases hmove with
  | send a frame encoder hardwareDisabled actions hphase hencoder hsender hactions =>
    refine ⟨⟨hinit, Or.inl (hknown.client (by rw [hphase]; rfl)), rfl⟩, ?_⟩
    obtain rfl | ⟨surface, frameId, hok, rfl⟩ := hactions
    · cases hin
    · obtain ⟨state, hstate, -⟩ := sendEncoded_ok hok
      exact (hknown.published (by rw [hstate]; rfl)).1
  | nothing | ready | closed | updates | release | stopped | go | keep | resize | lose | activate
  | giveUp | stay | comeBack | initialise | surface | noSurface => simp at hin
  | reset | bitmap => split at hin <;> simp at hin

theorem not_shows (h : .bitmap ∉ actions) (havc : ∀ x ∈ actions, ¬ x.IsAvc) :
    ∀ x ∈ actions, ¬ x.Shows := by
  intro x hx hshows
  cases x with
  | avc => exact havc _ hx trivial
  | bitmap => exact h hx
  | published | activated | gaveUp | resized | coreReset | surface => exact hshows

/-- One move without a surface: nothing is shown. -/
theorem blind_move (hmove : Move cfg p i actions q) (hi : Undisturbed cfg i) (h : Blind p) :
    Blind q ∧ ∀ x ∈ actions, ¬ x.Shows := by
  have hsettled := settled_move hmove hi.noSetUp h.settled
  have hphase := h.settled.phase
  obtain ⟨hholding, hbitmap⟩ := h.holding.move hmove (h.keepsAvc hi)
    fun state hstate => (h.handler state hstate).2
  suffices hnext : (∀ state, q.handler = some state →
      state.primarySurfaceId = none ∧ state.requiresCoreReset = false) ∧
      ∀ x ∈ actions, ¬ x.IsAvc from
    ⟨⟨hsettled, hholding, hnext.1⟩, not_shows hbitmap hnext.2⟩
  cases hmove with
  | nothing | updates | release | stopped | go | keep | lose | stay | comeBack =>
    exact ⟨h.handler, by simp⟩
  | giveUp | resize | activate => exact ⟨h.handler, by simp [LoopAction.IsAvc]⟩
  | ready cap hoffers =>
    refine ⟨fun state hstate => ?_, by simp [LoopAction.IsAvc]⟩
    obtain rfl := Option.some.inj hstate
    exact ⟨rfl, rfl⟩
  | closed => exact hi.elim
  | reset a frame needsInit _ state hstate hrequired =>
    rw [(h.handler state hstate).2] at hrequired
    cases hrequired
  | bitmap a q hfalls => exact (h.holding.not_falls hfalls).elim
  | initialise _ _ hat | surface _ _ _ hat | noSurface _ _ hat =>
    simp [hat, LoopPhase.settled] at hphase
  | send a frame encoder hardwareDisabled actions _ _ _ hactions =>
    refine ⟨h.handler, ?_⟩
    obtain rfl | ⟨surface, frameId, hok, rfl⟩ := hactions
    · simp
    · obtain ⟨state, hstate, -, -, hsurface⟩ := sendEncoded_ok hok
      rw [(h.handler state hstate).1] at hsurface
      cases hsurface

/-! ### An encoder that does not fit -/

/-- EGFX is ready in time, the mode is AVC444, the client does not close its channel, and there is
always an encoder, but never one of AVC444. -/
def WithoutAvc444 (cfg : LoopConfig) (p : DisplayLoop) : LoopInput → Prop
  | .ready cap false => selectMode cfg.policy (codecSupport cap) = .avc444
  | .closed false => False
  | .advance a =>
    (∀ frame, p.phase = .gate frame → p.isEgfxReady = false →
      a.now ≤ p.sessionStart + seconds 5) ∧
    ∀ frame, p.phase = .initialise frame →
      ∃ encoder, p.newEncoder cfg a = some encoder ∧ encoder ≠ .avc444
  | _ => True

/-- EGFX was not ready so far. -/
structure Waiting (p : DisplayLoop) : Prop where
  gfxServer : p.gfxServer = true
  handler : p.handler = none
  bypassed : p.bypassed = false
  needsInit : p.needsInit = true
  encoder : p.egfx.encoder = none
  phase : p.phase.passedGate = false

/-- The mode is AVC444, and the encoder is not. -/
structure Dark (p : DisplayLoop) : Prop where
  holding : p.Holding
  handler : ∀ state, p.handler = some state →
    state.Consistent ∧ state.negotiatedMode = some .avc444 ∧ state.requiresCoreReset = false
  encoder : p.egfx.encoder ≠ some .avc444

/-- Before the gate, a set-up that is needed is not forgotten. -/
theorem stays_of_needsInit (hinit : p.needsInit = true) {phase : LoopPhase}
    (hphase : phase.passedGate = false) : p.Stays phase := by
  cases phase with
  | poll | captured | idle | replay | pace | gate => exact Or.inl hinit
  | late | lateMode | reset | mode | caps | initialise | surface | send => cases hphase

/-- Frames are held back at the gate. -/
theorem Goes.held_back {from' next : LoopPhase} (h : Goes p from' next)
    (hbypassed : p.bypassed = false) (hready : p.isEgfxReady = false)
    (hfrom : from'.passedGate = false) : next.passedGate = false := by
  cases h with
  | idle | client | noClient | waiting | again | nothing | paced | dropped | held => rfl
  | passed frame hpassed => simp [hbypassed, hready] at hpassed
  | looked | loaded | noReset | avc | noMode => cases hfrom

/-- One move before the set-up, which makes an encoder that does not fit. -/
theorem waiting_move (hmove : Move cfg p i actions q) (hi : WithoutAvc444 cfg p i)
    (h : Waiting p) : (Waiting q ∨ Dark q) ∧ ∀ x ∈ actions, ¬ x.Shows := by
  obtain ⟨hgfx, hhandler, hbypassed, hinit, hencoder, hphase⟩ := id h
  have hready : p.isEgfxReady = false := by simp [DisplayLoop.isEgfxReady, hhandler]
  have hnone : ∀ x ∈ ([] : List LoopAction), ¬ x.Shows := by simp
  cases hmove with
  | nothing => exact ⟨Or.inl h, hnone⟩
  | ready cap hoffers =>
    refine ⟨Or.inr ⟨⟨hbypassed, hgfx, ⟨_, rfl, rfl, Or.inr ⟨_, rfl, ?_⟩⟩, ?_⟩, ?_, ?_⟩,
      by simp [LoopAction.Shows]⟩
    · rw [hi]
      rfl
    · apply stays_of_needsInit
      · exact hinit
      · exact hphase
    · intro state hstate
      obtain rfl := Option.some.inj hstate
      exact ⟨consistent_onReady _ _, congrArg some hi, rfl⟩
    · simp [hencoder]
  | closed => exact hi.elim
  | updates =>
    refine ⟨Or.inl ⟨hgfx, hhandler, hbypassed, ?_, hencoder, hphase⟩, hnone⟩
    simp [DisplayLoop.updates, hinit]
  | release | stopped => exact ⟨Or.inl ⟨hgfx, hhandler, hbypassed, hinit, hencoder, hphase⟩, hnone⟩
  | go a next hgoes =>
    exact ⟨Or.inl ⟨hgfx, hhandler, hbypassed, hinit, hencoder,
      hgoes.held_back hbypassed hready hphase⟩, hnone⟩
  | keep => exact ⟨Or.inl ⟨hgfx, hhandler, hbypassed, hinit, hencoder, rfl⟩, hnone⟩
  | resize => exact ⟨Or.inl ⟨hgfx, hhandler, hbypassed, rfl, rfl, rfl⟩, by simp [LoopAction.Shows]⟩
  | lose => exact ⟨Or.inl ⟨hgfx, hhandler, hbypassed, hinit, hencoder, rfl⟩, hnone⟩
  | activate a next hat =>
    refine ⟨Or.inl ⟨hgfx, hhandler, rfl, rfl, rfl, ?_⟩, by simp [LoopAction.Shows]⟩
    obtain ⟨frame, -, rfl⟩ | ⟨-, rfl⟩ := hat <;> rfl
  | giveUp a frame hat hready htime => exact absurd htime (hi.1 frame hat hready).not_gt
  | bitmap a q hfalls =>
    cases hfalls with
    | mode _ _ hat | noMode _ hat | pending _ hat | settled _ hat | noEncoder _ hat =>
      simp [hat, LoopPhase.passedGate] at hphase
  | stay _ _ hat | comeBack _ _ hat | reset _ _ _ hat | initialise _ _ hat
  | surface _ _ _ hat | noSurface _ _ hat | send _ _ _ _ _ hat =>
    simp [hat, LoopPhase.passedGate] at hphase

/-- While the loop is dark, the mode keeps a codec. -/
theorem Dark.keepsAvc (h : Dark p) (hi : WithoutAvc444 cfg p i) : KeepsAvc cfg p i := by
  cases i with
  | ready cap contended =>
    cases contended with
    | true => trivial
    | false => exact congrArg NegotiatedEgfxMode.usesAvc hi
  | closed contended =>
    cases contended with
    | true => trivial
    | false => exact hi.elim
  | updates | release => trivial
  | advance a =>
    constructor
    · intro frame needsInit state _ hstate hrequired
      rw [(h.handler state hstate).2.2] at hrequired
      cases hrequired
    · intro frame hphase
      obtain ⟨encoder, hencoder, -⟩ := hi.2 frame hphase
      rw [hencoder]
      rfl

/-- One move with an encoder that does not fit: nothing is shown. -/
theorem dark_move (hmove : Move cfg p i actions q) (hi : WithoutAvc444 cfg p i) (h : Dark p) :
    Dark q ∧ ∀ x ∈ actions, ¬ x.Shows := by
  obtain ⟨hholding, hbitmap⟩ := h.holding.move hmove (h.keepsAvc hi)
    fun state hstate => (h.handler state hstate).2.2
  suffices hnext : ((∀ state, q.handler = some state → state.Consistent ∧
      state.negotiatedMode = some .avc444 ∧ state.requiresCoreReset = false) ∧
      q.egfx.encoder ≠ some .avc444) ∧ ∀ x ∈ actions, ¬ x.IsAvc from
    ⟨⟨hholding, hnext.1.1, hnext.1.2⟩, not_shows hbitmap hnext.2⟩
  cases hmove with
  | nothing | updates | release | stopped | go | keep | lose | stay | comeBack | noSurface =>
    exact ⟨⟨h.handler, h.encoder⟩, by simp⟩
  | giveUp => exact ⟨⟨h.handler, h.encoder⟩, by simp [LoopAction.IsAvc]⟩
  | resize | activate =>
    exact ⟨⟨h.handler, fun hencoder => by cases hencoder⟩, by simp [LoopAction.IsAvc]⟩
  | ready cap hoffers =>
    refine ⟨⟨fun state hstate => ?_, h.encoder⟩, by simp [LoopAction.IsAvc]⟩
    obtain rfl := Option.some.inj hstate
    exact ⟨consistent_onReady _ _, congrArg some hi, rfl⟩
  | closed => exact hi.elim
  | reset a frame needsInit _ state hstate hrequired =>
    rw [(h.handler state hstate).2.2] at hrequired
    cases hrequired
  | bitmap a q hfalls => exact (h.holding.not_falls hfalls).elim
  | initialise a frame hphase =>
    obtain ⟨encoder, hencoder, hne⟩ := hi.2 frame hphase
    refine ⟨⟨h.handler, ?_⟩, by simp⟩
    simpa [DisplayLoop.initialise, Egfx.initialise, hencoder] using hne
  | surface a frame surface hphase hsurface =>
    refine ⟨⟨fun state hstate => ?_, h.encoder⟩, by simp [LoopAction.IsAvc]⟩
    dsimp only at hstate
    split at hstate
    · obtain ⟨state', hstate', rfl⟩ := Option.map_eq_some_iff.mp hstate
      obtain ⟨hconsistent, hmode, hreset⟩ := h.handler state' hstate'
      exact ⟨⟨hconsistent.avc420, hconsistent.avc444⟩, hmode, hreset⟩
    · exact h.handler state hstate
  | send a frame encoder hardwareDisabled actions _ hencoder _ hactions =>
    have hne : encoder ≠ .avc444 := fun heq => h.encoder (heq ▸ hencoder)
    refine ⟨⟨h.handler, ?_⟩, ?_⟩
    · obtain hsame | ⟨-, hsoft⟩ := (p.egfx.later_process (p.capture frame encoder a)).encoder
      · simpa [hsame, hencoder] using hne
      · simp [hsoft]
    · obtain rfl | ⟨surface, frameId, hok, rfl⟩ := hactions
      · simp
      · obtain ⟨state, hstate, -, henabled, -⟩ := sendEncoded_ok hok
        obtain ⟨hconsistent, hmode, -⟩ := h.handler state hstate
        rw [negotiatedMode_of_enabledIn hconsistent henabled] at hmode
        cases encoder with
        | avc420 | hardware => cases hmode
        | avc444 => exact absurd rfl hne

theorem startsInBitmapMode_of_offersEgfx (h : cfg.offersEgfx = true) :
    cfg.startsInBitmapMode = false := by
  rw [LoopConfig.offersEgfx, Bool.and_eq_true, decide_eq_true_eq] at h
  obtain ⟨henabled, hpolicy⟩ := h
  have hcodec : cfg.codec ≠ .bitmap := by
    rintro hcodec
    simp [LoopConfig.policy, effectiveCodecPolicy, hcodec] at hpolicy
  simp [LoopConfig.startsInBitmapMode, henabled, hcodec]

/-! ### Runs -/

section Runs

variable (cfg : LoopConfig) (attached : Bool) (size : DesktopSize) (now : Instant)

/-- The loop looks at the mode, which is that of bitmaps. -/
def DisplayLoop.TakesBitmaps (p : DisplayLoop) : Prop :=
  p.egfx.running = true ∧ p.bypassed = false ∧ p.negotiatedMode = some .bitmap ∧
    ∃ frame needsInit, p.phase = .mode frame needsInit

/-- **Bitmaps for good.** In every run, once the loop has taken a frame in bitmap mode, no frame is
sent over EGFX, whatever is negotiated later, until the client is reactivated or resized. -/
theorem no_avc_after_bitmap {inputs inputs' : List LoopInput} {a : LoopAnswer}
    (h : ((displayLoop cfg).exec (.initial cfg attached size now) inputs).TakesBitmaps)
    (hquiet : ∀ i ∈ inputs', NoSetUp i) :
    ∀ x ∈ (displayLoop cfg).trace
        ((displayLoop cfg).exec (.initial cfg attached size now) inputs) (.advance a :: inputs'),
      ¬ x.IsAvc := by
  have hknown := (timely_of_run cfg attached size now inputs).known
  generalize (displayLoop cfg).exec (.initial cfg attached size now) inputs = p at h hknown ⊢
  obtain ⟨hrunning, hbypassed, hmode, frame, needsInit, hphase⟩ := h
  have hwas := hknown.client (by rw [hphase]; rfl)
  have hstep : (displayLoop cfg).step p (.advance a) =
      { p.dropEncoder with bypassed := true, needsInit := false }.sendBitmap a := by
    simp [displayLoop, DisplayLoop.advance, DisplayLoop.mode, hrunning, hphase, hbypassed, hmode]
  have hlatched := (Machine.forall_trace (m := displayLoop cfg)
    (fun p i h hi => latched_move (move_step cfg p i) hi h)
    (s := ((displayLoop cfg).step p (.advance a)).1) (by
      rw [hstep]
      exact ⟨⟨rfl, Or.inl hwas, rfl⟩, rfl⟩) (Machine.along_of_forall hquiet)).2
  rw [Machine.trace_cons]
  refine List.forall_mem_append.mpr ⟨?_, hlatched⟩
  rw [hstep]
  simp only [DisplayLoop.sendBitmap]
  split <;> simp [LoopAction.IsAvc]

theorem noSetUp_granted {n : ℕ} (hi : i ∈ List.replicate n (.advance (.granted 0))) :
    NoSetUp i := by
  rw [List.eq_of_mem_replicate hi]
  rfl

theorem no_avc_after_bitmap_v8 :
    NoSetUp (.advance (.granted 0)) ∧
      ∀ x ∈ (displayLoop ⟨.auto, true, true, false, none⟩).trace
          ((displayLoop ⟨.auto, true, true, false, none⟩).exec
            (.initial ⟨.auto, true, true, false, none⟩ true (1, 1) 0)
            (.ready .v8 false :: .updates :: List.replicate 6 (.advance (.granted 0))))
          (.advance (.granted 0) :: .ready .v10_1 false ::
            List.replicate 100 (.advance (.granted 0))), ¬ x.IsAvc :=
  ⟨rfl, no_avc_after_bitmap _ _ _ _ ⟨rfl, rfl, rfl, _, _, rfl⟩
    (List.forall_mem_cons.mpr ⟨trivial, fun _ => noSetUp_granted⟩)⟩

/-- **Nothing is shown after capabilities that are confirmed anew.** In every run, if the client
confirms AVC capabilities once more right after a frame over EGFX, and EGFX is not about to be set
up, nothing is sent to it until it is reactivated or resized, closes its channel, or confirms
capabilities without AVC: with these the loop falls back to bitmaps. -/
theorem nothing_after_ready {inputs inputs' : List LoopInput} {i : LoopInput} {cap : CapabilitySet}
    {encoder : VideoEncoder} {surface : UInt16} {encoded display : DesktopSize}
    (hsent : .avc encoder surface encoded display ∈ ((displayLoop cfg).step
      ((displayLoop cfg).exec (.initial cfg attached size now) inputs) i).2)
    (hinit : ((displayLoop cfg).exec (.initial cfg attached size now) inputs).needsInit = false)
    (hcap : (selectMode cfg.policy (codecSupport cap)).usesAvc = true)
    (hquiet : ∀ i ∈ inputs', Undisturbed cfg i) :
    ∀ x ∈ (displayLoop cfg).trace ((displayLoop cfg).exec (.initial cfg attached size now)
        (inputs ++ [i])) (.ready cap false :: inputs'), ¬ x.Shows := by
  have hsteady := steady_of_run cfg attached size now inputs
  have hknown := (timely_of_run cfg attached size now inputs).known
  rw [Machine.exec_append]
  generalize (displayLoop cfg).exec (.initial cfg attached size now) inputs = p at *
  have hmove := move_step cfg p i
  obtain ⟨hsettled, hoffers⟩ := hmove.sent hsent hinit hknown
  have hholding := hsteady.sent hmove hsent
  rw [Machine.exec_cons, Machine.exec_nil]
  generalize ((displayLoop cfg).step p i).1 = q at hsettled hholding ⊢
  have hstep : (displayLoop cfg).step q (.ready cap false) =
      ({ q with handler := some (.onReady cfg.policy cap) },
        [.published (selectMode cfg.policy (codecSupport cap)) false]) := by
    simp [displayLoop, hoffers, DisplayLoop.publish, HandlerState.onReady]
  have hready := move_step cfg q (.ready cap false)
  rw [hstep] at hready
  have hblind : Blind { q with handler := some (.onReady cfg.policy cap) } := by
    refine ⟨settled_move hready trivial hsettled, ?_, fun state hstate => ?_⟩
    · obtain ⟨size, hreset⟩ | ⟨hnext, -⟩ := holding_move hready hcap hholding
      · cases hreset
      · exact hnext
    · obtain rfl := Option.some.inj hstate
      exact ⟨rfl, rfl⟩
  rw [Machine.trace_cons, hstep]
  exact List.forall_mem_append.mpr ⟨by simp [LoopAction.Shows],
    (Machine.forall_trace (m := displayLoop cfg)
      (fun p i h hi => blind_move (move_step cfg p i) hi h) hblind
      (Machine.along_of_forall hquiet)).2⟩

theorem nothing_after_ready_again :
    Undisturbed ⟨.auto, true, true, false, none⟩ (.advance (.granted 0)) ∧
      ∀ x ∈ (displayLoop ⟨.auto, true, true, false, none⟩).trace
          ((displayLoop ⟨.auto, true, true, false, none⟩).exec
            (.initial ⟨.auto, true, true, false, none⟩ true (1, 1) 0)
            (.ready .v10_1 false :: .updates :: List.replicate 9 (.advance (.granted 0)) ++
              [.advance (.granted 0)]))
          (.ready .v10_1 false :: List.replicate 100 (.advance (.granted 0))), ¬ x.Shows := by
  refine ⟨rfl, nothing_after_ready _ _ _ _
    (show LoopAction.avc .avc444 0 (16, 16) (1, 1) ∈ _ from List.mem_cons_self)
    rfl rfl fun i hi => ?_⟩
  rw [List.eq_of_mem_replicate hi]
  rfl

/-- **Nothing is shown without an encoder of the mode.** In every run in which EGFX is ready in time
and in mode AVC444, the client does not close its channel, and an encoder is made at each set-up and
is of AVC420, as it is if AVC444 is disabled in the configuration or it is in hardware, no picture
is sent. -/
theorem nothing_without_avc444 (hoffers : cfg.offersEgfx = true) {inputs : List LoopInput}
    (h : (displayLoop cfg).Along (WithoutAvc444 cfg) (.initial cfg true size now) inputs) :
    ∀ x ∈ (displayLoop cfg).trace (.initial cfg true size now) inputs, ¬ x.Shows := by
  have hstarts := startsInBitmapMode_of_offersEgfx hoffers
  refine (Machine.forall_trace (m := displayLoop cfg) (I := fun p => Waiting p ∨ Dark p) ?_ ?_ h).2
  · rintro p i (hwaiting | hdark) hi
    · exact waiting_move (move_step cfg p i) hi hwaiting
    · exact (dark_move (move_step cfg p i) hi hdark).imp_left Or.inr
  · exact Or.inl ⟨by simp [DisplayLoop.initial, hoffers], rfl, hstarts, rfl, rfl, rfl⟩

theorem withoutAvc444_granted (p : DisplayLoop) :
    WithoutAvc444 ⟨.auto, true, false, false, none⟩ p (.advance (.granted 0)) :=
  ⟨fun _ _ _ => Nat.zero_le _, fun _ _ => ⟨.avc420, rfl, VideoEncoder.noConfusion⟩⟩

theorem nothing_without_avc444_disabled :
    LoopConfig.offersEgfx ⟨.auto, true, false, false, none⟩ = true ∧
      ∀ x ∈ (displayLoop ⟨.auto, true, false, false, none⟩).trace
          (.initial ⟨.auto, true, false, false, none⟩ true (1, 1) 0)
          (.updates :: .ready .v10_1 false :: List.replicate 100 (.advance (.granted 0))),
        ¬ x.Shows := by
  refine ⟨rfl, nothing_without_avc444 _ _ _ rfl ⟨trivial, rfl, ?_⟩⟩
  refine Machine.Along.of_invariant (I := fun _ => True)
    (C := fun _ i => i = .advance (.granted 0)) (fun _ _ _ _ => trivial)
    (fun p i _ hi => ?_) trivial
    (Machine.along_of_forall fun i hi => List.eq_of_mem_replicate hi)
  rw [hi]
  exact withoutAvc444_granted p

end Runs

end Graphics

end Cheirizo
