import Cheirizo.Graphics.ClientView

/-!
# The first picture

A client is shown nothing before EGFX is ready, or was waited for five seconds. The loop that starts
in bitmap mode does not wait; but it starts when nobody is there yet, and when somebody comes it
begins anew, in the same way whatever it is configured for.

It begins anew without the frames from before, too. A desktop that does not change gives no others,
so that a first client is not shown anything until it does.

## Main definitions

* `waited` — what a client was made to wait for

## Main results

* `picture_after_wait` — what comes before a picture
* `no_picture_without_capture` — a desktop that does not change
-/

namespace Cheirizo

namespace Graphics

variable {cfg : LoopConfig} {p q : DisplayLoop} {i : LoopInput} {log actions : List LoopAction}

/-- When the client was seen, when EGFX was given up for it, and whether a mode was published. -/
structure Wait where
  activated : Option Instant
  gaveUp : Option Instant
  published : Bool

/-- A client that becomes active waits anew. -/
def Wait.see (w : Wait) : LoopAction → Wait
  | .published _ _ => { w with published := true }
  | .activated now => { w with activated := some now, gaveUp := none }
  | .gaveUp now => { w with gaveUp := some now }
  | .resized _ => w
  | .coreReset _ => w
  | .surface _ _ _ => w
  | .avc _ _ _ _ => w
  | .bitmap => w

/-- How long the client has waited, after all that was logged. -/
def waited (log : List LoopAction) : Wait := log.foldl Wait.see ⟨none, none, false⟩

/-- What a client was made to wait for is read off the log from its end. -/
theorem waited_append (log actions : List LoopAction) :
    waited (log ++ actions) = actions.foldl Wait.see (waited log) :=
  List.foldl_append

/-- What is for the client to see. -/
def LoopAction.IsPicture : LoopAction → Prop
  | surface _ _ _ => True
  | avc _ _ _ _ => True
  | bitmap => True
  | _ => False

/-- What is no picture needs no wait. -/
theorem no_picture {x : LoopAction} {P : Prop} (hx : ¬ x.IsPicture) :
    ∀ y ∈ [x], y.IsPicture → P := by
  intro y hy hpicture
  rw [List.mem_singleton.mp hy] at hpicture
  exact absurd hpicture hx

/-- The client was seen, and a mode was published, or EGFX given up for it after five seconds. -/
def Wait.Over (cfg : LoopConfig) (w : Wait) : Prop :=
  ∃ start, w.activated = some start ∧
    ((cfg.offersEgfx = true ∧ w.published = true) ∨
      ∃ now, w.gaveUp = some now ∧ start + seconds 5 < now)

namespace LoopPhase

/-- Here the loop knows that there is a client. -/
def withClient : LoopPhase → Bool
  | poll => false
  | captured _ => false
  | idle => false
  | _ => true

/-- The frame was not held back. -/
def passedGate : LoopPhase → Bool
  | poll => false
  | captured _ => false
  | idle => false
  | replay => false
  | pace _ => false
  | gate _ => false
  | _ => true

theorem withClient_of_passedGate {phase : LoopPhase} (h : phase.passedGate = true) :
    phase.withClient = true := by
  cases phase <;> first | rfl | cases h

/-- Where there is no client, the loop polls or idles. -/
theorem poll_or_idle {phase : LoopPhase} (h : phase.withClient = false)
    (hcaptured : ∀ frame, phase ≠ .captured frame) : phase = .poll ∨ phase = .idle := by
  cases phase with
  | poll => exact Or.inl rfl
  | idle => exact Or.inr rfl
  | captured frame => exact absurd rfl (hcaptured frame)
  | replay | pace | gate | late | lateMode | reset | mode | caps | initialise | surface | send =>
    cases h

end LoopPhase

/-- What the loop knows about the wait. -/
structure Known (cfg : LoopConfig) (w : Wait) (p : DisplayLoop) : Prop where
  published : p.handler.isSome = true → cfg.offersEgfx = true ∧ w.published = true
  activated : p.wasClientActive = true → w.activated = some p.sessionStart
  bypassed : p.wasClientActive = true → p.bypassed = true → w.Over cfg
  client : p.phase.withClient = true → p.wasClientActive = true
  passed : p.phase.passedGate = true → w.Over cfg

variable {w : Wait}

/-- A wait that is over stays over when a mode is published. -/
theorem Wait.Over.publish (h : w.Over cfg) : Wait.Over cfg { w with published := true } := by
  obtain ⟨start, hstart, hover⟩ := h
  exact ⟨start, hstart, hover.imp_left fun h => ⟨h.1, rfl⟩⟩

/-- EGFX is ready. -/
theorem Known.ready (h : Known cfg w p) (hwas : p.wasClientActive = true)
    (hready : p.isEgfxReady = true) : w.Over cfg := by
  refine ⟨p.sessionStart, h.activated hwas, Or.inl (h.published ?_)⟩
  rw [DisplayLoop.isEgfxReady, Bool.and_eq_true] at hready
  exact Option.isSome_of_any hready.2

theorem Known.publish (h : Known cfg w p) (hoffers : cfg.offersEgfx = true) (state : HandlerState) :
    Known cfg { w with published := true } { p with handler := some state } where
  published := fun _ => ⟨hoffers, rfl⟩
  activated := h.activated
  bypassed := fun hwas hbypassed => (h.bypassed hwas hbypassed).publish
  client := h.client
  passed := fun hpassed => (h.passed hpassed).publish

/-- Between two frames there is less to be known. -/
theorem Known.between (hpublished : p.handler.isSome = true →
      cfg.offersEgfx = true ∧ w.published = true)
    (hactivated : p.wasClientActive = true → w.activated = some p.sessionStart)
    (hbypassed : p.wasClientActive = true → p.bypassed = true → w.Over cfg)
    (hphase : p.phase.withClient = false) : Known cfg w p where
  published := hpublished
  activated := hactivated
  bypassed := hbypassed
  client := fun hclient => absurd hclient (by simp [hphase])
  passed := fun hover => absurd (LoopPhase.withClient_of_passedGate hover) (by simp [hphase])

/-- In another phase the loop knows no less. -/
theorem Known.phase (h : Known cfg w p) {next : LoopPhase}
    (hclient : next.withClient = true → p.wasClientActive = true)
    (hover : next.passedGate = true → w.Over cfg) : Known cfg w { p with phase := next } where
  published := h.published
  activated := h.activated
  bypassed := h.bypassed
  client := hclient
  passed := hover

/-- What is known stays so from phase to phase. -/
theorem Known.goes (h : Known cfg w p) {next : LoopPhase} (hgoes : Goes p p.phase next) :
    Known cfg w { p with phase := next } := by
  have hclient := h.client
  have hover := h.passed
  generalize p.phase = phase at hgoes hclient hover
  cases hgoes with
  | idle | noClient | nothing | dropped | held =>
    exact .between h.published h.activated h.bypassed rfl
  | client frame hwas => exact h.phase (fun _ => hwas) fun hnext => by cases hnext
  | waiting hwas => exact h.phase (fun _ => hwas) fun hnext => by cases hnext
  | again | paced => exact h.phase (fun _ => hclient rfl) fun hnext => by cases hnext
  | passed frame hready =>
    exact h.phase (fun _ => hclient rfl) fun _ =>
      hready.elim (h.bypassed (hclient rfl)) (h.ready (hclient rfl))
  | looked | loaded | noReset | avc | noMode =>
    exact h.phase (fun _ => hclient rfl) fun _ => hover rfl

/-- A bitmap comes after the wait. -/
theorem Known.falls (h : Known cfg w p) (hfalls : Falls p q) :
    w.Over cfg ∧ Known cfg w { q with phase := .poll } := by
  have hpassed : p.phase.passedGate = true := by
    cases hfalls with
    | mode frame needsInit hphase | noMode frame hphase | pending frame hphase
    | settled frame hphase | noEncoder frame hphase => rw [hphase]; rfl
  refine ⟨h.passed hpassed, ?_⟩
  cases hfalls with
  | mode | noMode | pending | settled | noEncoder =>
    exact .between h.published h.activated (fun _ _ => h.passed hpassed) rfl

/-- Nothing is shown before the wait is over. -/
theorem known_move (hmove : Move cfg p i actions q) (h : Known cfg w p) :
    (∀ x ∈ actions, x.IsPicture → w.Over cfg) ∧ Known cfg (actions.foldl Wait.see w) q := by
  have hnone : ∀ x ∈ ([] : List LoopAction), x.IsPicture → w.Over cfg := by simp
  cases hmove with
  | nothing => exact ⟨hnone, h⟩
  | ready cap hoffers => exact ⟨no_picture id, h.publish hoffers _⟩
  | closed hoffers => exact ⟨no_picture id, h.publish hoffers _⟩
  | updates | release | stopped =>
    exact ⟨hnone, h.published, h.activated, h.bypassed, h.client, h.passed⟩
  | go a next hgoes => exact ⟨hnone, h.goes hgoes⟩
  | keep a frame hphase hcaptured =>
    exact ⟨hnone, .between h.published h.activated h.bypassed rfl⟩
  | resize a frame size hphase hcaptured hresize =>
    exact ⟨no_picture id, .between h.published h.activated h.bypassed rfl⟩
  | lose a frame hphase hclient =>
    exact ⟨hnone, .between h.published (fun hwas => by cases hwas) (fun hwas => by cases hwas) rfl⟩
  | activate a next hphase hclient hwas =>
    refine ⟨no_picture id, h.published, fun _ => rfl,
      fun _ hbypassed => ?_, fun _ => ?_, fun hnext => ?_⟩
    · cases hbypassed
    · rfl
    · obtain ⟨frame, -, rfl⟩ | ⟨-, rfl⟩ := hphase <;> cases hnext
  | giveUp a frame hphase hready htime =>
    have hwas := h.client (by rw [hphase]; rfl)
    have hover : Wait.Over cfg { w with gaveUp := some a.now } :=
      ⟨p.sessionStart, h.activated hwas, Or.inr ⟨a.now, rfl, htime⟩⟩
    exact ⟨no_picture id, h.published, h.activated, fun _ _ => hover,
      fun _ => hwas, fun _ => hover⟩
  | stay a frame hphase =>
    have hwas := h.client (by rw [hphase]; rfl)
    exact ⟨hnone, h.published, h.activated, h.bypassed, fun _ => hwas,
      fun _ => h.passed (by rw [hphase]; rfl)⟩
  | comeBack a frame hphase =>
    have hwas := h.client (by rw [hphase]; rfl)
    exact ⟨hnone, h.published, h.activated, fun _ hbypassed => (by cases hbypassed), fun _ => hwas,
      fun _ => h.passed (by rw [hphase]; rfl)⟩
  | reset a frame needsInit hphase state hstate hrequired =>
    have hwas := h.client (by rw [hphase]; rfl)
    have hmode : Known cfg w
        { p with
          phase := .mode frame needsInit
          handler := some { state with requiresCoreReset := false }
          egfx := p.egfx.coreGraphicsReset a.published } :=
      ⟨fun _ => h.published (by rw [hstate]; rfl), h.activated, h.bypassed, fun _ => hwas,
        fun _ => h.passed (by rw [hphase]; rfl)⟩
    split
    · exact ⟨no_picture id, hmode⟩
    · exact ⟨hnone, hmode⟩
  | bitmap a q hfalls =>
    obtain ⟨hover, hnext⟩ := h.falls hfalls
    refine ⟨fun _ _ _ => hover, ?_⟩
    split
    · exact hnext
    · exact hnext
  | initialise a frame hphase =>
    have hwas := h.client (by rw [hphase]; rfl)
    have hover := h.passed (by rw [hphase]; rfl)
    exact ⟨hnone, h.published, h.activated, h.bypassed, fun _ => hwas, fun _ => hover⟩
  | surface a frame surface hphase hsurface =>
    have hwas := h.client (by rw [hphase]; rfl)
    have hover := h.passed (by rw [hphase]; rfl)
    refine ⟨fun _ _ _ => hover, fun hsome => ?_, h.activated, h.bypassed, fun _ => hwas,
      fun _ => hover⟩
    dsimp only at hsome
    split at hsome
    · exact h.published (by simpa using hsome)
    · exact h.published hsome
  | noSurface a frame hphase hsurface =>
    have hwas := h.client (by rw [hphase]; rfl)
    have hover := h.passed (by rw [hphase]; rfl)
    exact ⟨hnone, h.published, h.activated, h.bypassed, fun _ => hwas, fun _ => hover⟩
  | send a frame encoder hardwareDisabled actions hphase hencoder hsender hactions =>
    have hover := h.passed (by rw [hphase]; rfl)
    have hnext : Known cfg w
        { p with
          egfx := (p.egfx.process (p.capture frame encoder a)).egfx
          hardwareDisabled
          phase := .poll } :=
      .between h.published h.activated h.bypassed rfl
    refine ⟨fun _ _ _ => hover, ?_⟩
    obtain rfl | ⟨surface, frameId, -, rfl⟩ := hactions
    · exact hnext
    · exact hnext

/-- Every picture came after the wait. -/
structure Timely (cfg : LoopConfig) (p : DisplayLoop) (log : List LoopAction) : Prop where
  supported : Supported (fun before x => x.IsPicture → (waited before).Over cfg) log
  known : Known cfg (waited log) p

/-- One move. A picture is seen only where the wait is over. -/
theorem timely_move (hmove : Move cfg p i actions q) (h : Timely cfg p log) :
    Timely cfg q (log ++ actions) := by
  obtain ⟨hpicture, hknown⟩ := known_move hmove h.known
  refine ⟨supported_append.mpr ⟨h.supported, ?_⟩, by rw [waited_append]; exact hknown⟩
  obtain rfl | ⟨x, rfl⟩ := hmove.single
  · exact supported_nil
  · refine supported_singleton.mpr ?_
    rw [List.append_nil]
    exact hpicture x List.mem_cons_self

/-! ### A desktop that does not change -/

/-- Nobody was seen so far. -/
structure Absent (p : DisplayLoop) : Prop where
  clientActive : p.clientActive = false
  wasClientActive : p.wasClientActive = false
  phase : p.phase.withClient = false

/-- There is no frame to be shown to the client that is there. -/
structure Bare (p : DisplayLoop) : Prop where
  cached : p.wasClientActive = true → p.cached = none
  phase : p.phase = .poll ∨ p.phase = .idle ∨ (p.phase = .replay ∧ p.wasClientActive = true)

/-- Nothing is captured. -/
def NoCapture : LoopInput → Prop
  | .advance a => a.captured = none
  | _ => True

/-- One move without a client. -/
theorem absent_move (hmove : Move cfg p i actions q) (hi : i ≠ .updates) (h : Absent p) :
    Absent q ∧ ∀ x ∈ actions, ¬ x.IsPicture := by
  obtain ⟨hclient, hwas, hphase⟩ := id h
  have hnone : ∀ x ∈ ([] : List LoopAction), ¬ x.IsPicture := by simp
  cases hmove with
  | nothing => exact ⟨h, hnone⟩
  | ready => exact ⟨⟨hclient, hwas, hphase⟩, no_picture id⟩
  | closed => exact ⟨⟨hclient, hwas, hphase⟩, no_picture id⟩
  | updates => exact absurd rfl hi
  | release => exact ⟨⟨rfl, hwas, hphase⟩, hnone⟩
  | stopped => exact ⟨⟨hclient, hwas, hphase⟩, hnone⟩
  | go a next hgoes =>
    refine ⟨⟨hclient, hwas, ?_⟩, hnone⟩
    generalize p.phase = phase at hphase hgoes
    cases hgoes with
    | idle | noClient | nothing | dropped | held => rfl
    | client frame hseen => simp [hwas] at hseen
    | waiting hseen => simp [hwas] at hseen
    | again | paced | passed | looked | loaded | noReset | avc | noMode => cases hphase
  | keep => exact ⟨⟨hclient, hwas, rfl⟩, hnone⟩
  | resize => exact ⟨⟨hclient, hwas, rfl⟩, no_picture id⟩
  | lose => exact ⟨⟨hclient, rfl, rfl⟩, hnone⟩
  | activate a next _ hactive => simp [hclient] at hactive
  | bitmap a q hfalls =>
    cases hfalls with
    | mode _ _ hat | noMode _ hat | pending _ hat | settled _ hat | noEncoder _ hat =>
      simp [hat, LoopPhase.withClient] at hphase
  | giveUp _ _ hat | stay _ _ hat | comeBack _ _ hat | reset _ _ _ hat | initialise _ _ hat
  | surface _ _ _ hat | noSurface _ _ hat | send _ _ _ _ _ hat =>
    simp [hat, LoopPhase.withClient] at hphase

/-- One move without a frame. -/
theorem bare_move (hmove : Move cfg p i actions q) (hi : NoCapture i) (h : Bare p) :
    Bare q ∧ ∀ x ∈ actions, ¬ x.IsPicture := by
  obtain ⟨hcached, hphase⟩ := id h
  have hnone : ∀ x ∈ ([] : List LoopAction), ¬ x.IsPicture := by simp
  cases hmove with
  | nothing => exact ⟨h, hnone⟩
  | ready => exact ⟨⟨hcached, hphase⟩, no_picture id⟩
  | closed => exact ⟨⟨hcached, hphase⟩, no_picture id⟩
  | updates => exact ⟨⟨hcached, hphase⟩, hnone⟩
  | release => exact ⟨⟨hcached, hphase⟩, hnone⟩
  | stopped => exact ⟨⟨hcached, hphase⟩, hnone⟩
  | go a next hgoes =>
    refine ⟨⟨hcached, ?_⟩, hnone⟩
    generalize p.phase = phase at hphase hgoes
    cases hgoes with
    | idle => exact Or.inr (Or.inl rfl)
    | noClient | nothing => exact Or.inl rfl
    | waiting hwas => exact Or.inr (Or.inr ⟨rfl, hwas⟩)
    | again frame hframe =>
      have hwas : p.wasClientActive = true := by simpa using hphase
      rw [hcached hwas] at hframe
      cases hframe
    | client | paced | dropped | held | passed | looked | loaded | noReset | avc | noMode =>
      simp at hphase
  | keep a frame _ hcaptured => cases hcaptured.symm.trans hi
  | resize a frame size _ hcaptured => cases hcaptured.symm.trans hi
  | activate a next hat =>
    refine ⟨⟨fun _ => rfl, ?_⟩, no_picture id⟩
    obtain ⟨frame, hframe, -⟩ | ⟨-, rfl⟩ := hat
    · simp [hframe] at hphase
    · exact Or.inr (Or.inr ⟨rfl, rfl⟩)
  | bitmap a q hfalls =>
    cases hfalls with
    | mode _ _ hat | noMode _ hat | pending _ hat | settled _ hat | noEncoder _ hat =>
      simp [hat] at hphase
  | lose _ _ hat | giveUp _ _ hat | stay _ _ hat | comeBack _ _ hat | reset _ _ _ hat
  | initialise _ _ hat | surface _ _ _ hat | noSurface _ _ hat | send _ _ _ _ _ hat =>
    simp [hat] at hphase

section Runs

variable (cfg : LoopConfig) (attached : Bool) (size : DesktopSize) (now : Instant)

theorem timely_initial : Timely cfg (.initial cfg attached size now) [] where
  supported := supported_nil
  known :=
    { published := fun hsome => by cases hsome
      activated := fun hwas => by cases hwas
      bypassed := fun hwas => by cases hwas
      client := fun hphase => by cases hphase
      passed := fun hphase => by cases hphase }

/-- By induction on the inputs. -/
theorem timely_of_run (inputs : List LoopInput) :
    Timely cfg ((displayLoop cfg).exec (.initial cfg attached size now) inputs)
      ((displayLoop cfg).trace (.initial cfg attached size now) inputs) :=
  Machine.exec_log (m := displayLoop cfg)
    (fun p i _ htimely => timely_move (move_step cfg p i) htimely)
    (timely_initial cfg attached size now) inputs

/-- **A picture comes after the wait.** In every run, whatever the client is shown comes after it
was seen, and after a mode was published, or after EGFX was given up for it when more than five
seconds had passed. Without EGFX no mode is published; so it is the five seconds then, for a server
that is set to bitmaps as for any other. -/
theorem picture_after_wait {inputs : List LoopInput} {before afterwards : List LoopAction}
    {x : LoopAction} (hx : x.IsPicture)
    (h : (displayLoop cfg).trace (.initial cfg attached size now) inputs =
      before ++ x :: afterwards) : (waited before).Over cfg :=
  (timely_of_run cfg attached size now inputs).supported before x afterwards h hx

theorem picture_after_wait_bitmap :
    Wait.Over ⟨.bitmap, true, true, false, none⟩ (waited [.activated 0, .gaveUp 5000000001]) := by
  have htrace : (displayLoop ⟨.bitmap, true, true, false, none⟩).trace
      (.initial ⟨.bitmap, true, true, false, none⟩ true (1, 1) 0)
      (.updates :: List.replicate 7 (.advance (.granted 0)) ++
        List.replicate 5 (.advance (.granted 5000000001))) =
      [.activated 0, .gaveUp 5000000001] ++ [.bitmap] := rfl
  exact picture_after_wait _ _ _ _ (x := .bitmap) trivial htrace

/-- **A desktop that does not change is not shown.** In every run in which no frame is captured any
more from the moment the first client takes updates, and none was just being looked at then,
nothing is ever shown: the frames from before are dropped when the loop sees the client, in either
of the two places where it does, and with them the one that was kept to be shown to it. -/
theorem no_picture_without_capture {inputs inputs' : List LoopInput} (hbefore : .updates ∉ inputs)
    (hphase : ∀ frame, ((displayLoop cfg).exec (.initial cfg attached size now) inputs).phase ≠
      .captured frame)
    (hafter : ∀ i ∈ inputs', NoCapture i) :
    ∀ x ∈ (displayLoop cfg).trace (.initial cfg attached size now) (inputs ++ .updates :: inputs'),
      ¬ x.IsPicture := by
  obtain ⟨habsent, hnothing⟩ := Machine.forall_trace (m := displayLoop cfg)
    (fun p i h hi => absent_move (move_step cfg p i) hi h)
    (s := .initial cfg attached size now) ⟨rfl, rfl, rfl⟩
    (Machine.along_of_forall fun i hi heq => hbefore (heq ▸ hi))
  have hbare : Bare ((displayLoop cfg).exec (.initial cfg attached size now) inputs).updates := by
    refine ⟨fun hwas => absurd hwas (by simp [DisplayLoop.updates, habsent.wasClientActive]), ?_⟩
    obtain hpoll | hidle := LoopPhase.poll_or_idle habsent.phase hphase
    · exact Or.inl hpoll
    · exact Or.inr (Or.inl hidle)
  have hafter := Machine.forall_trace (m := displayLoop cfg)
    (fun p i h hi => bare_move (move_step cfg p i) hi h) hbare (Machine.along_of_forall hafter)
  rw [Machine.trace_append]
  exact List.forall_mem_append.mpr ⟨hnothing, hafter.2⟩

theorem no_picture_without_capture_ready :
    NoCapture (.advance { LoopAnswer.granted 0 with captured := none }) ∧
      ∀ x ∈ (displayLoop ⟨.auto, true, true, false, none⟩).trace
          (.initial ⟨.auto, true, true, false, none⟩ true (1, 1) 0)
          ([.advance (.granted 0), .advance (.granted 0), .ready .v10_1 false] ++ .updates ::
            List.replicate 100 (.advance { LoopAnswer.granted 0 with captured := none })),
        ¬ x.IsPicture := by
  have hnone : NoCapture (.advance { LoopAnswer.granted 0 with captured := none }) := rfl
  refine ⟨hnone, no_picture_without_capture _ _ _ _ (by simp)
    (fun frame => LoopPhase.noConfusion) ?_⟩
  intro i hi
  obtain ⟨-, rfl⟩ := List.mem_replicate.mp hi
  exact hnone

end Runs

end Graphics

end Cheirizo
