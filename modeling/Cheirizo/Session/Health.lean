import Cheirizo.Lib.Machine

/-!
# The terminal report of a session

`src/rdp/session/backends/portal_generic.rs`: a session that ends tells its supervision so, and it
can end in three places: in the thread that bridges frames, in `shutdown`, and in `drop`.
Supervision is attached at some point, possibly after the session has already ended, by
`install_health_reporter`. Both functions do their work under the lock of the pending event and
send afterwards, without it.

## Steps

A run interleaves the locked sections of any number of calls, of either function, with the sends
these calls still owe (`sending`), and with supervisors that stop. A supervisor that has stopped has
dropped its end of the channel, and what is sent to it then is lost.

## Main definitions

* `Health.reportHealthOnce`, `Health.installHealthReporter` — the locked sections
* `healthMachine` — calls, sends and supervisors, with every send logged

## Main results

* `Latched.step`, `Latched.exec` — what the three shared variables say about the past
* `terminal_report_once` — one terminal event at most is sent, and it is the first one raised
* `terminal_report_owed` — it is not sent at once
-/

namespace Cheirizo

namespace Session

/-! ### Events -/

/-- The parts of a session that have a health of their own. -/
inductive SessionAspectId where
  | session
  | graphics
  | input
  | clipboard
  deriving DecidableEq, Repr

/-- How a part is. -/
inductive AspectHealth where
  | healthy
  | degraded (reason : String)
  | failed (reason : String)
  | notApplicable
  deriving DecidableEq, Repr

/-- How the stream of pictures is. -/
inductive GraphicsStreamState where
  | streaming
  | paused
  | error
  deriving DecidableEq, Repr

/-- What a session reports. Some of it ends the session. -/
inductive SessionStatusEvent where
  | aspectHealthChanged (aspect : SessionAspectId) (health : AspectHealth)
  | sessionClosed (reason : String)
  | sessionInvalidated (reason : String)
  | graphicsStreamStateChanged (state : GraphicsStreamState)
  | videoFrameStalled (stallDurationMs : UInt64)
  | videoFrameNeverStarted (elapsedMs : UInt64)
  | videoFrameResumed
  | inputFailed (reason : String) (permanent : Bool)
  | inputRecovered
  | clipboardFailed (reason : String)
  | clipboardRecovered
  | compositorLost (busName : String)
  | eisStreamEnded (reason : String)
  | subsystemNotAvailable (subsystem : String)
  deriving DecidableEq, Repr

/-- The places that report the end of a session. -/
inductive TerminalSource where
  | bridge
  | shutdown
  | drop
  deriving DecidableEq, Repr

/-- What each of the three places reports. -/
def TerminalSource.event : TerminalSource → SessionStatusEvent
  | .bridge => .sessionInvalidated "portal-generic raw frame channel disconnected"
  | .shutdown => .sessionClosed "portal-generic session shutdown"
  | .drop => .sessionClosed "portal-generic session dropped"

/-! ### The locked sections -/

/-- A reporter, named by the supervisor at the other end of its channel. -/
abbrev SessionStatusReporter := ℕ

/-- What the threads of a session share about its end. -/
structure Health where
  healthReporter : Option SessionStatusReporter
  pendingHealthEvent : Option SessionStatusEvent
  healthReported : Bool
  deriving DecidableEq, Repr

namespace Health

/-- Nobody is reported to, and nothing was reported. -/
def new : Health := ⟨none, none, false⟩

/-- Set the flag, if it was not set. -/
def compareExchange (h : Health) : Option Health :=
  if h.healthReported then none else some { h with healthReported := true }

/-- The section of a report, with what the call has to send when it has left it. -/
def reportHealthOnce (h : Health) (event : SessionStatusEvent) :
    Health × Option (SessionStatusReporter × SessionStatusEvent) :=
  if h.healthReported then (h, none)
  else
    match h.healthReporter with
    | some reporter =>
      match h.compareExchange with
      | some h => (h, some (reporter, event))
      | none => (h, none)
    | none =>
      if h.pendingHealthEvent.isNone then ({ h with pendingHealthEvent := some event }, none)
      else (h, none)

/-- The section of an attachment, with what the call has to send when it has left it. -/
def installHealthReporter (h : Health) (reporter : SessionStatusReporter) :
    Health × Option (SessionStatusReporter × SessionStatusEvent) :=
  let event := h.pendingHealthEvent
  let h := { h with healthReporter := some reporter, pendingHealthEvent := none }
  match event with
  | none => (h, none)
  | some event =>
    match h.compareExchange with
    | some h => (h, some (reporter, event))
    | none => (h, none)

end Health

/-! ### Interleavings -/

/-- A session, the sends its calls still owe, and the supervisors that have stopped. -/
structure Supervised where
  health : Health
  sending : List (SessionStatusReporter × SessionStatusEvent)
  stopped : List SessionStatusReporter
  deriving DecidableEq, Repr

/-- No call is under way. -/
def Supervised.new : Supervised := ⟨.new, [], []⟩

/-- The steps that calls are made of, in any order. -/
inductive HealthStep where
  /-- The section of `report_health_once`. -/
  | raise (event : SessionStatusEvent)
  /-- The section of `install_health_reporter`. -/
  | install (reporter : SessionStatusReporter)
  /-- A call sends what it owes. -/
  | send (index : ℕ)
  /-- A supervisor drops its end of the channel. -/
  | stop (supervisor : SessionStatusReporter)
  deriving DecidableEq, Repr

/-- An event as it was sent, and whether its supervisor was there to get it. -/
structure Report where
  reporter : SessionStatusReporter
  event : SessionStatusEvent
  delivered : Bool
  deriving DecidableEq, Repr

/-- A section is one step, and the send that it owes is another. -/
def Supervised.step (s : Supervised) : HealthStep → Supervised × List Report
  | .raise event =>
    let result := s.health.reportHealthOnce event
    ({ s with health := result.1, sending := s.sending ++ result.2.toList }, [])
  | .install reporter =>
    let result := s.health.installHealthReporter reporter
    ({ s with health := result.1, sending := s.sending ++ result.2.toList }, [])
  | .send index =>
    match s.sending[index]? with
    | none => (s, [])
    | some (reporter, event) =>
      ({ s with sending := s.sending.eraseIdx index },
        [⟨reporter, event, reporter ∉ s.stopped⟩])
  | .stop supervisor => ({ s with stopped := supervisor :: s.stopped }, [])

/-- A session and its supervisors, with every send logged. -/
def healthMachine : Machine Supervised HealthStep Report where
  step := Supervised.step

/-- The events raised, in the order of their sections. -/
def raised (es : List HealthStep) : List SessionStatusEvent :=
  es.filterMap fun
    | .raise event => some event
    | _ => none

theorem raised_append (es es' : List HealthStep) : raised (es ++ es') = raised es ++ raised es' :=
  List.filterMap_append ..

theorem raised_concat {e : HealthStep} (h : raised [e] = []) (es : List HealthStep) :
    raised (es ++ [e]) = raised es := by
  rw [raised_append, h, List.append_nil]

/-! ### What a section does -/

namespace Health

/-- A report is late, is the first to find a reporter, or is left for a reporter to come. -/
theorem reportHealthOnce_cases (h : Health) (event : SessionStatusEvent) :
    (h.healthReported = true ∧ h.reportHealthOnce event = (h, none)) ∨
    (h.healthReported = false ∧ ∃ reporter, h.healthReporter = some reporter ∧
      h.reportHealthOnce event = ({ h with healthReported := true }, some (reporter, event))) ∨
    (h.healthReported = false ∧ h.healthReporter = none ∧ h.reportHealthOnce event =
      ({ h with pendingHealthEvent := h.pendingHealthEvent.or (some event) }, none)) := by
  obtain ⟨reporter, pending, reported⟩ := h
  cases reported with
  | true => exact .inl ⟨rfl, rfl⟩
  | false =>
    right
    cases reporter with
    | some r => exact .inl ⟨rfl, r, rfl, rfl⟩
    | none =>
      refine .inr ⟨rfl, rfl, ?_⟩
      cases pending <;> rfl

/-- An attachment replays the pending event, if there is one and nothing was reported. -/
theorem installHealthReporter_cases (h : Health) (reporter : SessionStatusReporter) :
    (∃ event, h.pendingHealthEvent = some event ∧ h.healthReported = false ∧
      h.installHealthReporter reporter = (⟨some reporter, none, true⟩, some (reporter, event))) ∨
    ((h.pendingHealthEvent = none ∨ h.healthReported = true) ∧
      h.installHealthReporter reporter = (⟨some reporter, none, h.healthReported⟩, none)) := by
  obtain ⟨old, pending, reported⟩ := h
  cases pending with
  | none => exact .inr ⟨.inl rfl, rfl⟩
  | some event =>
    cases reported with
    | true => exact .inr ⟨.inr rfl, rfl⟩
    | false => exact .inl ⟨event, rfl, rfl, rfl⟩

end Health

/-! ### The invariant -/

/-- What the shared variables say about the events raised so far, those sent and those still
owed. -/
structure Latched (h : Health) (sending : List (SessionStatusReporter × SessionStatusEvent))
    (raised : List SessionStatusEvent) (sent : List Report) : Prop where
  idle : h.healthReported = false → sending = [] ∧ sent = []
  waiting : h.healthReported = false → h.healthReporter = none →
    h.pendingHealthEvent = raised.head?
  attached : h.healthReported = false → h.healthReporter.isSome →
    h.pendingHealthEvent = none ∧ raised = []
  reported : h.healthReported = true → ∃ first, raised.head? = some first ∧
    sent.map Report.event ++ sending.map Prod.snd = [first]

namespace Latched

variable {h : Health} {sending : List (SessionStatusReporter × SessionStatusEvent)}
  {raised : List SessionStatusEvent} {sent : List Report}

theorem new : Latched .new [] [] [] where
  idle _ := ⟨rfl, rfl⟩
  waiting _ _ := rfl
  attached _ h := by cases h
  reported h := by cases h

/-- Once the flag is set, only the last condition is left. -/
theorem of_reported {first : SessionStatusEvent} (hr : h.healthReported = true)
    (hfirst : raised.head? = some first)
    (hsent : sent.map Report.event ++ sending.map Prod.snd = [first]) :
    Latched h sending raised sent where
  idle hn := by simp [hr] at hn
  waiting hn := by simp [hr] at hn
  attached hn := by simp [hr] at hn
  reported _ := ⟨first, hfirst, hsent⟩

theorem raise (hl : Latched h sending raised sent) (event : SessionStatusEvent) :
    Latched (h.reportHealthOnce event).1 (sending ++ (h.reportHealthOnce event).2.toList)
      (raised ++ [event]) sent := by
  obtain ⟨hr, he⟩ | ⟨hr, reporter, hrep, he⟩ | ⟨hr, hrep, he⟩ := h.reportHealthOnce_cases event
  all_goals rw [he]
  · obtain ⟨first, hfirst, hsent⟩ := hl.reported hr
    have hhead : (raised ++ [event]).head? = some first := by
      rw [List.head?_append, hfirst]
      rfl
    refine of_reported hr hhead ?_
    rw [Option.toList_none, List.append_nil]
    exact hsent
  · -- With a reporter in place and nothing sent, this is the first event raised.
    obtain ⟨-, rfl⟩ := hl.attached hr (hrep ▸ rfl)
    obtain ⟨rfl, rfl⟩ := hl.idle hr
    exact of_reported rfl rfl rfl
  · obtain ⟨rfl, rfl⟩ := hl.idle hr
    constructor
    · exact fun _ => ⟨rfl, rfl⟩
    · intro _ _
      rw [List.head?_append, ← hl.waiting hr hrep]
      rfl
    · intro _ hsome
      simp [hrep] at hsome
    · intro hr'
      simp [hr] at hr'

theorem install (hl : Latched h sending raised sent) (reporter : SessionStatusReporter) :
    Latched (h.installHealthReporter reporter).1
      (sending ++ (h.installHealthReporter reporter).2.toList) raised sent := by
  obtain ⟨event, hp, hr, he⟩ | ⟨hnone, he⟩ := h.installHealthReporter_cases reporter
  all_goals rw [he]
  · obtain ⟨rfl, rfl⟩ := hl.idle hr
    -- A pending event means that there was no reporter, so it is the first event raised.
    have hrep : h.healthReporter = none := by
      by_contra hne
      have hsome : h.healthReporter.isSome := Option.isSome_iff_ne_none.mpr hne
      rw [(hl.attached hr hsome).1] at hp
      cases hp
    exact of_reported rfl ((hl.waiting hr hrep).symm.trans hp) rfl
  · rw [Option.toList_none, List.append_nil]
    cases hr : h.healthReported with
    | true =>
      obtain ⟨first, hfirst, hsent⟩ := hl.reported hr
      exact of_reported rfl hfirst hsent
    | false =>
      have hp : h.pendingHealthEvent = none := hnone.resolve_right (by simp [hr])
      constructor
      · exact fun _ => hl.idle hr
      · intro _ hrep
        cases hrep
      · intro _ _
        refine ⟨rfl, ?_⟩
        cases hrep : h.healthReporter with
        | some r => exact (hl.attached hr (hrep ▸ rfl)).2
        | none => exact List.head?_eq_none_iff.mp ((hl.waiting hr hrep).symm.trans hp)
      · intro hr'
        cases hr'

/-- What is owed is sent. -/
theorem send {index : ℕ} {reporter : SessionStatusReporter} {event : SessionStatusEvent}
    (hl : Latched h sending raised sent) (hi : sending[index]? = some (reporter, event))
    (delivered : Bool) :
    Latched h (sending.eraseIdx index) raised (sent ++ [⟨reporter, event, delivered⟩]) := by
  cases hr : h.healthReported with
  | false =>
    rw [(hl.idle hr).1] at hi
    cases hi
  | true =>
    obtain ⟨first, hfirst, hsent⟩ := hl.reported hr
    have hmem : event ∈ sending.map Prod.snd :=
      List.mem_map_of_mem (List.mem_of_getElem? hi)
    cases sent with
    | cons x xs =>
      -- One event has been sent already, so that none is owed.
      rw [List.map_cons, List.cons_append, List.cons.injEq, List.append_eq_nil_iff] at hsent
      rw [hsent.2.2] at hmem
      cases hmem
    | nil =>
      obtain ⟨p, rfl, hp⟩ := List.map_eq_singleton_iff.mp hsent
      cases index with
      | zero =>
        cases hi
        exact of_reported hr hfirst (congrArg (fun e => [e]) hp)
      | succ n => cases hi

end Latched

/-! ### Runs -/

/-- What the steps so far have led to. -/
structure Recorded (s : Supervised) (past : List HealthStep) (sent : List Report) : Prop where
  latched : Latched s.health s.sending (raised past) sent
  stopped : ∀ r ∈ s.stopped, HealthStep.stop r ∈ past
  lost : ∀ x ∈ sent, x.delivered = false → HealthStep.stop x.reporter ∈ past

namespace Recorded

variable {s : Supervised} {past : List HealthStep} {sent : List Report}

theorem new : Recorded .new [] [] where
  latched := Latched.new
  stopped r hr := by cases hr
  lost x hx := by cases hx

/-- A step that sends nothing and stops nobody. -/
theorem quiet {s' : Supervised} {e : HealthStep} (h : Recorded s past sent)
    (hl : Latched s'.health s'.sending (raised (past ++ [e])) sent)
    (hstopped : s'.stopped = s.stopped) : Recorded s' (past ++ [e]) sent where
  latched := hl
  stopped r hr := List.mem_append_left _ (h.stopped r (hstopped ▸ hr))
  lost x hx hd := List.mem_append_left _ (h.lost x hx hd)

theorem step (h : Recorded s past sent) (e : HealthStep) :
    Recorded (s.step e).1 (past ++ [e]) (sent ++ (s.step e).2) := by
  cases e with
  | raise event =>
    rw [Supervised.step, List.append_nil]
    refine h.quiet ?_ rfl
    rw [raised_append]
    exact h.latched.raise event
  | install reporter =>
    rw [Supervised.step, List.append_nil]
    refine h.quiet ?_ rfl
    rw [raised_concat rfl]
    exact h.latched.install reporter
  | send index =>
    simp only [Supervised.step]
    cases hi : s.sending[index]? with
    | none =>
      rw [List.append_nil]
      refine h.quiet ?_ rfl
      rw [raised_concat rfl]
      exact h.latched
    | some p =>
      obtain ⟨reporter, event⟩ := p
      constructor
      · rw [raised_concat rfl]
        exact h.latched.send hi _
      · exact fun r hr => List.mem_append_left _ (h.stopped r hr)
      · intro x hx hd
        refine List.mem_append_left _ ?_
        rw [List.mem_append, List.mem_singleton] at hx
        obtain hx | rfl := hx
        · exact h.lost x hx hd
        · exact h.stopped reporter (not_not.mp (of_decide_eq_false hd))
  | stop supervisor =>
    rw [Supervised.step, List.append_nil]
    constructor
    · rw [raised_concat rfl]
      exact h.latched
    · intro r hr
      rw [List.mem_append]
      obtain rfl | hr := List.mem_cons.mp hr
      · exact .inr (List.mem_singleton_self _)
      · exact .inl (h.stopped r hr)
    · exact fun x hx hd => List.mem_append_left _ (h.lost x hx hd)

theorem exec (h : Recorded s past sent) (es : List HealthStep) :
    Recorded (healthMachine.exec s es) (past ++ es) (sent ++ healthMachine.trace s es) := by
  induction es generalizing s past sent with
  | nil => simpa [Machine.trace] using h
  | cons e es ih =>
    have hnext := ih (h.step e)
    rwa [List.append_assoc, List.append_assoc] at hnext

/-- While no supervisor stops, everything that is sent is delivered. -/
theorem delivered (h : Recorded s past sent) (hstop : ∀ r, HealthStep.stop r ∉ past) :
    sent.filter Report.delivered = sent := by
  refine List.filter_eq_self.mpr fun x hx => ?_
  by_contra hlost
  exact hstop x.reporter (h.lost x hx (Bool.eq_false_iff.mpr hlost))

end Recorded

/-- **One terminal event is sent at most, the first one raised.** With a reporter in place and an
event raised, a call has sent the first event or is about to. What was sent is delivered unless the
supervisor had stopped, so while no supervisor stops and no call owes a send, the first event has
been delivered, and nothing else. -/
theorem terminal_report_once (es : List HealthStep) :
    let s := healthMachine.exec .new es
    let sent := healthMachine.trace .new es
    sent.length ≤ 1 ∧
    (∀ x ∈ sent, (raised es).head? = some x.event ∧
      (x.delivered = false → HealthStep.stop x.reporter ∈ es)) ∧
    (s.health.healthReporter.isSome → ∀ first, (raised es).head? = some first →
      sent.map Report.event ++ s.sending.map Prod.snd = [first] ∧
      (s.sending = [] → (∀ r, HealthStep.stop r ∉ es) →
        (sent.filter Report.delivered).map Report.event = [first])) := by
  intro s sent
  have h : Recorded s es sent := Recorded.new.exec es
  cases hr : s.health.healthReported with
  | false =>
    rw [(h.latched.idle hr).2]
    refine ⟨Nat.zero_le _, by simp, ?_⟩
    intro hsome first hfirst
    rw [(h.latched.attached hr hsome).2] at hfirst
    cases hfirst
  | true =>
    obtain ⟨first, hfirst, hsent⟩ := h.latched.reported hr
    refine ⟨?_, ?_, ?_⟩
    · have hlen := congrArg List.length hsent
      rw [List.length_append, List.length_map, List.length_singleton] at hlen
      exact Nat.le.intro hlen
    · intro x hx
      refine ⟨?_, h.lost x hx⟩
      have hmem : x.event ∈ sent.map Report.event ++ s.sending.map Prod.snd :=
        List.mem_append_left _ (List.mem_map_of_mem hx)
      rw [hsent, List.mem_singleton] at hmem
      rw [hfirst, hmem]
    · intro _ first' hfirst'
      obtain rfl : first = first' := Option.some.inj (hfirst.symm.trans hfirst')
      refine ⟨hsent, fun hnone hstop => ?_⟩
      rw [h.delivered hstop, ← hsent, hnone, List.map_nil, List.append_nil]

/-- The bridge has raised its event, and has yet to send it. -/
theorem terminal_report_owed :
    let es : List HealthStep := [.install 0, .raise TerminalSource.bridge.event]
    (healthMachine.exec .new es).health.healthReporter = some 0 ∧
      raised es = [TerminalSource.bridge.event] ∧
      healthMachine.trace .new es = [] ∧
      (healthMachine.exec .new es).sending = [(0, TerminalSource.bridge.event)] := by
  decide

/-- A supervisor that is gone by the time the bridge loses its frames is sent the event in vain. -/
example :
    let es : List HealthStep := [.install 0, .stop 0, .raise TerminalSource.bridge.event, .send 0]
    healthMachine.trace .new es = [⟨0, TerminalSource.bridge.event, false⟩] := by
  decide

end Session

end Cheirizo
