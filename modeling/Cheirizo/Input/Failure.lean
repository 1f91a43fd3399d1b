import Cheirizo.Input.Worker
import Cheirizo.Session.Health

/-!
# The report of an input failure

`src/rdp/server/input_handler.rs`: input fails for good when the worker gives up, and when an event
that must not be lost finds the queue full or closed. Supervision is attached at some point, before
or after. All three end in `report_input_failed_once`, and share two flags and the slot of the
reporter without a common lock.

## Steps

A call is at the point of its next load, store, swap, exchange, lock section or send. A run begins
calls, takes the next step of any call, and stops supervisors, in any order. What `try_send` answers
is part of the step.

## Main definitions

* `Point`, `Connection.act` — the atomic steps of the calls
* `failureMachine` — calls and supervisors, with every send logged

## Main results

* `act_once`, `act_due` — what a step does to the flags, and what the call still owes
* `input_failure_once` — one failure is reported at most, and one is once all calls have returned
-/

namespace Cheirizo

namespace Input

open Session (SessionStatusReporter SessionStatusEvent Report)

/-! ### Calls -/

/-- What a full queue means for an event. -/
inductive QueuePressureAction where
  | drop
  | failConnection
  deriving DecidableEq, Repr

/-- Only an event that does not matter is dropped. -/
def queuePressureAction (event : InputEvent) : QueuePressureAction :=
  if inputEventIsDroppable event then .drop else .failConnection

/-- Why an event could not be put into the queue. -/
inductive TrySendError where
  | full
  | closed
  deriving DecidableEq, Repr

/-- The next atomic step of a call. -/
inductive Point where
  /-- `enqueue_input` looks whether input has failed. -/
  | enqueue (event : InputEvent)
  /-- `enqueue_input` puts the event into the queue. -/
  | trySend (event : InputEvent)
  /-- `fail_input_connection` sets the flag. -/
  | swapTerminal (reason : String)
  /-- The worker gives up. -/
  | storeTerminal
  /-- `set_health_reporter` takes the lock. -/
  | writeReporter (reporter : SessionStatusReporter)
  /-- The steps of `report_input_failed_once`. -/
  | loadTerminal (reason : String)
  | loadReported (reason : String)
  | readReporter (reason : String)
  | exchangeReported (reason : String) (reporter : SessionStatusReporter)
  | report (reason : String) (reporter : SessionStatusReporter)
  deriving DecidableEq

/-- A call, as it begins. -/
inductive Call where
  | enqueueInput (event : InputEvent)
  | failPermanently
  | setHealthReporter (reporter : SessionStatusReporter)
  deriving DecidableEq

/-- Where a call begins. -/
def Call.start : Call → Point
  | .enqueueInput event => .enqueue event
  | .failPermanently => .storeTerminal
  | .setHealthReporter reporter => .writeReporter reporter

namespace Point

/-- The call is in `report_input_failed_once`, and has not won the exchange. -/
def attempts : Point → Bool
  | .loadTerminal _ | .loadReported _ | .readReporter _ | .exchangeReported _ _ => true
  | _ => false

/-- The call has won the exchange. -/
def owes : Point → Bool
  | .report _ _ => true
  | _ => false

end Point

/-! ### Steps -/

/-- What the calls of a connection share, the calls in flight, and the supervisors that have
stopped. -/
structure Connection where
  terminalOverflow : Bool
  overflowReported : Bool
  healthReporter : Option SessionStatusReporter
  calls : List Point
  stopped : List SessionStatusReporter
  deriving DecidableEq

/-- What a step of a call does: the flags, where the call goes on, and what is sent. -/
structure Acted where
  connection : Connection
  next : Option Point
  sent : List Report

namespace Connection

/-- Nothing has failed, and nobody is reported to. -/
def new : Connection := ⟨false, false, none, [], []⟩

/-- A step of a call, with the answer of the queue. -/
def act (c : Connection) (answer : Option TrySendError) : Point → Acted
  | .enqueue event => ⟨c, if c.terminalOverflow then none else some (.trySend event), []⟩
  | .trySend event =>
    match answer with
    | none => ⟨c, none, []⟩
    | some .full =>
      match queuePressureAction event with
      | .drop => ⟨c, none, []⟩
      | .failConnection => ⟨c, some (.swapTerminal
          "bounded input queue overflowed before a non-droppable release or synchronize event"), []⟩
    | some .closed => ⟨c, some (.swapTerminal
        "bounded input queue closed while the connection was active"), []⟩
  | .swapTerminal reason => ⟨{ c with terminalOverflow := true }, some (.loadTerminal reason), []⟩
  | .storeTerminal => ⟨{ c with terminalOverflow := true }, some (.loadTerminal
      "input injection failed on every attempt past the permanent-failure threshold"), []⟩
  | .writeReporter reporter => ⟨{ c with healthReporter := some reporter }, some (.loadTerminal
      "input event queue entered a terminal state before supervision was attached"), []⟩
  | .loadTerminal reason =>
    ⟨c, if c.terminalOverflow then some (.loadReported reason) else none, []⟩
  | .loadReported reason =>
    ⟨c, if c.overflowReported then none else some (.readReporter reason), []⟩
  | .readReporter reason => ⟨c, c.healthReporter.map (.exchangeReported reason), []⟩
  | .exchangeReported reason reporter =>
    if c.overflowReported then ⟨c, none, []⟩
    else ⟨{ c with overflowReported := true }, some (.report reason reporter), []⟩
  | .report reason reporter =>
    ⟨c, none, [⟨reporter, .inputFailed reason true, reporter ∉ c.stopped⟩]⟩

end Connection

/-- The steps that calls are made of, in any order. -/
inductive FailureStep where
  | call (call : Call)
  | advance (index : ℕ) (answer : Option TrySendError)
  | stop (supervisor : SessionStatusReporter)
  deriving DecidableEq

/-- A call advances from one lock or one atomic to the next. -/
def Connection.step (c : Connection) : FailureStep → Connection × List Report
  | .call call => ({ c with calls := c.calls ++ [call.start] }, [])
  | .advance index answer =>
    match c.calls[index]? with
    | none => (c, [])
    | some point =>
      let acted := c.act answer point
      ({ acted.connection with
        calls := c.calls.take index ++ acted.next.toList ++ c.calls.drop (index + 1) }, acted.sent)
  | .stop supervisor => ({ c with stopped := supervisor :: c.stopped }, [])

/-- A connection and its supervisors, with every send logged. -/
def failureMachine : Machine Connection FailureStep Report where
  step := Connection.step

/-! ### What a step does -/

/-- A failure is to be reported: the flag is set, somebody is there to be told, and nobody was. -/
def Connection.Due (c : Connection) : Prop :=
  c.terminalOverflow = true ∧ c.healthReporter.isSome = true ∧ c.overflowReported = false

section Act

variable (c : Connection) (answer : Option TrySendError) (point : Point)

theorem act_frame : (c.act answer point).connection.calls = c.calls ∧
    (c.act answer point).connection.stopped = c.stopped := by
  fun_cases Connection.act c answer point <;> exact ⟨rfl, rfl⟩

/-- The exchange is won once, and the call that wins it sends. -/
theorem act_once :
    (c.act answer point).sent.length + (c.act answer point).next.toList.countP Point.owes +
        c.overflowReported.toNat =
      (c.act answer point).connection.overflowReported.toNat + [point].countP Point.owes := by
  fun_cases Connection.act c answer point with
  | case1 answer event => split <;> simp [Point.owes]
  | case9 answer reason => split <;> simp [Point.owes]
  | case10 answer reason => split <;> simp [Point.owes]
  | case11 answer reason => cases c.healthReporter <;> simp [Point.owes]
  | case13 answer reason reporter hreported => simp_all [Point.owes]
  | case14 answer reason reporter => simp [Point.owes, Nat.add_comm]
  | _ => simp [Point.owes]

/-- A failure is due because the step made it so, and then the call attempts to report it; or it was
due before, and then the call attempts to report it if it did so before. -/
theorem act_due (h : (c.act answer point).connection.Due) :
    (∃ next ∈ (c.act answer point).next, next.attempts = true) ∨
      c.Due ∧ point.attempts = false := by
  revert h
  fun_cases Connection.act c answer point with
  | case6 answer reason => exact fun _ => .inl ⟨_, rfl, rfl⟩
  | case7 => exact fun _ => .inl ⟨_, rfl, rfl⟩
  | case8 answer reporter => exact fun _ => .inl ⟨_, rfl, rfl⟩
  | case9 answer reason => exact fun h => .inl ⟨_, if_pos h.1, rfl⟩
  | case10 answer reason =>
    intro h
    exact .inl ⟨_, if_neg (Bool.eq_false_iff.mp h.2.2), rfl⟩
  | case11 answer reason =>
    intro h
    obtain ⟨reporter, hreporter⟩ := Option.isSome_iff_exists.mp h.2.1
    exact .inl ⟨_, congrArg (Option.map _) hreporter, rfl⟩
  | case12 answer reason reporter hreported =>
    exact fun h => absurd hreported (Bool.eq_false_iff.mp h.2.2)
  | case13 answer reason reporter hreported =>
    intro h
    cases h.2.2
  | _ => exact fun h => .inr ⟨h, rfl⟩

/-- What is sent is a permanent failure, and it is lost only if its supervisor has stopped. -/
theorem act_sent {x : Report} (h : x ∈ (c.act answer point).sent) :
    (∃ reason, x.event = .inputFailed reason true) ∧
      (x.delivered = false → x.reporter ∈ c.stopped) := by
  revert h
  fun_cases Connection.act c answer point with
  | case14 answer reason reporter =>
    intro h
    obtain rfl := List.mem_singleton.mp h
    exact ⟨⟨reason, rfl⟩, fun hlost => not_not.mp (of_decide_eq_false hlost)⟩
  | _ => exact fun h => absurd h List.not_mem_nil

end Act

/-! ### Runs -/

/-- What the flags say about the calls in flight and the past. -/
structure Accounted (c : Connection) (past : List FailureStep) (sent : List Report) : Prop where
  /-- The flag is set by the one call that sends. -/
  once : sent.length + c.calls.countP Point.owes = c.overflowReported.toNat
  /-- What is due is attempted. -/
  due : c.Due → ∃ point ∈ c.calls, point.attempts = true
  stopped : ∀ r ∈ c.stopped, FailureStep.stop r ∈ past
  sent : ∀ x ∈ sent, (∃ reason, x.event = .inputFailed reason true) ∧
    (x.delivered = false → FailureStep.stop x.reporter ∈ past)

namespace Accounted

variable {c : Connection} {past : List FailureStep} {sent : List Report}

theorem new : Accounted .new [] [] where
  once := rfl
  due h := by cases h.1
  stopped r hr := by cases hr
  sent x hx := by cases hx

/-- A step of the call between the others. -/
theorem act {before after : List Point} {point : Point} (h : Accounted c past sent)
    (hcalls : c.calls = before ++ point :: after) (answer : Option TrySendError)
    (index : ℕ) :
    Accounted { (c.act answer point).connection with
      calls := before ++ (c.act answer point).next.toList ++ after }
      (past ++ [.advance index answer]) (sent ++ (c.act answer point).sent) := by
  obtain ⟨-, hstopped⟩ := act_frame c answer point
  refine ⟨?_, ?_, ?_, ?_⟩
  · have honce := h.once
    have hact := act_once c answer point
    rw [hcalls, List.countP_append, ← List.singleton_append, List.countP_append] at honce
    rw [List.length_append, List.countP_append, List.countP_append]
    dsimp only
    omega
  · intro hdue
    obtain ⟨next, hnext, hattempts⟩ | ⟨hdue, hattempts⟩ := act_due c answer point hdue
    · refine ⟨next, ?_, hattempts⟩
      exact List.mem_append_left _ (List.mem_append_right _ (Option.mem_toList.mpr hnext))
    · obtain ⟨other, hother, hattempts'⟩ := h.due hdue
      refine ⟨other, ?_, hattempts'⟩
      rw [hcalls, List.mem_append, List.mem_cons] at hother
      rw [List.mem_append, List.mem_append]
      obtain hother | rfl | hother := hother
      · exact .inl (.inl hother)
      · exact absurd hattempts' (Bool.eq_false_iff.mp hattempts)
      · exact .inr hother
  · intro r hr
    dsimp only at hr
    rw [hstopped] at hr
    exact List.mem_append_left _ (h.stopped r hr)
  · intro x hx
    rw [List.mem_append] at hx
    obtain hx | hx := hx
    · obtain ⟨hevent, hlost⟩ := h.sent x hx
      exact ⟨hevent, fun hd => List.mem_append_left _ (hlost hd)⟩
    · obtain ⟨hevent, hlost⟩ := act_sent c answer point hx
      exact ⟨hevent, fun hd => List.mem_append_left _ (h.stopped _ (hlost hd))⟩

theorem step (h : Accounted c past sent) (e : FailureStep) :
    Accounted (c.step e).1 (past ++ [e]) (sent ++ (c.step e).2) := by
  have hstopped : ∀ r ∈ c.stopped, FailureStep.stop r ∈ past ++ [e] :=
    fun r hr => List.mem_append_left _ (h.stopped r hr)
  have hsent : ∀ x ∈ sent, (∃ reason, x.event = .inputFailed reason true) ∧
      (x.delivered = false → FailureStep.stop x.reporter ∈ past ++ [e]) := by
    intro x hx
    obtain ⟨hevent, hlost⟩ := h.sent x hx
    exact ⟨hevent, fun hd => List.mem_append_left _ (hlost hd)⟩
  cases e with
  | call call =>
    rw [Connection.step, List.append_nil]
    refine ⟨?_, ?_, hstopped, hsent⟩
    · have hstart : [call.start].countP Point.owes = 0 := by cases call <;> rfl
      rw [List.countP_append, hstart]
      exact h.once
    · intro hdue
      obtain ⟨point, hpoint, hattempts⟩ := h.due hdue
      exact ⟨point, List.mem_append_left _ hpoint, hattempts⟩
  | advance index answer =>
    simp only [Connection.step]
    split
    · rw [List.append_nil]
      exact ⟨h.once, h.due, hstopped, hsent⟩
    · rename_i point hpoint
      obtain ⟨hlt, rfl⟩ := List.getElem?_eq_some_iff.mp hpoint
      refine h.act ?_ answer index
      rw [← List.drop_eq_getElem_cons hlt, List.take_append_drop]
  | stop supervisor =>
    rw [Connection.step, List.append_nil]
    refine ⟨h.once, h.due, ?_, hsent⟩
    intro r hr
    rw [List.mem_append, List.mem_singleton]
    obtain rfl | hr := List.mem_cons.mp hr
    · exact .inr rfl
    · exact .inl (h.stopped r hr)

theorem exec (h : Accounted c past sent) (es : List FailureStep) :
    Accounted (failureMachine.exec c es) (past ++ es) (sent ++ failureMachine.trace c es) := by
  induction es generalizing c past sent with
  | nil => simpa [Machine.trace] using h
  | cons e es ih =>
    have hnext := ih (h.step e)
    rwa [List.append_assoc, List.append_assoc] at hnext

/-- While no supervisor stops, everything that is sent is delivered. -/
theorem delivered (h : Accounted c past sent) (hstop : ∀ r, FailureStep.stop r ∉ past) :
    sent.filter Report.delivered = sent := by
  refine List.filter_eq_self.mpr fun x hx => ?_
  by_contra hlost
  exact hstop x.reporter ((h.sent x hx).2 (Bool.eq_false_iff.mpr hlost))

end Accounted

/-- **A failure of input is reported once.** At most one is sent, and it is delivered unless its
supervisor has stopped. Once a reporter is in place, the flag is set and no call is in
`report_input_failed_once`, one has been sent; and if no supervisor stops, one has been
delivered. -/
theorem input_failure_once (es : List FailureStep) :
    let c := failureMachine.exec .new es
    let sent := failureMachine.trace .new es
    sent.length ≤ 1 ∧
    (∀ x ∈ sent, (∃ reason, x.event = .inputFailed reason true) ∧
      (x.delivered = false → FailureStep.stop x.reporter ∈ es)) ∧
    (c.healthReporter.isSome → c.terminalOverflow = true →
      (∀ point ∈ c.calls, point.attempts = false ∧ point.owes = false) →
      sent.length = 1 ∧
      ((∀ r, FailureStep.stop r ∉ es) → (sent.filter Report.delivered).length = 1)) := by
  intro c sent
  have h : Accounted c es sent := Accounted.new.exec es
  have hle := Bool.toNat_le c.overflowReported
  have honce := h.once
  refine ⟨by omega, h.sent, ?_⟩
  intro hreporter hterminal hcalls
  have hreported : c.overflowReported = true := by
    by_contra hnot
    obtain ⟨point, hpoint, hattempts⟩ :=
      h.due ⟨hterminal, hreporter, Bool.eq_false_iff.mpr hnot⟩
    exact Bool.eq_false_iff.mp (hcalls point hpoint).1 hattempts
  have hnone : c.calls.countP Point.owes = 0 := by
    rw [List.countP_eq_zero]
    exact fun point hpoint => Bool.eq_false_iff.mp (hcalls point hpoint).2
  rw [hnone, hreported] at honce
  refine ⟨honce, fun hstop => ?_⟩
  rw [h.delivered hstop]
  exact honce

/-- A supervisor that is gone when the worker gives up is sent the failure in vain. -/
example :
    let es : List FailureStep :=
      [.call (.setHealthReporter 0), .advance 0 none, .advance 0 none, .stop 0,
        .call .failPermanently] ++ List.replicate 6 (.advance 0 none)
    (failureMachine.trace .new es).map Report.delivered = [false] := by
  decide

end Input

end Cheirizo
