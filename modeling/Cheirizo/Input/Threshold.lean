import Cheirizo.Input.Worker
import Mathlib.Data.List.TakeWhile

/-!
# When input has failed for good

The worker of `src/rdp/server/input_handler.rs` keeps a counter for the keyboard and one for the
mouse. An event that fails adds to its own; an event of either kind that gets through sets both
back. So a dead pointer goes unnoticed as long as keys get through now and then, and what ends the
connection is a run of failures since anything last worked.

An event that is refused before any call is made counts as a failure too. What is said here is about
the times since the last success in which there was none.

## Main definitions

* `Watch` — the worker, with the outcome of every event it handled
* `failuresOf` — the failed injections of a kind since anything last worked
* `Watch.Detects` — the counters tell when there were too many

## Main results

* `failures_detected` — in every state of every run
-/

namespace Cheirizo

namespace Input

/-! ### Outcomes -/

/-- The two kinds of events whose failures are counted apart. -/
inductive EventKind where
  | keyboard
  | mouse
  deriving DecidableEq, Repr

/-- The kind of an event. -/
def eventKind : InputEvent → EventKind
  | .keyboard _ => .keyboard
  | .mouse _ => .mouse

/-- An event gets through, fails in one of the session's calls, or is refused before any. -/
inductive Outcome where
  | handled
  | failed
  | rejected
  deriving DecidableEq, Repr

/-- An event fails with the first call that does, and is rejected if there is nothing to call. -/
def outcome (plan : Plan) (attempt : Attempt) : Outcome :=
  match plan.injections with
  | .error _ => .rejected
  | .ok injections => if (perform attempt.results injections).2 then .handled else .failed

/-- The events since one last got through, the latest first. -/
def recent (outcomes : List (EventKind × Outcome)) : List (EventKind × Outcome) :=
  outcomes.takeWhile fun o => o.2 ≠ .handled

/-- How many events of a kind have failed lately. -/
def failuresOf (kind : EventKind) (outcomes : List (EventKind × Outcome)) : ℕ :=
  (recent outcomes).count (kind, .failed)

variable {outcomes : List (EventKind × Outcome)} {kind : EventKind}

theorem recent_handled : recent ((kind, .handled) :: outcomes) = [] :=
  List.takeWhile_cons_of_neg (by simp)

theorem recent_of_ne {o : Outcome} (h : o ≠ .handled) :
    recent ((kind, o) :: outcomes) = (kind, o) :: recent outcomes :=
  List.takeWhile_cons_of_pos (by simpa using h)

/-- Where nothing was refused, all that did not get through failed. -/
theorem failuresOf_eq_countP (h : ∀ o ∈ recent outcomes, o.2 ≠ .rejected) :
    failuresOf kind outcomes = (recent outcomes).countP fun o => o.1 = kind := by
  rw [failuresOf, List.count]
  refine List.countP_congr fun o ho => ?_
  have hfailed : o.2 = .failed := by
    have hnot : o.2 ≠ .handled := by simpa using List.mem_takeWhile_imp ho
    cases hout : o.2 with
    | handled => exact absurd hout hnot
    | failed => rfl
    | rejected => exact absurd hout (h o ho)
  simp [Prod.ext_iff, hfailed]

/-! ### Counters -/

namespace Worker

/-- The counter of a kind. -/
def counter (w : Worker) : EventKind → ℕ
  | .keyboard => w.consecutiveKbdErrors
  | .mouse => w.consecutiveMouseErrors

variable {w : Worker} {event : InputEvent} {attempt : Attempt}

theorem failures_eq (w : Worker) (event : InputEvent) :
    w.failures event = w.counter (eventKind event) + 1 := by
  cases event <;> rfl

/-- A success sets all counters back, and a failure adds to its own. -/
theorem counter_process (kind : EventKind) :
    (w.process event attempt).counter kind =
      if (performed (w.handlers.plan w.config event attempt.circumstances).1 attempt).2 then 0
      else if eventKind event = kind then w.failures event
      else w.counter kind := by
  unfold process
  dsimp only
  split
  · cases kind <;> rfl
  · cases event <;> cases kind <;> rfl

end Worker

theorem outcome_eq_handled_iff {plan : Plan} {attempt : Attempt} :
    outcome plan attempt = .handled ↔ (Worker.performed plan attempt).2 = true := by
  rw [outcome, Worker.performed]
  cases plan.injections with
  | error e => exact iff_of_false Outcome.noConfusion Bool.false_ne_true
  | ok injections =>
    dsimp only
    split
    · rename_i hdone
      exact iff_of_true rfl hdone
    · rename_i hdone
      exact iff_of_false Outcome.noConfusion hdone

/-! ### The worker, watched -/

/-- The worker, the outcomes of the events it handled, and whether its counters have ended the
connection. -/
structure Watch where
  worker : Worker
  outcomes : List (EventKind × Outcome)
  declared : Bool

namespace Watch

/-- Nothing was worked on. -/
def start (config : InputConfig) (layout : String) : Watch := ⟨.start config layout, [], false⟩

/-- Only turns that work on an event are watched. -/
def step (s : Watch) (input : WorkerInput) : Watch :=
  match input, s.worker.queue, s.worker.terminalOverflow with
  | .work attempt, event :: _, false =>
    let plan := (s.worker.handlers.plan s.worker.config event attempt.circumstances).1
    let next := s.worker.step (.work attempt)
    ⟨next, (eventKind event, outcome plan attempt) :: s.outcomes, next.terminalOverflow⟩
  | input, _, _ => { s with worker := s.worker.step input }

/-- If no event was refused since one last got through, the counters have ended the connection
exactly if too many of one kind have failed since. -/
def Detects (s : Watch) : Prop :=
  (∀ o ∈ recent s.outcomes, o.2 ≠ .rejected) →
    (s.declared = true ↔
      ∃ kind, injectionFailuresAreTerminal (failuresOf kind s.outcomes) = true)

/-- The counters count, and the connection is over when one of them says so. -/
structure Counted (s : Watch) : Prop where
  counter_eq : ∀ kind, s.worker.counter kind = (recent s.outcomes).countP fun o => o.1 = kind
  declared_iff : s.declared = true ↔
    ∃ kind, injectionFailuresAreTerminal (s.worker.counter kind) = true
  terminal : s.declared = true → s.worker.terminalOverflow = true

variable {s : Watch} {input : WorkerInput}

theorem counted_start (config : InputConfig) (layout : String) : (start config layout).Counted where
  counter_eq kind := by cases kind <;> rfl
  declared_iff := by
    refine iff_of_false Bool.false_ne_true ?_
    rintro ⟨kind, hkind⟩
    cases kind <;> cases hkind
  terminal h := by cases h

theorem Counted.detects (h : s.Counted) : s.Detects := by
  intro hrejected
  rw [h.declared_iff]
  refine exists_congr fun kind => ?_
  rw [h.counter_eq, failuresOf_eq_countP hrejected]

/-- The step that handles an event. -/
theorem step_work {event : InputEvent} {queue : List InputEvent} {attempt : Attempt}
    (hqueue : s.worker.queue = event :: queue) (hover : s.worker.terminalOverflow = false) :
    s.step (.work attempt) =
      ⟨s.worker.step (.work attempt),
        (eventKind event, outcome (s.worker.handlers.plan s.worker.config event
          attempt.circumstances).1 attempt) :: s.outcomes,
        (s.worker.step (.work attempt)).terminalOverflow⟩ := by
  unfold step
  simp only [hqueue, hover]

/-- Other steps leave the counters and the outcomes as they are. -/
theorem Counted.quiet (h : s.Counted) {worker : Worker}
    (hcounter : ∀ kind, worker.counter kind = s.worker.counter kind)
    (hterminal : s.worker.terminalOverflow = true → worker.terminalOverflow = true) :
    Counted { s with worker } where
  counter_eq kind := (hcounter kind).trans (h.counter_eq kind)
  declared_iff := by
    simp only [hcounter]
    exact h.declared_iff
  terminal hdeclared := hterminal (h.terminal hdeclared)

/-- Each event that is handled is counted as what came of it. -/
theorem Counted.handle {event : InputEvent} {queue : List InputEvent} {attempt : Attempt}
    (h : s.Counted) (hqueue : s.worker.queue = event :: queue)
    (hover : s.worker.terminalOverflow = false) : (s.step (.work attempt)).Counted := by
  have hnot : ∀ kind, injectionFailuresAreTerminal (s.worker.counter kind) = false := by
    intro kind
    by_contra hkind
    rw [Bool.not_eq_false] at hkind
    rw [h.terminal (h.declared_iff.mpr ⟨kind, hkind⟩)] at hover
    cases hover
  have hcounter : ∀ kind, (Worker.process { s.worker with queue } event attempt).counter kind = _ :=
    Worker.counter_process
  have hterminal : (Worker.process { s.worker with queue } event attempt).terminalOverflow = _ :=
    Worker.process_terminalOverflow hover
  rw [step_work hqueue hover, Worker.step_work hqueue hover]
  cases hdone : (Worker.performed (s.worker.handlers.plan s.worker.config event
      attempt.circumstances).1 attempt).2 with
  | true =>
    simp only [hdone, Bool.not_true, Bool.false_and, if_true] at hcounter hterminal
    refine ⟨fun kind => ?_, ?_, fun hdeclared => hdeclared⟩
    · show _ = List.countP _ (recent _)
      rw [hcounter, outcome_eq_handled_iff.mpr hdone, recent_handled]
      rfl
    · show Worker.terminalOverflow _ = true ↔ _
      rw [hterminal]
      refine iff_of_false Bool.false_ne_true ?_
      rintro ⟨kind, hkind⟩
      rw [hcounter] at hkind
      cases hkind
  | false =>
    have hne : outcome (s.worker.handlers.plan s.worker.config event attempt.circumstances).1
        attempt ≠ .handled := fun heq => by
      rw [outcome_eq_handled_iff, hdone] at heq
      cases heq
    simp only [hdone, Bool.not_false, Bool.true_and, Bool.false_eq_true, if_false]
      at hcounter hterminal
    refine ⟨fun kind => ?_, ?_, fun hdeclared => hdeclared⟩
    · show _ = List.countP _ (recent _)
      rw [hcounter, recent_of_ne hne, List.countP_cons, ← h.counter_eq]
      by_cases hkind : eventKind event = kind
      · rw [if_pos hkind, if_pos (decide_eq_true hkind), Worker.failures_eq, hkind]
        rfl
      · rw [if_neg hkind, if_neg (by simpa using hkind)]
        rfl
    · show Worker.terminalOverflow _ = true ↔ _
      rw [hterminal]
      constructor
      · exact fun hfailed => ⟨eventKind event, by rw [hcounter, if_pos rfl]; exact hfailed⟩
      · rintro ⟨kind, hkind⟩
        rw [hcounter] at hkind
        split at hkind
        · exact hkind
        · cases (hnot kind).symm.trans hkind

theorem Counted.step (h : s.Counted) : (s.step input).Counted := by
  cases input with
  | enqueue event =>
    show Counted { s with worker := s.worker.enqueueInput event }
    refine h.quiet (fun kind => ?_) fun hover => ?_
    · rw [Worker.enqueueInput]
      split
      · rfl
      · split
        · cases kind <;> rfl
        · split
          · rfl
          · cases kind <;> rfl
    · rw [Worker.enqueueInput, if_pos hover]
      exact hover
  | work attempt =>
    cases hqueue : s.worker.queue with
    | nil =>
      have hstep : s.step (.work attempt) = { s with worker := s.worker } := by
        unfold Watch.step
        simp only [hqueue, Worker.step]
      rw [hstep]
      exact h
    | cons event queue =>
      cases hover : s.worker.terminalOverflow with
      | false => exact h.handle hqueue hover
      | true =>
        have hstep : s.step (.work attempt) =
            { s with worker := { s.worker with queue := [] } } := by
          unfold Watch.step
          simp only [hqueue, hover, Worker.step, if_true]
        rw [hstep]
        exact h.quiet (fun kind => by cases kind <;> rfl) fun h => h

end Watch

/-- The worker, watched, as a machine. -/
def watchMachine : Machine Watch WorkerInput Unit where
  step s input := (s.step input, [])

/-- **Failures are detected.** After every step, if no event was refused since one last got through,
the worker has given up exactly if the injections of 32 events of the keyboard, or of 32 of the
mouse, have failed since. -/
theorem failures_detected (config : InputConfig) (layout : String) (inputs : List WorkerInput) :
    watchMachine.Always Watch.Detects (.start config layout) inputs :=
  Machine.always_of_invariant (C := fun _ _ => True) (fun _ _ h _ => h.step) (fun _ h => h.detects)
    (Watch.counted_start config layout) Machine.along_true

/-- The outcomes of a kind, but for those that were refused. -/
def attemptsOf (kind : EventKind) (outcomes : List (EventKind × Outcome)) : List Outcome :=
  (outcomes.filter fun o => o.1 = kind ∧ o.2 ≠ .rejected).map Prod.snd

/-- 31 times the pointer does not move, then A is pressed, and again the pointer does not move. -/
def deadPointer : List WorkerInput :=
  let handle (event : InputEvent) (result : Bool) : List WorkerInput :=
    [.enqueue event, .work ⟨⟨0, true, true⟩, fun _ => result, fun _ => result⟩]
  (List.replicate 31 (handle (.mouse (.move 0 0)) false)).flatten ++
    handle (.keyboard (.pressed 0x1E false)) true ++ handle (.mouse (.move 0 0)) false

/-- The last 32 events of the mouse all failed, and the connection goes on. -/
theorem dead_pointer_unnoticed :
    ¬ watchMachine.Always (fun s => s.declared = true ↔ ∃ kind,
        INPUT_FAILURE_THRESHOLD ≤ (attemptsOf kind s.outcomes).length ∧
          ∀ o ∈ (attemptsOf kind s.outcomes).take INPUT_FAILURE_THRESHOLD, o = .failed)
      (.start ⟨true, true⟩ "us") deadPointer := by
  intro h
  have hmouse : INPUT_FAILURE_THRESHOLD ≤ (attemptsOf .mouse (watchMachine.exec
      (.start ⟨true, true⟩ "us") deadPointer).outcomes).length ∧
        ∀ o ∈ (attemptsOf .mouse (watchMachine.exec (.start ⟨true, true⟩ "us")
          deadPointer).outcomes).take INPUT_FAILURE_THRESHOLD, o = .failed := by
    decide +kernel
  have hdeclared := h.last.mpr ⟨.mouse, hmouse⟩
  revert hdeclared
  decide +kernel

end Input

end Cheirizo
