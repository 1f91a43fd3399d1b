import Cheirizo.Resize.Pipeline

/-!
# The history of a resize

`ResizeCoordinator` keeps only the current stage of the current transaction. This module keeps the
log of its calls next to it and says what the log must look like: how a size became the advertised
one, and how soon after a commit or a failure the next size can be handed out.

## Stages over prefixes

A stage is a property of the log up to a call: `HandedOut`, `CommandAccepted`, `CommitBegun`,
`Applied`, each stated over the prefix before the call that enters it. `Recorded` ties the stages to
the slots of the coordinator, and every transition keeps it.

## Main results

* `commit_safety` — the slot discipline in every reachable state, and the whole path of every
  advertised size
* `resize_rate_limit` — nothing is handed out for 2 s after a commit and for 250 ms after an
  accepted failure
-/

namespace Cheirizo

/-- One call, with the coordinator it found and what it returned. -/
structure ResizeCall where
  now : Instant
  op : ResizeOp
  before : ResizeCoordinator
  result : ResizeResult
  deriving DecidableEq, Repr

namespace ResizeCall

/-- The size a `take_ready` call handed out. -/
def took (k : ResizeCall) : Option ResizeRequest :=
  match k.op, k.result with
  | .takeReady, .size r => r
  | _, _ => none

/-- The call returned `true`. -/
def Accepted (k : ResizeCall) : Prop := k.result = .accepted true

instance (k : ResizeCall) : Decidable k.Accepted := inferInstanceAs (Decidable (_ = _))

theorem took_of_ne_takeReady {k : ResizeCall} (h : k.op ≠ .takeReady) : k.took = none := by
  unfold took
  split
  · exact absurd ‹_› h
  · rfl

theorem took_of_no_size {k : ResizeCall} (h : ∀ r, k.result ≠ .size (some r)) : k.took = none := by
  unfold took
  split
  · rename_i r _ hres
    cases r with
    | none => rfl
    | some r => exact absurd hres (h r)
  · rfl

end ResizeCall

/-- The coordinator, with every call logged. -/
def coordinatorMachine : Machine ResizeCoordinator (ResizeOp × Instant) ResizeCall where
  step c e := ((c.apply e.2 e.1).2, [⟨e.2, e.1, c, (c.apply e.2 e.1).1⟩])

/-- A call is logged with the state before it. -/
@[simp] theorem coordinatorMachine_step (c : ResizeCoordinator) (e : ResizeOp × Instant) :
    coordinatorMachine.step c e =
      ((c.apply e.2 e.1).2, [⟨e.2, e.1, c, (c.apply e.2 e.1).1⟩]) := rfl

namespace ResizeCoordinator

variable {c c' : ResizeCoordinator} {now : Instant} {op : ResizeOp} {res : ResizeResult}

/-! ### The deadline belongs to the size in flight -/

/-- A deadline is running only for a size in flight. -/
def DeadlineInFlight (c : ResizeCoordinator) : Prop :=
  c.inFlight = none → c.realizationDeadline = none

/-- After a hand-out a size is in flight, and nothing is asked. -/
theorem DeadlineInFlight.takePending (h : c.DeadlineInFlight) :
    (c.takePending now).2.DeadlineInFlight := by
  rw [ResizeCoordinator.takePending]
  split
  · exact h
  split
  · exact h
  split
  · exact h
  · intro hf
    cases hf

theorem DeadlineInFlight.takeReady (h : c.DeadlineInFlight) :
    (c.takeReady now).2.DeadlineInFlight := by
  rw [ResizeCoordinator.takeReady]
  split
  · exact h
  split
  · split
    · refine DeadlineInFlight.takePending ?_
      intro _
      rfl
    · exact h
  · exact h.takePending

/-- A deadline is set with the size in flight, and goes with it. -/
theorem DeadlineInFlight.transition (h : c.DeadlineInFlight) (hop : op ≠ .takeReady)
    (ht : Transition now op c res c') : c'.DeadlineInFlight := by
  cases ht with
  | idle => exact h
  | requestActive => exact h
  | requestApplied => exact h
  | requestPending => exact h
  | dropHeld => exact absurd rfl hop
  | discard => exact absurd rfl hop
  | handOut => exact absurd rfl hop
  | commandSucceeded hf =>
    intro hf'
    rw [hf] at hf'
    cases hf'
  | failSuperseded => intro _; rfl
  | failRetry => intro _; rfl
  | commitBegun => intro _; rfl
  | commitSuperseded => exact h
  | commitRetry => exact h
  | committed => exact h

theorem DeadlineInFlight.apply (h : c.DeadlineInFlight) : (c.apply now op).2.DeadlineInFlight := by
  by_cases hop : op = .takeReady
  · subst hop
    exact h.takeReady
  · exact h.transition hop (transition_apply c now op)

end ResizeCoordinator

/-! ### The stages of a transaction -/

/-- Some call of the log satisfies `P`, given the calls before it. -/
def Logged (P : List ResizeCall → ResizeCall → Prop) (log : List ResizeCall) : Prop :=
  ∃ before k after, log = before ++ k :: after ∧ P before k

/-- What was logged stays logged. -/
theorem Logged.snoc {P : List ResizeCall → ResizeCall → Prop} {log : List ResizeCall}
    (h : Logged P log) (k : ResizeCall) : Logged P (log ++ [k]) := by
  obtain ⟨before, k', after, rfl, hk⟩ := h
  exact ⟨before, k', after ++ [k], by simp, hk⟩

/-- The last call is logged. -/
theorem logged_snoc {P : List ResizeCall → ResizeCall → Prop} {log : List ResizeCall}
    {k : ResizeCall} (h : P log k) : Logged P (log ++ [k]) := ⟨log, k, [], rfl, h⟩

/-- The last size `take_ready` handed out is `r`. -/
def HandedOut (r : ResizeRequest) (log : List ResizeCall) : Prop :=
  ∃ before k after, log = before ++ k :: after ∧ k.took = some r ∧ ∀ k' ∈ after, k'.took = none

/-- What was handed out stays so until the next hand-out. -/
theorem HandedOut.snoc {r : ResizeRequest} {log : List ResizeCall} {k : ResizeCall}
    (h : HandedOut r log) (hk : k.took = none) : HandedOut r (log ++ [k]) := by
  obtain ⟨before, k', after, rfl, hk', hafter⟩ := h
  refine ⟨before, k', after ++ [k], by simp, hk', ?_⟩
  intro j hj
  rcases List.mem_append.mp hj with hj | hj
  · exact hafter j hj
  · rw [List.mem_singleton.mp hj]
    exact hk

/-- `mark_command_succeeded` accepted `r` while `r` was the last size handed out, which set the
deadline `d`. -/
def CommandAccepted (r : ResizeRequest) (d : Instant) : List ResizeCall → Prop :=
  Logged fun before k => HandedOut r before ∧ k.op = .markCommandSucceeded r ∧ k.Accepted ∧
    d = k.now + ResizeCoordinator.realizationTimeout

/-- `begin_commit` accepted `r` no later than the deadline of an accepted command for `r`, with no
newer request pending. -/
def CommitBegun (r : ResizeRequest) : List ResizeCall → Prop :=
  Logged fun before k => k.op = .beginCommit r ∧ k.Accepted ∧ k.before.pending = none ∧
    ∃ d, CommandAccepted r d before ∧ k.before.realizationDeadline = some d ∧ k.now ≤ d

/-- `mark_applied` accepted `r` after its commit had begun. -/
def Applied (r : ResizeRequest) : List ResizeCall → Prop :=
  Logged fun before k => k.op = .markApplied r ∧ k.Accepted ∧ CommitBegun r before

/-- The call changed the advertised size. -/
def ResizeCall.Applies (k : ResizeCall) : Prop := (∃ r, k.op = .markApplied r) ∧ k.Accepted

theorem ResizeCall.not_applies_of_op {k : ResizeCall} (h : ∀ r, k.op ≠ .markApplied r) :
    ¬ k.Applies := by
  rintro ⟨⟨r, hr⟩, -⟩
  exact h r hr

namespace ResizeCoordinator

variable {c c' : ResizeCoordinator} {now : Instant} {op : ResizeOp} {res : ResizeResult}
  {init : ResizeRequest} {log : List ResizeCall}

/-- What the log must hold for the slots of the coordinator to be as they are. -/
structure Recorded (init : ResizeRequest) (log : List ResizeCall) (c : ResizeCoordinator) :
    Prop where
  inFlight : ∀ r, c.inFlight = some r → HandedOut r log
  deadline : ∀ r d, c.inFlight = some r → c.realizationDeadline = some d →
    CommandAccepted r d log
  committing : ∀ r, c.committing = some r → CommitBegun r log
  applied : (c.applied = init ∧ ∀ k ∈ log, ¬ k.Applies) ∨ Applied c.applied log

/-- At first no slot is taken, and nothing is logged. -/
theorem recorded_new (width height : UInt16) :
    (new width height).Recorded ⟨width, height⟩ [] where
  inFlight r h := by cases h
  deadline r d h := by cases h
  committing r h := by cases h
  applied := by simp [new]

/-- Only one call changes the size applied. -/
theorem Recorded.applied_snoc (h : c.Recorded init log) {k : ResizeCall} (hk : ¬ k.Applies) :
    (c.applied = init ∧ ∀ k' ∈ log ++ [k], ¬ k'.Applies) ∨ Applied c.applied (log ++ [k]) := by
  rcases h.applied with ⟨hinit, hnone⟩ | happ
  · left
    refine ⟨hinit, ?_⟩
    intro k' hk'
    rcases List.mem_append.mp hk' with hk' | hk'
    · exact hnone k' hk'
    · rw [List.mem_singleton.mp hk']
      exact hk
  · exact .inr (happ.snoc k)

/-- A call that enters no stage: it hands nothing out, applies nothing, and fills no slot. -/
theorem Recorded.keep (h : c.Recorded init log) {k : ResizeCall} (htook : k.took = none)
    (hk : ¬ k.Applies) (hf : ∀ r, c'.inFlight = some r → c.inFlight = some r)
    (hd : ∀ r d, c'.inFlight = some r → c'.realizationDeadline = some d →
      c.realizationDeadline = some d)
    (hc : ∀ r, c'.committing = some r → c.committing = some r) (ha : c'.applied = c.applied) :
    c'.Recorded init (log ++ [k]) where
  inFlight r hr := (h.inFlight r (hf r hr)).snoc htook
  deadline r d hr hrd := (h.deadline r d (hf r hr) (hd r d hr hrd)).snoc k
  committing r hr := (h.committing r (hc r hr)).snoc k
  applied := by
    rw [ha]
    exact h.applied_snoc hk

/-- One call. Each slot is entered from the one before. -/
theorem Recorded.transition (h : c.Recorded init log) (ht : Transition now op c res c') :
    c'.Recorded init (log ++ [⟨now, op, c, res⟩]) := by
  cases ht with
  | idle hop hres hacc =>
    exact h.keep (ResizeCall.took_of_no_size hres) (fun hk => hacc hk.2) (fun _ => id)
      (fun _ _ _ => id) (fun _ => id) rfl
  | requestActive =>
    exact h.keep rfl (ResizeCall.not_applies_of_op (by simp)) (fun _ => id) (fun _ _ _ => id)
      (fun _ => id) rfl
  | requestApplied =>
    exact h.keep rfl (ResizeCall.not_applies_of_op (by simp)) (fun _ => id) (fun _ _ _ => id)
      (fun _ => id) rfl
  | requestPending =>
    exact h.keep rfl (ResizeCall.not_applies_of_op (by simp)) (fun _ => id) (fun _ _ _ => id)
      (fun _ => id) rfl
  | dropHeld =>
    exact h.keep rfl (ResizeCall.not_applies_of_op (by simp)) (by simp) (by simp) (fun _ => id) rfl
  | discard hc hp hg hc' hp' hcm ha =>
    exact h.keep rfl (ResizeCall.not_applies_of_op (by simp)) (by simp [hc']) (by simp [hc'])
      (by simp [hcm]) ha
  | @handOut _ r hc hp ha hg =>
    refine ⟨?_, by simp, by simp [hc],
      h.applied_snoc (ResizeCall.not_applies_of_op (by simp))⟩
    intro r' hr'
    obtain rfl : r = r' := by simpa using hr'
    exact ⟨log, _, [], rfl, rfl, by simp⟩
  | @commandSucceeded _ r hf hp =>
    refine ⟨?_, ?_, fun r' hr' => (h.committing r' hr').snoc _,
      h.applied_snoc (ResizeCall.not_applies_of_op (by simp))⟩
    · intro r' hr'
      exact (h.inFlight r' hr').snoc rfl
    · intro r' d hr' hd
      obtain rfl : r = r' := by simpa [hf] using hr'
      refine logged_snoc ⟨h.inFlight r hf, rfl, rfl, ?_⟩
      simpa using hd.symm
  | failSuperseded hop hf hp hacc =>
    exact h.keep (ResizeCall.took_of_ne_takeReady (by rcases hop with rfl | rfl <;> simp))
      (fun hk => hacc hk.2) (by simp) (by simp) (fun _ => id) rfl
  | failRetry hop hf hp =>
    refine h.keep (ResizeCall.took_of_ne_takeReady (by rcases hop with rfl | rfl <;> simp)) ?_
      (by simp) (by simp) (fun _ => id) rfl
    rintro ⟨⟨r, rfl⟩, -⟩
    simp at hop
  | @commitBegun _ r d hf hp hd hnow =>
    refine ⟨by simp, by simp, ?_, h.applied_snoc (ResizeCall.not_applies_of_op (by simp))⟩
    intro r' hr'
    obtain rfl : r = r' := by simpa using hr'
    exact logged_snoc ⟨rfl, rfl, hp, d, h.deadline r d hf hd, hd, hnow⟩
  | commitSuperseded =>
    exact h.keep rfl (ResizeCall.not_applies_of_op (by simp)) (fun _ => id) (fun _ _ _ => id)
      (by simp) rfl
  | commitRetry =>
    exact h.keep rfl (ResizeCall.not_applies_of_op (by simp)) (fun _ => id) (fun _ _ _ => id)
      (by simp) rfl
  | @committed _ r hc =>
    refine ⟨fun r' hr' => (h.inFlight r' hr').snoc rfl,
      fun r' d hr' hd => (h.deadline r' d hr' hd).snoc _, by simp, .inr ?_⟩
    exact logged_snoc ⟨rfl, rfl, h.committing r hc⟩

/-! ### Commit safety -/

/-- The slot discipline with its history. -/
structure Safe (init : ResizeRequest) (log : List ResizeCall) (c : ResizeCoordinator) : Prop where
  wellFormed : c.WellFormed
  deadline : c.DeadlineInFlight
  recorded : c.Recorded init log

theorem safe_new (width height : UInt16) : (new width height).Safe ⟨width, height⟩ [] where
  wellFormed := wellFormed_new width height
  deadline _ := rfl
  recorded := recorded_new width height

/-- By induction on the calls. -/
theorem Safe.exec (h : c.Safe init log) (es : List (ResizeOp × Instant)) :
    (coordinatorMachine.exec c es).Safe init (log ++ coordinatorMachine.trace c es) := by
  induction es generalizing c log with
  | nil => simpa [Machine.trace] using h
  | cons e es ih =>
    have ht := transition_apply c e.2 e.1
    have hstep : (c.apply e.2 e.1).2.Safe init (log ++ [⟨e.2, e.1, c, (c.apply e.2 e.1).1⟩]) :=
      ⟨h.wellFormed.transition ht, h.deadline.apply, h.recorded.transition ht⟩
    have hrun := ih hstep
    rwa [List.append_assoc] at hrun

/-- **Commit safety.** In every reachable state at most one of the two slots is taken and a
deadline runs only for a size in flight; and the advertised size is the initial one, with no call
ever having changed it, or one that went through every stage: handed out, its command accepted
while it was the last size handed out, its commit begun no later than the deadline this set and
with nothing newer pending, and applied. -/
theorem commit_safety (width height : UInt16) (es : List (ResizeOp × Instant)) :
    ((coordinatorMachine.exec (new width height) es).inFlight = none ∨
      (coordinatorMachine.exec (new width height) es).committing = none) ∧
    ((coordinatorMachine.exec (new width height) es).realizationDeadline.isSome →
      (coordinatorMachine.exec (new width height) es).inFlight.isSome) ∧
    (((coordinatorMachine.exec (new width height) es).applied = ⟨width, height⟩ ∧
        ∀ k ∈ coordinatorMachine.trace (new width height) es, ¬ k.Applies) ∨
      Applied (coordinatorMachine.exec (new width height) es).applied
        (coordinatorMachine.trace (new width height) es)) := by
  have h := (safe_new width height).exec es
  refine ⟨?_, ?_, h.recorded.applied⟩
  · by_cases hc : (coordinatorMachine.exec (new width height) es).committing = none
    · exact .inr hc
    · exact .inl (h.wellFormed.exclusive hc)
  · intro hd
    rw [Option.isSome_iff_ne_none] at hd ⊢
    intro hf
    exact hd (h.deadline hf)

/-! ### The rate limit

Three paths set the guard and none of them asks what it was. That no guard is ever shortened is
the doing of the slots: a transaction must be in flight or committing for a path to be taken, and
behind a closed guard neither slot can be filled. -/

/-- Nothing is in flight or committing, and the guard is closed until `d`. -/
structure Resting (d : Instant) (c : ResizeCoordinator) : Prop where
  inFlight : c.inFlight = none
  committing : c.committing = none
  guard : c.retryNotBefore = some d

/-- Until the rest is over nothing is handed out. -/
theorem Resting.transition {d : Instant} (h : c.Resting d) (hnow : now < d)
    (ht : Transition now op c res c') :
    c'.Resting d ∧ (ResizeCall.mk now op c res).took = none := by
  have hheld : c.held now = true := by simp [held, h.guard, hnow]
  obtain ⟨hf, hc, hg⟩ := h
  cases ht with
  | idle hop hres => exact ⟨⟨hf, hc, hg⟩, ResizeCall.took_of_no_size hres⟩
  | requestActive => exact ⟨⟨hf, hc, hg⟩, rfl⟩
  | requestApplied => exact ⟨⟨hf, hc, hg⟩, rfl⟩
  | requestPending => exact ⟨⟨hf, hc, hg⟩, rfl⟩
  | dropHeld _ hf' => exact absurd hf hf'
  | discard _ _ hg' => simp [hg'] at hheld
  | handOut _ _ _ hg' => simp [hg'] at hheld
  | commandSucceeded hf' => simp [hf'] at hf
  | failSuperseded _ hf' => simp [hf'] at hf
  | failRetry _ hf' => simp [hf'] at hf
  | commitBegun hf' => simp [hf'] at hf
  | commitSuperseded hc' => simp [hc'] at hc
  | commitRetry hc' => simp [hc'] at hc
  | committed hc' => simp [hc'] at hc

/-- Every call of a run is logged at a time the run was given. -/
theorem now_mem_of_mem_trace {es : List (ResizeOp × Instant)} {k : ResizeCall}
    (hk : k ∈ coordinatorMachine.trace c es) : k.now ∈ es.map Prod.snd := by
  induction es generalizing c with
  | nil => cases hk
  | cons e es ih =>
    rw [Machine.trace_cons, coordinatorMachine_step, List.singleton_append, List.mem_cons] at hk
    rw [List.map_cons, List.mem_cons]
    rcases hk with rfl | hk
    · exact .inl rfl
    · exact .inr (ih hk)

/-- Behind a closed guard nothing is handed out until it opens. -/
theorem Resting.took_eq_none {d : Instant} (h : c.Resting d) {es : List (ResizeOp × Instant)}
    (hclock : ClockMonotone es) {k : ResizeCall} (hk : k ∈ coordinatorMachine.trace c es)
    (hnow : k.now < d) : k.took = none := by
  induction es generalizing c with
  | nil => cases hk
  | cons e es ih =>
    obtain ⟨hle, hclock⟩ := List.pairwise_cons.mp hclock
    rw [Machine.trace_cons, coordinatorMachine_step, List.singleton_append, List.mem_cons] at hk
    have hstep : e.2 < d → _ := fun he => h.transition he (transition_apply c e.2 e.1)
    rcases hk with rfl | hk
    · exact (hstep hnow).2
    · have he : e.2 ≤ k.now := hle _ (now_mem_of_mem_trace hk)
      exact ih (hstep (he.trans_lt hnow)).1 hclock hk

/-- An accepted commit rests the coordinator for the reactivation guard. -/
theorem Transition.resting_of_applied {r : ResizeRequest} (ht : Transition now op c res c')
    (hw : c.WellFormed) (hop : op = .markApplied r) (hres : res = .accepted true) :
    c'.Resting (now + reactivationGuard) := by
  subst hop hres
  cases ht with
  | idle _ _ hacc => exact absurd rfl hacc
  | failSuperseded hop => simp at hop
  | failRetry hop => simp at hop
  | committed hc => exact ⟨hw.exclusive (by simp [hc]), rfl, rfl⟩

/-- An accepted failure of a command or a commit rests the coordinator for the retry delay. -/
theorem Transition.resting_of_failed {r : ResizeRequest} (ht : Transition now op c res c')
    (hw : c.WellFormed) (hop : op = .markFailed r ∨ op = .markCommitFailed r)
    (hres : res = .accepted true) : c'.Resting (now + retryDelay) := by
  subst hres
  cases ht with
  | idle _ _ hacc => exact absurd rfl hacc
  | commandSucceeded => simp at hop
  | failSuperseded _ _ _ hacc => exact absurd rfl hacc
  | failRetry _ hf =>
    refine ⟨rfl, ?_, rfl⟩
    by_contra hc
    simp [hw.exclusive hc] at hf
  | commitBegun => simp at hop
  | commitRetry hc => exact ⟨hw.exclusive (by simp [hc]), rfl, rfl⟩
  | committed => simp at hop

/-- What the earlier call of two imposes on the later one. -/
def RateLimited (a b : ResizeCall) : Prop :=
  (∀ r, a.op = .markApplied r → a.Accepted → b.now < a.now + seconds 2 → b.took = none) ∧
  (∀ r, a.op = .markFailed r ∨ a.op = .markCommitFailed r → a.Accepted →
    b.now < a.now + millis 250 → b.took = none)

/-- By induction on the calls, since the clock does not go back. -/
theorem WellFormed.rateLimited (h : c.WellFormed) {es : List (ResizeOp × Instant)}
    (hclock : ClockMonotone es) : (coordinatorMachine.trace c es).Pairwise RateLimited := by
  induction es generalizing c with
  | nil => exact List.Pairwise.nil
  | cons e es ih =>
    obtain ⟨-, hclock'⟩ := List.pairwise_cons.mp hclock
    have ht := transition_apply c e.2 e.1
    rw [Machine.trace_cons, coordinatorMachine_step, List.singleton_append, List.pairwise_cons]
    refine ⟨?_, ih (h.transition ht) hclock'⟩
    intro k hk
    constructor
    · intro r hop hacc hnow
      exact (ht.resting_of_applied h hop hacc).took_eq_none hclock' hk hnow
    · intro r hop hacc hnow
      exact (ht.resting_of_failed h hop hacc).took_eq_none hclock' hk hnow

/-- **The rate limit.** With a clock that does not run backwards, a commit accepted at `t` is
followed by no handed-out size before `t` + 2 s, and an accepted failure of a command or a commit
by none before `t` + 250 ms, whatever is called in between. -/
theorem resize_rate_limit (width height : UInt16) (es : List (ResizeOp × Instant))
    (hclock : ClockMonotone es) :
    (coordinatorMachine.trace (new width height) es).Pairwise RateLimited :=
  (wellFormed_new width height).rateLimited hclock

/-- A resize that fails once, is retried and committed, and is followed by a request that has to
wait. -/
def retriedResize : List (ResizeOp × Instant) :=
  [(.request ⟨200, 150⟩, 0), (.takeReady, 0), (.markFailed ⟨200, 150⟩, millis 1),
   (.takeReady, millis 250), (.takeReady, millis 251),
   (.markCommandSucceeded ⟨200, 150⟩, millis 260),
   (.beginCommit ⟨200, 150⟩, millis 300), (.markApplied ⟨200, 150⟩, millis 310),
   (.request ⟨300, 200⟩, millis 320), (.takeReady, millis 2309), (.takeReady, millis 2310)]

theorem resize_rate_limit_retriedResize :
    (coordinatorMachine.trace (new 100 100) retriedResize).map ResizeCall.took =
      [none, some ⟨200, 150⟩, none, none, some ⟨200, 150⟩, none, none, none, none, none,
        some ⟨300, 200⟩] ∧
    (coordinatorMachine.exec (new 100 100) retriedResize).applied = ⟨200, 150⟩ ∧
    (coordinatorMachine.trace (new 100 100) retriedResize).Pairwise RateLimited :=
  ⟨by decide, by decide, resize_rate_limit 100 100 retriedResize (by decide)⟩

end ResizeCoordinator

end Cheirizo
