import Cheirizo.Sesman.Manager
import Mathlib.Tactic.Ring

/-!
# What the session manager's routines do

Every routine only ever moves time on, appends to the log, and keeps, removes or replaces the
registry. `Emits J` is that statement, with `J` a property of each new log entry; it is a preorder,
so it passes through sequencing, and each routine below is shown to emit no more than it does.
A property of what the manager does is then a choice of `J`.

## Main results

* `poll_isSome`, `awaitStopped_ends`, `waitUntilReady_ends` — the bound on the number of polls is
  never what ends a wait
* `steps_teardown` — teardown signals authorized targets, cleans up and removes, and nothing else
* `status_spec` — a status reports the stored state and changes nothing
-/

namespace Cheirizo

namespace Sesman

variable {host : Host} {config : SesmanConfig}

/-! ### Waiting ends at its deadline -/

/-- The clock has not gone back. -/
def ClockLE (w w' : World) : Prop := w.clock ≤ w'.clock

instance : IsPreorder World ClockLE where
  refl w := Nat.le_refl w.clock
  trans _ _ _ := Nat.le_trans

theorem clockLE_observe {α : Type} (x : Probe α) : Prog.Steps ClockLE (observe host x) :=
  fun _ => Nat.le_add_right ..

/-- With enough polls to reach the deadline, a body that gives up past its deadline ends the
wait. -/
theorem poll_isSome {α : Type} {body : Routine (Option α)} {deadline : Instant}
    (hclock : Prog.Steps ClockLE body)
    (hbody : ∀ w, deadline ≤ w.clock → (body.run w).1 ≠ .ok none) (n : ℕ) (w : World)
    (hn : deadline ≤ w.clock + n * pollInterval) :
    ((poll host body (n + 1)).run w).1 ≠ .ok none := by
  induction n generalizing w with
  | zero =>
    have hend := hbody w (by simpa using hn)
    rw [poll, Prog.run_bind]
    rcases hr : body.run w with ⟨_ | _ | a, w'⟩
    · simp
    · simp [hr] at hend
    · simp
  | succ n ih =>
    have hle := hclock w
    rw [poll, Prog.run_bind]
    rcases hr : body.run w with ⟨_ | _ | a, w'⟩
    · simp
    · rw [hr] at hle
      refine ih _ ?_
      calc deadline
          ≤ w.clock + (n + 1) * pollInterval := hn
        _ ≤ w'.clock + (n + 1) * pollInterval := Nat.add_le_add_right hle _
        _ = w'.clock + pollInterval + n * pollInterval := by ring
        _ ≤ w'.clock + pollInterval + (host w'.tick).drift + n * pollInterval :=
          Nat.add_le_add_right (Nat.le_add_right ..) _
    · simp

/-- The polls that fit into a timeout outlast it. -/
theorem le_pollCount (start : Instant) (timeoutMs : ℕ) :
    start + millis timeoutMs ≤ start + (timeoutMs / 100 + 1) * pollInterval := by
  refine Nat.add_le_add_left ?_ _
  simp only [pollInterval, millis]
  omega

theorem clockLE_stopPoll (targets : List (ComponentState × Bool)) (deadline : Instant) :
    Prog.Steps ClockLE (stopPoll host targets deadline) := by
  refine (Prog.steps_gets _).bind fun now => Prog.Steps.ite (fun _ => ?_) fun _ => Prog.steps_pure _
  exact (clockLE_observe _).bind fun _ => Prog.steps_pure _

/-- Past the deadline the wait for the components to stop is over. -/
theorem stopPoll_of_deadline_le (targets : List (ComponentState × Bool)) {deadline : Instant}
    {w : World} (h : deadline ≤ w.clock) :
    ((stopPoll host targets deadline).run w).1 ≠ .ok none := by
  simp only [stopPoll, Prog.run_bind, Prog.run_gets]
  rw [if_neg (Nat.not_lt.mpr h)]
  simp

/-- A wait for the targets to stop ends by itself. -/
theorem awaitStopped_ends (targets : List (ComponentState × Bool)) (w : World) :
    ((poll host (stopPoll host targets (w.clock + millis config.stopTimeoutMs))
      (pollCount config.stopTimeoutMs)).run w).1 ≠ .ok none :=
  poll_isSome (clockLE_stopPoll targets _) (fun _ => stopPoll_of_deadline_le targets) _ _
    (le_pollCount ..)

theorem clockLE_giveUp (component : ComponentConfig) (message : String) :
    Prog.Steps ClockLE (giveUp component message) :=
  Prog.Steps.ite (fun _ => Prog.steps_fail _) fun _ => Prog.steps_pure _

theorem giveUp_ne_none (component : ComponentConfig) (message : String) (w : World) :
    (giveUp component message).Post w fun r _ => r ≠ .ok none := by
  rw [giveUp, Prog.Post]
  split <;> simp

theorem clockLE_readyPoll (component : ComponentConfig) (state : SessionState)
    (deadline : Instant) :
    Prog.Steps ClockLE (readyPoll host config component state deadline) := by
  refine (clockLE_observe _).bind fun alive =>
    Prog.Steps.ite (fun _ => clockLE_giveUp _ _) fun _ => ?_
  refine (clockLE_observe _).bind fun ready =>
    Prog.Steps.ite (fun _ => Prog.steps_pure _) fun _ => ?_
  refine (Prog.steps_gets _).bind fun now =>
    Prog.Steps.ite (fun _ => clockLE_giveUp _ _) fun _ => ?_
  exact Prog.steps_pure _

/-- Past the deadline the wait for a component to be ready is over. -/
theorem readyPoll_of_deadline_le (component : ComponentConfig) (state : SessionState)
    {deadline : Instant} {w : World} (h : deadline ≤ w.clock) :
    (readyPoll host config component state deadline).Post w fun r _ => r ≠ .ok none := by
  have hobserve {α : Type} (x : Probe α) {w : World} (h : deadline ≤ w.clock) :
      (observe host x).Post w fun _ w' => deadline ≤ w'.clock :=
    Nat.le_trans h (clockLE_observe x w)
  refine (hobserve _ h).bind (fun alive w₁ h₁ => ?_) fun _ _ _ => by simp
  split
  · exact giveUp_ne_none _ _ _
  refine (hobserve _ h₁).bind (fun ready w₂ h₂ => ?_) fun _ _ _ => by simp
  split
  · simp [Prog.Post]
  · simp only [Prog.Post, Prog.run_bind, Prog.run_gets]
    rw [if_pos h₂]
    exact giveUp_ne_none _ _ _

/-- A wait for a component to become ready ends by itself. -/
theorem waitUntilReady_ends (component : ComponentConfig) (state : SessionState) (w : World) :
    ((poll host (readyPoll host config component state (w.clock + millis config.startTimeoutMs))
      (pollCount config.startTimeoutMs)).run w).1 ≠ .ok none :=
  poll_isSome (clockLE_readyPoll component state _)
    (fun _ => readyPoll_of_deadline_le component state) _ _ (le_pollCount ..)

/-! ### Emitting actions -/

/-- Time moved on, the registry was kept, removed or replaced by a stored state, and every new
entry of the log satisfies `J`. -/
structure Emits (J : Action → Prop) (w w' : World) : Prop where
  tick : w.tick ≤ w'.tick
  registry : w'.registry = w.registry ∨ w'.registry = .missing ∨
    ∃ state, w'.registry = .stored state ∧ J (.storeState state)
  log : ∃ new, w'.log = w.log ++ new ∧ (∀ a ∈ new, J a) ∧
    ∀ k target sig, Action.signal k target sig ∈ new → w.tick ≤ k

variable {J : Action → Prop}

/-- A step that moves time on and leaves the registry and the log alone emits nothing. -/
theorem Emits.of_eq {w w' : World} (htick : w.tick ≤ w'.tick) (hregistry : w'.registry = w.registry)
    (hlog : w'.log = w.log) : Emits J w w' :=
  ⟨htick, .inl hregistry, [], by rw [hlog, List.append_nil], by simp, by simp⟩

/-- Nothing happens. -/
theorem Emits.refl (w : World) : Emits J w w := .of_eq (Nat.le_refl _) rfl rfl

/-- One after the other. -/
theorem Emits.trans {w₁ w₂ w₃ : World} (h : Emits J w₁ w₂) (h' : Emits J w₂ w₃) :
    Emits J w₁ w₃ := by
  obtain ⟨htick, hregistry, new, hlog, hnew, hsince⟩ := h
  obtain ⟨htick', hregistry', new', hlog', hnew', hsince'⟩ := h'
  refine ⟨le_trans htick htick', ?_, new ++ new', by rw [hlog', hlog, List.append_assoc], ?_, ?_⟩
  · rcases hregistry' with h | h
    · rwa [h]
    · exact .inr h
  · intro a hmem
    exact (List.mem_append.mp hmem).elim (hnew a) (hnew' a)
  · intro k target sig hmem
    rcases List.mem_append.mp hmem with hmem | hmem
    · exact hsince k target sig hmem
    · exact le_trans htick (hsince' k target sig hmem)

instance : IsPreorder World (Emits J) where
  refl := Emits.refl
  trans _ _ _ := Emits.trans

/-- Looking at the host emits nothing. -/
theorem steps_observe {α : Type} (x : Probe α) : Prog.Steps (Emits J) (observe host x) :=
  fun w => .of_eq (x.forward w.tick) rfl rfl

theorem steps_sleep (duration : ℕ) : Prog.Steps (Emits J) (sleep host duration) :=
  fun _ => .of_eq (Nat.le_succ _) rfl rfl

/-- Doing anything but sending a signal needs only `J` of it. -/
theorem steps_act {a : Action} (hJ : J a) (ha : ∀ k target sig, a ≠ .signal k target sig) :
    Prog.Steps (Emits J) (act a) := by
  refine fun w => ⟨Nat.le_refl _, .inl rfl, [a], rfl, by simpa using hJ, ?_⟩
  intro k target sig hmem
  exact absurd (List.mem_singleton.mp hmem).symm (ha k target sig)

/-- A wait emits what its body does. -/
theorem steps_poll {α : Type} {body : Routine (Option α)} (hbody : Prog.Steps (Emits J) body)
    (n : ℕ) : Prog.Steps (Emits J) (poll host body n) := by
  induction n with
  | zero => exact Prog.steps_pure _
  | succ n ih =>
    refine hbody.bind fun r => ?_
    cases r with
    | none => exact (steps_sleep _).bind fun _ => ih
    | some a => exact Prog.steps_pure _

/-- A check that fails the routine or lets it go on. -/
theorem steps_guard {x : Probe Bool} {e : Fault} :
    Prog.Steps (Emits J) (do if !(← observe host x) then Prog.fail e else return () :
      Routine Unit) := by
  refine (steps_observe _).bind fun ok => ?_
  exact Prog.Steps.ite (fun _ => Prog.steps_fail _) fun _ => Prog.steps_pure _

theorem steps_liftFault {α : Type} (r : Except Fault α) : Prog.Steps (Emits J) (liftFault r) := by
  cases r with
  | ok a => exact Prog.steps_pure _
  | error e => exact Prog.steps_fail _

/-! ### Files -/

/-- One entry, for all the paths. -/
theorem steps_cleanupRuntimePaths (hJ : J .cleanupRuntimePaths) :
    Prog.Steps (Emits J) (cleanupRuntimePaths host) :=
  (steps_act hJ (by simp)).bind fun _ => steps_guard

theorem steps_removeStateFile (hJ : J .removeState) :
    Prog.Steps (Emits J) (removeStateFile host) := by
  refine (Prog.steps_gets _).bind fun registry => ?_
  split
  · exact Prog.steps_pure _
  · refine (steps_observe _).bind fun ok => Prog.Steps.ite (fun _ => Prog.steps_fail _) fun _ => ?_
    refine (steps_act hJ (by simp)).bind fun _ w => ?_
    exact ⟨Nat.le_refl _, .inr (.inl rfl), [], (List.append_nil _).symm, by simp, by simp⟩

theorem steps_writeState {state : SessionState} (hJ : J (.storeState state)) :
    Prog.Steps (Emits J) (writeState host state) := by
  refine (steps_observe _).bind fun ok => Prog.Steps.ite (fun _ => Prog.steps_fail _) fun _ => ?_
  refine (steps_act hJ (by simp)).bind fun _ w => ?_
  exact ⟨Nat.le_refl _, .inr (.inr ⟨state, rfl, hJ⟩), [], (List.append_nil _).symm, by simp,
    by simp⟩

/-! ### Status -/

/-- The routine only looked: time moved on, and nothing else happened. -/
structure Looked (w w' : World) : Prop where
  tick : w.tick ≤ w'.tick
  registry : w'.registry = w.registry
  log : w'.log = w.log

instance : IsPreorder World Looked where
  refl _ := ⟨Nat.le_refl _, rfl, rfl⟩
  trans _ _ _ h h' :=
    ⟨le_trans h.tick h'.tick, h'.registry.trans h.registry, h'.log.trans h.log⟩

theorem Looked.emits {w w' : World} (h : Looked w w') : Emits J w w' :=
  .of_eq h.tick h.registry h.log

theorem looked_observe {α : Type} (x : Probe α) : Prog.Steps Looked (observe host x) :=
  fun w => ⟨x.forward w.tick, rfl, rfl⟩

theorem looked_acquireLock : Prog.Steps Looked (acquireLock host) := by
  refine (looked_observe _).bind fun ok => ?_
  exact Prog.Steps.ite (fun _ => Prog.steps_fail _) fun _ => Prog.steps_pure _

theorem looked_prepareDirectories : Prog.Steps Looked (prepareDirectories host config) := by
  refine (looked_observe _).bind fun uid => Prog.Steps.ite (fun _ => Prog.steps_fail _) fun _ => ?_
  refine (looked_observe _).bind fun gid => Prog.Steps.ite (fun _ => Prog.steps_fail _) fun _ => ?_
  refine (looked_observe _).bind fun ready => ?_
  exact Prog.Steps.ite (fun _ => Prog.steps_fail _) fun _ => Prog.steps_pure _

theorem looked_readStateFile : Prog.Steps Looked (readStateFile host) := by
  refine (Prog.steps_gets _).bind fun registry => ?_
  split
  · exact Prog.steps_pure _
  · refine (looked_observe _).bind fun ok => Prog.Steps.ite (fun _ => Prog.steps_fail _) fun _ => ?_
    split
    · exact Prog.steps_pure _
    · exact Prog.steps_fail _

/-- A status leaves the log and the stored state alone. -/
theorem looked_status : Prog.Steps Looked (status host config) := by
  refine looked_readStateFile.bind fun state => ?_
  split
  · exact Prog.steps_pure _
  · exact looked_observe _

/-- A state that was read is the stored one. -/
theorem readStateFile_eq_some {w : World} {state : SessionState}
    (h : ((readStateFile host).run w).1 = .ok (some state)) : w.registry = .stored state := by
  obtain ⟨registry, hregistry, h⟩ := Prog.bind_eq_ok h
  obtain rfl := Except.ok.inj hregistry
  split at h
  · cases h
  · obtain ⟨readable, -, h⟩ := Prog.bind_eq_ok h
    split at h
    · cases h
    · split at h
      · rename_i hstored
        cases h
        exact hstored
      · cases h

/-- What is found of a session goes with the state that was stored. -/
theorem classify_state (state : SessionState) (t : ℕ) :
    ((classify host config state).run t).1.state = some state := rfl

/-- A status that was reported describes the stored state. -/
theorem status_state {w : World} {current : SessionStatus} {state : SessionState}
    (h : ((status host config).run w).1 = .ok current) (hstate : current.state = some state) :
    w.registry = .stored state := by
  obtain ⟨read, hread, h⟩ := Prog.bind_eq_ok h
  cases read with
  | none =>
    cases h
    cases hstate
  | some stored =>
    cases h
    rw [classify_state] at hstate
    cases hstate
    exact readStateFile_eq_some hread

/-- A component that is spawned has some process. -/
theorem steps_spawnComponent {component : ComponentConfig}
    (hJ : ∀ pid, J (.spawn component.name pid)) :
    Prog.Steps (Emits J) (spawnComponent host config component) := by
  refine (steps_observe _).bind fun uid => Prog.Steps.ite (fun _ => Prog.steps_fail _) fun _ => ?_
  refine (steps_observe _).bind fun gid => Prog.Steps.ite (fun _ => Prog.steps_fail _) fun _ => ?_
  refine (steps_observe _).bind fun groups =>
    Prog.Steps.ite (fun _ => Prog.steps_fail _) fun _ => ?_
  refine (steps_observe _).bind fun home => Prog.Steps.ite (fun _ => Prog.steps_fail _) fun _ => ?_
  refine (steps_observe _).bind fun child => ?_
  split
  · exact Prog.steps_fail _
  · refine (steps_act (hJ _) (by simp)).bind fun _ => ?_
    exact Prog.Steps.bind (steps_observe _) fun startedAt => Prog.steps_pure _

theorem steps_giveUp (component : ComponentConfig) (message : String) :
    Prog.Steps (Emits J) (giveUp component message) :=
  Prog.Steps.ite (fun _ => Prog.steps_fail _) fun _ => Prog.steps_pure _

/-- A wait for readiness emits nothing. -/
theorem steps_waitUntilReady {component : ComponentConfig} {state : SessionState} :
    Prog.Steps (Emits J) (waitUntilReady host config component state) := by
  refine (Prog.steps_gets _).bind fun start => (steps_poll ?_ _).bind fun _ => Prog.steps_pure _
  refine (steps_observe _).bind fun alive => Prog.Steps.ite (fun _ => steps_giveUp _ _) fun _ => ?_
  refine (steps_observe _).bind fun ready => Prog.Steps.ite (fun _ => Prog.steps_pure _) fun _ => ?_
  refine (Prog.steps_gets _).bind fun now => Prog.Steps.ite (fun _ => steps_giveUp _ _) fun _ => ?_
  exact Prog.steps_pure _

/-! ### Teardown -/

/-- A signal at `k` comes from an authorized target, which for a single process has just been
authenticated once more. -/
def FromTarget (host : Host) (targets : List (ComponentState × Bool)) (k : ℕ) (pid : ℤ) : Prop :=
  ∃ component, (component, true) ∈ targets ∧
    pid = (if component.processGroup then -component.pid else component.pid) ∧
    (component.processGroup = false →
      ∃ t, (processMatches host (componentSignature component) .signal).run t = (true, k))

variable {targets : List (ComponentState × Bool)}

/-- A signal is one entry, for the process or for its group. -/
theorem emits_signalProcess {pid : ℤ} {group : Bool} {sig : Signal} {w : World}
    (h : J (.signal w.tick (if group then -pid else pid) sig)) :
    Emits J w ((signalProcess host pid group sig).run w).2 := by
  refine ⟨Nat.le_succ _, .inl rfl, [.signal w.tick (if group then -pid else pid) sig], rfl,
    by simpa using h, ?_⟩
  intro k target sig' hmem
  obtain ⟨rfl, -, -⟩ := Action.signal.inj (List.mem_singleton.mp hmem)
  exact Nat.le_refl _

/-- A target found alive was authorized, and a single process has just been authenticated. -/
theorem fromTarget_of_alive {target : ComponentState × Bool} (hmem : target ∈ targets) {t k : ℕ}
    (h : (targetAlive host target).run t = (true, k)) :
    FromTarget host targets k (if target.1.processGroup then -target.1.pid else target.1.pid) := by
  obtain ⟨component, authorized⟩ := target
  cases authorized with
  | false => cases h
  | true =>
    refine ⟨component, hmem, rfl, fun hgroup => ⟨t, ?_⟩⟩
    simpa [targetAlive, hgroup] using h

section Teardown

variable (hsignal : ∀ k pid sig, FromTarget host targets k pid → J (.signal k pid sig))
include hsignal

/-- A target is signalled as it was recorded. -/
theorem steps_signalTarget (sig : Signal) {target : ComponentState × Bool}
    (hmem : target ∈ targets) : Prog.Steps (Emits J) (signalTarget host sig target) := by
  intro w
  refine Prog.step_bind (steps_observe _ w) fun alive halive => ?_
  split
  · have hrun : (targetAlive host target).run w.tick =
        (true, ((observe host (targetAlive host target)).run w).2.tick) := by
      refine Prod.ext ?_ rfl
      simp_all
    have hfrom := fromTarget_of_alive hmem hrun
    refine Prog.step_bind (emits_signalProcess (hsignal _ _ sig hfrom)) fun accepted _ => ?_
    refine Prog.Steps.ite (fun _ => ?_) (fun _ => Prog.steps_pure _) _
    refine (steps_observe _).bind fun _ => ?_
    exact Prog.Steps.ite (fun _ => Prog.steps_fail _) (fun _ => Prog.steps_pure _)
  · exact Emits.refl _

theorem steps_signalTargets (sig : Signal) {rounds : List (ComponentState × Bool)}
    (hsub : ∀ target ∈ rounds, target ∈ targets) :
    Prog.Steps (Emits J) (signalTargets host sig rounds) := by
  induction rounds with
  | nil => exact Prog.steps_pure _
  | cons target rest ih =>
    refine (steps_signalTarget hsignal sig (hsub target (List.mem_cons_self ..))).bind fun _ => ?_
    exact ih fun other hmem => hsub other (List.mem_cons_of_mem _ hmem)

omit hsignal in
/-- A wait for the components to stop emits nothing. -/
theorem steps_awaitStopped :
    Prog.Steps (Emits J) (awaitStopped host config targets) := by
  refine (Prog.steps_gets _).bind fun start => (steps_poll ?_ _).bind fun _ => Prog.steps_pure _
  refine (Prog.steps_gets _).bind fun now => Prog.Steps.ite (fun _ => ?_) fun _ => Prog.steps_pure _
  exact (steps_observe _).bind fun _ => Prog.steps_pure _

/-- What follows authentication signals authorized targets, cleans up and removes the registry. -/
theorem steps_teardown (hcleanup : J .cleanupRuntimePaths) (hremove : J .removeState) :
    Prog.Steps (Emits J) (teardown host config targets) := by
  have hsub : ∀ target ∈ targets.reverse, target ∈ targets := fun _ => List.mem_reverse.mp
  refine (steps_signalTargets hsignal _ hsub).bind fun _ => steps_awaitStopped.bind fun _ => ?_
  refine (steps_signalTargets hsignal _ hsub).bind fun _ => steps_awaitStopped.bind fun _ => ?_
  refine (steps_observe _).bind fun names => Prog.Steps.ite (fun _ => Prog.steps_fail _) fun _ => ?_
  exact (steps_cleanupRuntimePaths hcleanup).bind fun _ => steps_removeStateFile hremove

end Teardown

section Stop

variable (hsignal : ∀ k pid sig, J (.signal k pid sig)) (hcleanup : J .cleanupRuntimePaths)
  (hremove : J .removeState)
include hsignal hcleanup hremove

/-- The teardown of a stored session. -/
theorem steps_stopState (state : SessionState) :
    Prog.Steps (Emits J) (stopState host config state) := by
  refine (steps_observe _).bind fun owned => (steps_observe _).bind fun targets => ?_
  exact steps_teardown (fun k pid sig _ => hsignal k pid sig) hcleanup hremove

theorem steps_stopLocked : Prog.Steps (Emits J) (stopLocked host config) := by
  refine Prog.Steps.bind (fun w => (looked_status w).emits) fun current => ?_
  split
  · exact Prog.steps_pure _
  · exact steps_stopState hsignal hcleanup hremove _

/-- Idle cleanup looks, or stops the session. -/
theorem steps_cleanupIdleLocked : Prog.Steps (Emits J) (cleanupIdleLocked host config) := by
  refine Prog.Steps.bind (fun w => (looked_status w).emits) fun current =>
    Prog.Steps.ite (fun _ => Prog.steps_pure _) fun _ => ?_
  split
  · exact Prog.steps_pure _
  refine Prog.Steps.ite (fun _ => Prog.steps_pure _) fun _ => ?_
  refine (steps_liftFault _).bind fun deadline => ?_
  split
  · exact Prog.steps_pure _
  refine Prog.Steps.bind (steps_observe _) fun now =>
    Prog.Steps.ite (fun _ => Prog.steps_pure _) fun _ => ?_
  exact (steps_stopLocked hsignal hcleanup hremove).bind fun _ => Prog.steps_pure _

/-- The teardown of a session that is idle. -/
theorem steps_cleanupIdle : Prog.Steps (Emits J) (cleanupIdle host config) :=
  Prog.Steps.bind (fun w => (looked_acquireLock w).emits) fun _ =>
    steps_cleanupIdleLocked hsignal hcleanup hremove

/-- The teardown before a restart. -/
theorem steps_restartIfForced (options : EnsureOptions) :
    Prog.Steps (Emits J) (restartIfForced host config options) := by
  refine Prog.Steps.bind (fun w => (looked_status w).emits) fun current =>
    Prog.Steps.ite (fun _ => ?_) fun _ => Prog.steps_pure _
  exact (steps_stopLocked hsignal hcleanup hremove).bind fun _ w => (looked_status w).emits

end Stop

end Sesman

end Cheirizo
