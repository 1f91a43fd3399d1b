import Cheirizo.Sesman.Effects

/-!
# Client bookkeeping and idle cleanup

Every operation on the registry rewrites the client count and the disconnect times by its own path.
The invariant they share is `ClientsConsistent`: while a client is attached there is neither a
disconnect time nor an idle deadline. It is kept not only at the end of an operation but by every
single write.

## Every write

A routine may fail after it has written, and what it wrote stays. So the invariant is asked of each
state that is stored, in the log, and not of the registry at the end: `Keeps` is a statement about
the log, whatever the routine returns.

## Main results

* `ensure_spec`, `disconnectClient_spec`, … — each operation stores consistent states only
* `cleanupIdle_acts` — idle cleanup that does anything found an idle, overdue session
* `registry_invariant` — both, along every sequence of operations
-/

namespace Cheirizo

namespace Sesman

variable {host : Host} {config : SesmanConfig}

/-! ### The invariant -/

/-- An attached client leaves neither a disconnect time nor an idle deadline. -/
def SessionState.ClientsConsistent (state : SessionState) : Prop :=
  0 < state.activeClients → state.idleDeadlineAt = none ∧ state.lastDisconnectedAt = none

/-- An action that stores a state stores a consistent one. -/
def StoresConsistent (a : Action) : Prop :=
  ∀ state, a = .storeState state → state.ClientsConsistent

/-- Whatever is stored counts its clients consistently. -/
def RegistryConsistent (w : World) : Prop :=
  ∀ state, w.registry = .stored state → state.ClientsConsistent

/-- If all that is stored is consistent, the registry is. -/
theorem registryConsistent_of_emits {w w' : World} (h : RegistryConsistent w)
    (hemits : Emits StoresConsistent w w') : RegistryConsistent w' := by
  intro state hstate
  rcases hemits.registry with heq | heq | ⟨new, heq, hnew⟩
  · exact h state (heq ▸ hstate)
  · rw [heq] at hstate
    cases hstate
  · rw [heq] at hstate
    exact hnew state (by cases hstate; rfl)

/-- A routine that stores consistent states only, with a postcondition on its value. -/
abbrev Keeps {α : Type} (x : Routine α) (Q : α → Prop) : Prop :=
  Prog.Spec RegistryConsistent (Emits StoresConsistent) x Q

/-- One after the other. -/
theorem Keeps.bind {α β : Type} {x : Routine α} {f : α → Routine β} {P : α → Prop} {Q : β → Prop}
    (hx : Keeps x P) (hf : ∀ a, P a → Keeps (f a) Q) : Keeps (x >>= f) Q :=
  Prog.Spec.bind (fun _ _ => registryConsistent_of_emits) hx hf

/-- A look at the host keeps the registry consistent. -/
theorem keeps_of_looked {α : Type} {x : Routine α} (h : Prog.Steps Looked x) :
    Keeps x fun _ => True :=
  .of_steps fun w => (h w).emits

/-! ### Building blocks -/

theorem keeps_observe {α : Type} (x : Probe α) : Keeps (observe host x) fun _ => True :=
  keeps_of_looked (looked_observe x)

theorem keeps_acquireLock : Keeps (acquireLock host) fun _ => True :=
  keeps_of_looked looked_acquireLock

/-- What a status reports is consistent, because the registry is. -/
theorem keeps_status : Keeps (status host config) fun current =>
    ∀ state, current.state = some state → state.ClientsConsistent :=
  fun w hw => ⟨(looked_status w).emits, fun _ h _ hstate => hw _ (status_state h hstate)⟩

theorem keeps_status_true : Keeps (status host config) fun _ => True :=
  keeps_of_looked looked_status

theorem keeps_liftFault {α : Type} (r : Except Fault α) :
    Keeps (liftFault r) fun a => r = .ok a := by
  cases r with
  | ok a => exact .pure rfl
  | error e => exact .fail e

/-- A time of an update changes nothing of this. -/
theorem keeps_markUpdated {state : SessionState} (h : state.ClientsConsistent) :
    Keeps (markUpdated host state) SessionState.ClientsConsistent :=
  (keeps_observe _).bind fun _ _ => .pure h

/-- What is written has to be consistent. -/
theorem keeps_writeState {state : SessionState} (h : state.ClientsConsistent) :
    Keeps (writeState host state) fun _ => True :=
  .of_steps (steps_writeState fun _ heq => by cases heq; exact h)

/-- Write a consistent state and report the status. -/
theorem keeps_writeState_status {state : SessionState} (h : state.ClientsConsistent) :
    Keeps (do writeState host state; status host config) fun _ => True :=
  (keeps_writeState h).bind fun _ _ => keeps_status_true

theorem keeps_stopState (state : SessionState) :
    Keeps (stopState host config state) fun _ => True :=
  .of_steps (steps_stopState (by simp [StoresConsistent]) (by simp [StoresConsistent])
    (by simp [StoresConsistent]) state)

/-- A teardown stores nothing. -/
theorem keeps_stopLocked : Keeps (stopLocked host config) fun _ => True :=
  .of_steps (steps_stopLocked (by simp [StoresConsistent]) (by simp [StoresConsistent])
    (by simp [StoresConsistent]))

/-! ### The client operations -/

/-- A session without clients is consistent. -/
theorem consistent_of_idle {state : SessionState} (h : state.activeClients = 0) :
    state.ClientsConsistent := by
  intro hpos
  rw [h] at hpos
  exact absurd hpos (by decide)

/-- So is one without times. -/
theorem consistent_of_cleared {state : SessionState} (hidle : state.idleDeadlineAt = none)
    (hdisc : state.lastDisconnectedAt = none) : state.ClientsConsistent :=
  fun _ => ⟨hidle, hdisc⟩

/-- The times are cleared when the client is counted. -/
theorem bindSingleClient_keeps : Keeps (bindSingleClient host config) fun _ => True := by
  refine keeps_acquireLock.bind fun _ _ => keeps_status.bind fun current _ => ?_
  refine .ite (fun _ => .fail _) fun _ => ?_
  split
  · exact .fail _
  · refine (keeps_markUpdated (consistent_of_cleared rfl rfl)).bind fun state hstate => ?_
    exact keeps_writeState_status hstate

/-- The times are set when the client is gone. -/
theorem unbindSingleClient_keeps : Keeps (unbindSingleClient host config) fun _ => True := by
  refine keeps_acquireLock.bind fun _ _ => keeps_status.bind fun current _ => ?_
  split
  · exact .pure trivial
  · refine (keeps_observe _).bind fun now _ => (keeps_liftFault _).bind fun deadline _ => ?_
    refine (keeps_markUpdated (consistent_of_idle rfl)).bind fun state hstate => ?_
    exact keeps_writeState_status hstate

/-- A session that has lost a client, with none left or with times that were already clear. -/
theorem keeps_noteIdle {state : SessionState}
    (h : 0 < state.activeClients → state.ClientsConsistent) :
    Keeps (noteIdle host config state) SessionState.ClientsConsistent := by
  refine .ite (fun hzero => ?_) fun _ => .pure fun hpos => h hpos hpos
  refine (keeps_observe _).bind fun now _ => (keeps_liftFault _).bind fun deadline _ => ?_
  exact .pure (consistent_of_idle hzero)

theorem disconnectClient_keeps : Keeps (disconnectClient host config) fun _ => True := by
  refine keeps_acquireLock.bind fun _ _ => keeps_status.bind fun current hcurrent => ?_
  split
  · exact .pure trivial
  · rename_i state hstate
    have hfewer : Keeps (noteIdle host config { state with
        activeClients := if state.activeClients = 0 then 0 else state.activeClients - 1 })
        SessionState.ClientsConsistent := by
      refine keeps_noteIdle fun hpos _ => hcurrent state hstate ?_
      by_contra hzero
      simp_all [UInt32.not_lt]
    refine hfewer.bind fun state hstate => (keeps_markUpdated hstate).bind fun state hstate => ?_
    exact keeps_writeState_status hstate

/-! ### Idle cleanup and restart -/

theorem keeps_cleanupIdleLocked : Keeps (cleanupIdleLocked host config) fun _ => True :=
  .of_steps (steps_cleanupIdleLocked (by simp [StoresConsistent]) (by simp [StoresConsistent])
    (by simp [StoresConsistent]))

theorem cleanupIdle_keeps : Keeps (cleanupIdle host config) fun _ => True :=
  keeps_acquireLock.bind fun _ _ => keeps_cleanupIdleLocked

/-- After a restart nobody is attached. -/
theorem reconcileState_activeClients {calendar : Calendar} {now : DateTime}
    {state state' : SessionState} {changed : Bool}
    (h : reconcileState config calendar now state = .ok (state', changed)) :
    state'.activeClients = 0 := by
  unfold reconcileState at h
  dsimp only at h
  split at h
  · split at h
    · cases h
    · cases h
      rfl
  · cases h
    rfl

theorem reconcileAfterDaemonRestart_keeps :
    Keeps (reconcileAfterDaemonRestart host config) fun _ => True := by
  refine keeps_acquireLock.bind fun _ _ => keeps_status.bind fun current _ => ?_
  split
  · exact .pure trivial
  refine (keeps_observe _).bind fun now _ => (keeps_liftFault _).bind fun result hresult => ?_
  obtain ⟨state, changed⟩ := result
  have hstate : state.ClientsConsistent :=
    consistent_of_idle (reconcileState_activeClients hresult)
  have hrest : Keeps (do let _ ← cleanupIdleLocked host config; status host config) fun _ => True :=
    keeps_cleanupIdleLocked.bind fun _ _ => keeps_status_true
  cases changed with
  | false => exact hrest
  | true =>
    refine (keeps_markUpdated hstate).bind fun state hstate => ?_
    exact (keeps_writeState hstate).bind fun _ _ => hrest

/-! ### Starting a session -/

/-- A session that is reused for a client has its times cleared. -/
theorem keeps_updateReconnectState {state : SessionState} (h : state.ClientsConsistent)
    (options : EnsureOptions) :
    Keeps (updateReconnectState host state options) SessionState.ClientsConsistent := by
  have hnote : Keeps (noteClient host
      { state with requestedSize := options.requestedSize.or state.requestedSize } options)
      SessionState.ClientsConsistent := by
    rw [noteClient]
    split
    · exact .pure h
    · exact (keeps_observe _).bind fun _ _ => .pure h
  refine hnote.bind fun state hstate => keeps_markUpdated ?_
  split
  · exact consistent_of_cleared rfl rfl
  · exact hstate

/-- A new session has no times. -/
theorem keeps_new : Keeps (SessionState.new host config) SessionState.ClientsConsistent := by
  refine (keeps_observe _).bind fun now _ => (keeps_observe _).bind fun id _ => ?_
  refine (keeps_observe _).bind fun bootId _ => (keeps_observe _).bind fun uid _ => ?_
  exact (keeps_observe _).bind fun gid _ => .pure (consistent_of_idle rfl)

theorem keeps_spawnComponent (component : ComponentConfig) :
    Keeps (spawnComponent host config component) fun _ => True :=
  .of_steps (steps_spawnComponent (by simp [StoresConsistent]))

theorem keeps_launchComponent (component : ComponentConfig) {state : SessionState}
    (h : state.ClientsConsistent) :
    Keeps (launchComponent host config component state) fun _ => True := by
  refine (keeps_writeState h).bind fun _ _ => Keeps.bind (P := fun _ => True) ?_ fun _ _ => ?_
  · exact .of_steps steps_waitUntilReady
  · exact .ite (fun _ => .of_steps (steps_sleep _)) fun _ => .pure trivial

/-- By induction on the components; each of them stores the same session. -/
theorem keeps_startComponents (components : List ComponentConfig) {state : SessionState}
    (h : state.ClientsConsistent) :
    Keeps (startComponents host config components state) fun _ => True := by
  induction components generalizing state with
  | nil => exact .pure trivial
  | cons component rest ih =>
    refine Keeps.bind (keeps_spawnComponent component).attempt fun spawned _ => ?_
    cases spawned with
    | error e => exact .pure trivial
    | ok componentState =>
      refine (keeps_markUpdated ?_).bind fun state hstate => ?_
      · exact h
      refine Keeps.bind (keeps_launchComponent component hstate).attempt fun launched _ => ?_
      cases launched with
      | error e => exact .pure trivial
      | ok _ => exact ih hstate

theorem keeps_startSession (options : EnsureOptions) :
    Keeps (startSession host config options) fun _ => True := by
  refine Keeps.bind (.of_steps (steps_cleanupRuntimePaths (by simp [StoresConsistent]))) ?_
  refine fun _ _ => keeps_new.bind fun state hstate => ?_
  refine (keeps_updateReconnectState hstate options).bind fun state hstate => ?_
  refine (keeps_startComponents _ hstate).bind fun result _ => ?_
  obtain ⟨partialState, outcome⟩ := result
  cases outcome with
  | ok _ => exact keeps_status_true.bind fun _ _ => .pure trivial
  | error e =>
    refine Keeps.bind (keeps_stopState partialState).attempt fun cleanup _ => ?_
    cases cleanup with
    | error e' => exact .fail _
    | ok _ => exact .fail _

theorem keeps_prepareDirectories : Keeps (prepareDirectories host config) fun _ => True :=
  keeps_of_looked looked_prepareDirectories

theorem keeps_restartIfForced (options : EnsureOptions) :
    Keeps (restartIfForced host config options) fun current =>
      ∀ state, current.state = some state → state.ClientsConsistent := by
  refine keeps_status.bind fun current hcurrent => .ite (fun _ => ?_) fun _ => .pure hcurrent
  exact keeps_stopLocked.bind fun _ _ => keeps_status

/-- Whether it reuses the session or starts one. -/
theorem ensure_keeps (options : EnsureOptions) :
    Keeps (ensure host config options) fun _ => True := by
  refine keeps_prepareDirectories.bind fun _ _ => keeps_acquireLock.bind fun _ _ => ?_
  refine (keeps_restartIfForced options).bind fun current hcurrent => .ite (fun _ => ?_) fun _ => ?_
  · split
    · exact .fail _
    · rename_i state hstate
      refine (keeps_updateReconnectState (hcurrent state hstate) options).bind
        fun state hstate => ?_
      refine (keeps_writeState hstate).bind fun _ _ => ?_
      exact keeps_status_true.bind fun _ _ => .pure trivial
  · refine .ite (fun _ => ?_) fun _ => keeps_startSession options
    exact keeps_stopLocked.bind fun _ _ => keeps_startSession options

theorem stop_keeps : Keeps (stop host config) fun _ => True :=
  keeps_acquireLock.bind fun _ _ => keeps_stopLocked.bind fun _ _ => keeps_status_true

/-! ### When idle cleanup acts -/

/-- Between `w` and `w'` the stored session had no client and its idle deadline was seen to have
passed. -/
def Overdue (host : Host) (config : SesmanConfig) (w w' : World) : Prop :=
  ∃ state deadline k, w.registry = .stored state ∧ state.activeClients = 0 ∧
    effectiveIdleDeadline config host.calendar state = .ok (some deadline) ∧
    w.tick ≤ k ∧ k < w'.tick ∧ deadline ≤ (host k).utcNow

/-- Nothing was done, or the session was overdue. -/
def Justified (host : Host) (config : SesmanConfig) (w w' : World) : Prop :=
  Looked w w' ∨ Overdue host config w w'

/-- What was looked at before justifies nothing less. -/
theorem Justified.of_looked {w₁ w₂ w₃ : World} (h : Looked w₁ w₂)
    (h' : Justified host config w₂ w₃) : Justified host config w₁ w₃ := by
  refine h'.imp (fun h' => IsTrans.trans _ _ _ h h') ?_
  rintro ⟨state, deadline, k, hstate, hidle, hdeadline, hk, hk', hnow⟩
  exact ⟨state, deadline, k, h.registry ▸ hstate, hidle, hdeadline, le_trans h.tick hk, hk', hnow⟩

/-- A look, and then the rest. -/
theorem justified_bind {α β : Type} {x : Routine α} {f : α → Routine β} {w : World}
    (hx : Looked w (x.run w).2)
    (hf : ∀ a, (x.run w).1 = .ok a → Justified host config (x.run w).2 ((f a).run (x.run w).2).2) :
    Justified host config w ((x >>= f).run w).2 := by
  rw [Prog.run_bind]
  rcases hr : x.run w with ⟨e | a, w'⟩
  · rw [hr] at hx
    exact .inl hx
  · rw [hr] at hx hf
    exact .of_looked hx (hf a rfl)

theorem justified_pure {α : Type} (a : α) (w : World) :
    Justified host config w ((pure a : Routine α).run w).2 :=
  .inl (refl w)

/-- Past its checks, idle cleanup reads the clock once and stops the session only if the deadline
has passed. -/
theorem justified_stopLocked {state : SessionState} {deadline : DateTime} {w : World}
    (hstate : w.registry = .stored state) (hidle : state.activeClients = 0)
    (hdeadline : effectiveIdleDeadline config host.calendar state = .ok (some deadline)) :
    Justified host config w ((do
      if (← utcNow host) < deadline then return false
      else
        stopLocked host config
        return true : Routine Bool).run w).2 := by
  have hlook : Looked w ((utcNow host).run w).2 := looked_observe _ w
  rw [Prog.run_bind]
  show Justified host config w ((if (host w.tick).utcNow < deadline then _ else _ :
    Routine Bool).run ((utcNow host).run w).2).2
  split
  · exact .inl hlook
  · rename_i hpast
    have hstop : Prog.Steps (Emits fun _ => True) (do stopLocked host config; return true :
        Routine Bool) :=
      (steps_stopLocked (fun _ _ _ => trivial) trivial trivial).bind fun _ => Prog.steps_pure _
    refine .inr ⟨state, deadline, w.tick, hstate, hidle, hdeadline, Nat.le_refl _, ?_, ?_⟩
    · exact Nat.lt_of_lt_of_le (Nat.lt_succ_self _) (hstop ((utcNow host).run w).2).tick
    · exact Int.not_lt.mp hpast

theorem run_liftFault {α : Type} (r : Except Fault α) (w : World) :
    (liftFault r).run w = (r, w) := by
  cases r <;> rfl

/-- Idle cleanup acts on what it has just read. -/
theorem cleanupIdleLocked_justified (w : World) :
    Justified host config w ((cleanupIdleLocked host config).run w).2 := by
  refine justified_bind (looked_status w) fun current hcurrent => ?_
  split
  · exact justified_pure _ _
  split
  · exact justified_pure _ _
  rename_i state hstate
  split
  · exact justified_pure _ _
  rename_i hactive
  rw [Prog.run_bind, run_liftFault]
  rcases hdeadline : effectiveIdleDeadline config host.calendar state with e | _ | deadline
  · exact .inl (refl _)
  · exact justified_pure _ _
  · have hlook : Looked w ((status host config).run w).2 := looked_status w
    have hregistry := hlook.registry.trans (status_state hcurrent hstate)
    refine justified_stopLocked hregistry ?_ hdeadline
    simpa [UInt32.not_lt] using hactive

theorem cleanupIdle_justified (w : World) :
    Justified host config w ((cleanupIdle host config).run w).2 :=
  justified_bind (looked_acquireLock w) fun _ _ => cleanupIdleLocked_justified _

/-! ### Whole runs -/

/-- One operation. -/
theorem SesmanOp.run_emits (op : SesmanOp) {w : World} (hw : RegistryConsistent w) :
    Emits StoresConsistent w (op.run host config w) := by
  cases op with
  | ensure options => exact (ensure_keeps options w hw).1
  | stop => exact (stop_keeps w hw).1
  | bindSingleClient => exact (bindSingleClient_keeps w hw).1
  | unbindSingleClient => exact (unbindSingleClient_keeps w hw).1
  | disconnectClient => exact (disconnectClient_keeps w hw).1
  | cleanupIdle => exact (cleanupIdle_keeps w hw).1
  | reconcile => exact (reconcileAfterDaemonRestart_keeps w hw).1

/-- A world without a session, at any time. -/
def World.fresh (tick : ℕ) (clock : Instant) : World := ⟨tick, clock, .missing, []⟩

/-- **The registry invariant.** After any sequence of operations, on any host, every state that is
or ever was stored keeps its client bookkeeping consistent, and an idle cleanup either does nothing
or finds a stored session without clients whose effective idle deadline has passed. -/
theorem registry_invariant (host : Host) (config : SesmanConfig) (tick : ℕ) (clock : Instant)
    (ops : List SesmanOp) :
    let w := (sesmanMachine host config).exec (.fresh tick clock) ops
    (∀ state, w.registry = .stored state → state.ClientsConsistent) ∧
      (∀ state, Action.storeState state ∈ w.log → state.ClientsConsistent) ∧
      Justified host config w ((cleanupIdle host config).run w).2 := by
  intro w
  have hinv : RegistryConsistent w ∧ ∀ a ∈ w.log, StoresConsistent a := by
    refine Machine.exec_invariant (C := fun _ _ => True)
      (I := fun w => RegistryConsistent w ∧ ∀ a ∈ w.log, StoresConsistent a) ?_ ?_
      Machine.along_true
    · rintro w op ⟨hw, hlog⟩ -
      have hemits : Emits StoresConsistent w (op.run host config w) := op.run_emits hw
      obtain ⟨new, hnew, hJ, -⟩ := hemits.log
      refine ⟨registryConsistent_of_emits hw hemits, fun a ha => ?_⟩
      rw [show ((sesmanMachine host config).step w op).1.log = w.log ++ new from hnew] at ha
      exact (List.mem_append.mp ha).elim (hlog a) (hJ a)
    · exact ⟨fun _ h => (nomatch h), fun _ h => (nomatch h)⟩
  exact ⟨hinv.1, fun state hmem => hinv.2 _ hmem state rfl, cleanupIdle_justified w⟩

end Sesman

end Cheirizo
