import Cheirizo.Sesman.Idle

/-!
# Admission and its failures

`bind_connection` of `src/rdp/server/production.rs` ensures a session of the user, looks up the
user, resizes the compositor, builds the connection and records the client, in this order. Whatever
fails after the session is there, the session should not be left as if a client were coming: one
that was reused should become idle, and one that was created for the call should be stopped. What
was built of the connection should be shut down; where even that fails the daemon gives up, and the
error is latched.

## What is outside

The outcome of every step that is not the session manager's is part of the `Attempt`, and so is
whether a task panics. `SesmanConfig::for_user` looks up the account and may fail each time.

`live` says what the call has running. Values that a block holds are dropped where it is left, and
dropping a display handler stops its thread.

## Main definitions

* `bindConnection` — with `ensureSession` and, after it, `bindEnsured`
* `rollbackEnsuredSession` — the session after a failure
* `LeftBehind` — what should be left of it

## Main results

* `Sesman.stop_ok`, `Sesman.unbindSingleClient_ok` — what the two ways to roll back come to
* `failed_admission_leaks_nothing` — for every failure after the session was ensured
-/

namespace Cheirizo

namespace Server

open Sesman

/-! ### What a call works on -/

/-- The parts of a connection. -/
structure Resources where
  session : Bool := false
  display : Bool := false
  input : Bool := false
  /-- The monitor and the watcher of the session's health. -/
  supervision : Bool := false
  deriving DecidableEq, Repr

/-- What a rollback logs. -/
inductive Notice where
  | leftIdle
  | stopped
  | cleanupScheduled (user : String) (delayMs : UInt64)
  | rollbackFailed (message : String)
  deriving DecidableEq, Repr

/-- What a call to bind a connection works on. -/
structure Binder where
  sesman : World
  activeBoundUser : Option String
  activeConnection : Option Resources
  audioTarget : Option String
  fatalShutdownError : Option String
  /-- What this call has running. -/
  live : Resources
  /-- What this call has logged. -/
  log : List Notice
  deriving DecidableEq, Repr

/-- A part of such a call. -/
abbrev Binding (α : Type) : Type := Prog Binder String α

/-- The steps of the connection's builder. -/
structure BuildSteps where
  portalSettings : Except String Unit
  socket : Except String Unit
  session : Except String Unit
  hasStreams : Bool
  receiver : Except String Unit
  priming : Except Fault Unit
  display : Except String Unit
  inputAllowed : Bool
  input : Except String Unit

/-- Whether a task panics before or after it has done its work. -/
inductive TaskPanic where
  | before
  | after
  deriving DecidableEq, Repr

/-- A call, with what becomes of each of its steps. -/
structure Attempt where
  username : String
  generation : Except String Unit
  geometry : Except String SessionSize
  ensureConfig : Except String SesmanConfig
  identity : Except Fault Unit
  resize : Except String Unit
  build : BuildSteps
  bindConfig : Except String SesmanConfig
  bindPanic : Option TaskPanic
  sessionShutdown : Except String Unit
  rollbackConfig : Except String SesmanConfig

variable (host : Host) (a : Attempt)

/-! ### Errors -/

/-- An error with context, as it is printed. -/
def context (outer e : String) : String := outer ++ ": " ++ e

/-- The error of a task, which may have panicked. -/
def taskError (failed panicked : String → String) : Fault → String
  | .error e => failed e
  | .panic => panicked "panic"

/-- A step that can fail, with the error put into its context. -/
def check (r : Except String Unit) (wrap : String → String) : Binding Unit :=
  match r with
  | .ok () => return ()
  | .error e => Prog.fail (wrap e)

/-- The first error stays. -/
def retainFatalShutdownError (e : String) : Binding Unit :=
  Prog.modify fun w => { w with fatalShutdownError := w.fatalShutdownError.or (some e) }

/-- What is told to others is logged. -/
def notice (n : Notice) : Binding Unit := Prog.modify fun w => { w with log := w.log ++ [n] }

/-! ### The session -/

/-- A task for the session manager: what it came to, with what it did kept. -/
def onSesman {α : Type} (config : Except String SesmanConfig) (x : SesmanConfig → Routine α) :
    Binding (Except Fault α) := fun w =>
  match config with
  | .error e => (.ok (.error (.error e)), w)
  | .ok config =>
    (.ok ((x config).run w.sesman).1, { w with sesman := ((x config).run w.sesman).2 })

/-- The call up to the session. -/
def ensureSession : Binding EnsureResult := do
  check a.generation id
  match a.geometry with
  | .error e => Prog.fail (context "initial RDP desktop geometry violates production policy" e)
  | .ok size =>
    match ← onSesman a.ensureConfig fun config => ensure host config
      { forceRestart := false
        requestedSize := some size
        clientPeer := none
        clientConnected := false } with
    | .ok result => return result
    | .error fault => Prog.fail (taskError id (context "sesman ensure task panicked") fault)

/-- Undo the session: one that was reused stays for its idle period, another is stopped. Failures
are only logged. -/
def rollbackEnsuredSession (reused : Bool) : Binding Unit := do
  if reused then
    match ← onSesman a.rollbackConfig fun config => (do
      let _ ← unbindSingleClient host config
      return config.idleTimeoutMs : Routine UInt64) with
    | .ok idleTimeoutMs =>
      notice .leftIdle
      if 0 < idleTimeoutMs then notice (.cleanupScheduled a.username idleTimeoutMs)
    | .error fault => notice (.rollbackFailed (taskError
        (context "failed to mark reused production session idle")
        (context "reused production-session rollback task panicked") fault))
  else
    match ← onSesman a.rollbackConfig (stop host) with
    | .ok _ => notice .stopped
    | .error fault => notice (.rollbackFailed (taskError
        (context "failed to stop newly created production session")
        (context "new production-session rollback task panicked") fault))

/-- Roll back and give up. -/
def abandon (reused : Bool) (e : String) : Binding Unit := do
  rollbackEnsuredSession host a reused
  Prog.fail e

/-! ### The connection -/

/-- What the builder does with the portal session it has. -/
def attachHandlers : Binding Unit := do
  if !a.build.hasStreams then
    Prog.fail ("portal-generic produced no capture streams for '" ++ a.username ++ "'")
  else
    check a.build.receiver id
    match a.build.priming with
    | .error fault =>
      Prog.fail (taskError id (context "first-frame priming task panicked") fault)
    | .ok () =>
      check a.build.display (context "failed to create production display handler")
      Prog.modify fun w => { w with live := { w.live with display := true } }
      if a.build.inputAllowed then
        check a.build.input (context "failed to create production input handler")
        Prog.modify fun w => { w with live := { w.live with input := true } }
      Prog.modify fun w => { w with live := { w.live with supervision := true } }

/-- `build_production_portal_generic_connection`. -/
def buildConnection (waylandSocket : String) : Binding Unit := do
  check a.build.portalSettings id
  check a.build.socket (context ("sesman reported an unsafe managed Wayland socket for '" ++
    a.username ++ "': " ++ waylandSocket))
  check a.build.session (context ("failed to attach portal-generic to " ++ waylandSocket))
  Prog.modify fun w => { w with live := { w.live with session := true } }
  match ← (attachHandlers a).attempt with
  | .ok () => return ()
  | .error e =>
    -- Handlers that were created are dropped with the block that failed.
    Prog.modify fun w => { w with live := { w.live with display := false, input := false } }
    match a.sessionShutdown with
    | .ok () =>
      Prog.modify fun w => { w with live := { w.live with session := false } }
      Prog.fail e
    | .error shutdownError =>
      let e := context
        ("portal-generic shutdown failed after production connection builder error: " ++ e)
        shutdownError
      retainFatalShutdownError e
      Prog.fail e

/-- `ProductionConnectionResources::shutdown`. -/
def shutdownResources : Binding Unit := do
  Prog.modify fun w => { w with live := { w.live with display := false, supervision := false } }
  match a.sessionShutdown with
  | .ok () => Prog.modify fun w => { w with live := { w.live with session := false } }
  | .error e => Prog.fail (context "session backend shutdown failed" e)

/-- Record the client in the registry. -/
def recordClient : Binding (Except Fault Unit) := do
  if a.bindPanic = some .before then return .error .panic
  else
    let result ← onSesman a.bindConfig (bindSingleClient host)
    if a.bindPanic = some .after then return .error .panic
    else return result.map fun _ => ()

/-- The client could not be recorded. -/
def unbuild (reused : Bool) (bindError : String) : Binding Unit := do
  let shutdown ← (shutdownResources a).attempt
  -- The connection that was to be returned is dropped in either case.
  Prog.modify fun w => { w with live := { w.live with input := false } }
  match shutdown with
  | .error e =>
    let e := context ("production resource shutdown failed before rollback after " ++
      "client-bind failure: " ++ bindError) e
    retainFatalShutdownError e
    Prog.fail e
  | .ok () => abandon host a reused bindError

/-- The call up to the session that is there: its runtime directory and the user's identity, and the
size of its compositor. -/
def prepare (ensured : EnsureResult) : Except String String :=
  match ensured.status.state with
  | none => .error "sesman ensure completed without persisted session state"
  | some state =>
    match a.identity with
    | .error fault =>
      .error (taskError (context "failed to resolve managed session identity")
        (context "managed session identity task panicked") fault)
    | .ok () =>
      match a.resize with
      | .error e =>
        .error (context "failed to apply negotiated desktop size to managed compositor" e)
      | .ok () => .ok state.xdgRuntimeDir

/-- The call after the session is there. -/
def bindEnsured (ensured : EnsureResult) : Binding Unit := do
  let reused := ensured.reusedExisting
  match prepare a ensured with
  | .error e => abandon host a reused e
  | .ok runtimeDir =>
    match ← (buildConnection a (runtimeDir ++ "/wayland-0")).attempt with
    | .error e =>
      abandon host a reused
        (context ("failed to bind production RDP handlers for user '" ++ a.username ++ "'") e)
    | .ok () =>
      match ← recordClient host a with
      | .error fault =>
        unbuild host a reused (taskError (context "failed to record bound production client")
          (context "sesman client-bind task panicked") fault)
      | .ok () =>
        Prog.modify fun w => { w with
          audioTarget := some runtimeDir
          activeBoundUser := some a.username
          activeConnection := some w.live }

/-- `ProductionSesmanBinder::bind_connection`. -/
def bindConnection : Binding Unit := do
  let ensured ← ensureSession host a
  -- The call has nothing of its own so far.
  Prog.modify fun w => { w with live := {}, log := [] }
  bindEnsured host a ensured

end Server

/-! ### What the session manager leaves -/

namespace Sesman

variable {host : Host} {config : SesmanConfig}

/-- Where no state is read, none is stored. -/
theorem readStateFile_eq_none {w : World} (h : ((readStateFile host).run w).1 = .ok none) :
    w.registry = .missing := by
  obtain ⟨registry, hregistry, h⟩ := Prog.bind_eq_ok h
  obtain rfl := Except.ok.inj hregistry
  split at h
  · assumption
  · obtain ⟨readable, -, h⟩ := Prog.bind_eq_ok h
    split at h
    · cases h
    · split at h
      · cases h
      · cases h

theorem status_none {w : World} {current : SessionStatus}
    (h : ((status host config).run w).1 = .ok current) (hstate : current.state = none) :
    w.registry = .missing := by
  obtain ⟨read, hread, h⟩ := Prog.bind_eq_ok h
  cases read with
  | none => exact readStateFile_eq_none hread
  | some stored =>
    cases h
    rw [classify_state] at hstate
    cases hstate

/-- A state that was removed without an error is gone. -/
theorem removeStateFile_ok {w : World} (h : ((removeStateFile host).run w).1 = .ok ()) :
    ((removeStateFile host).run w).2.registry = .missing := by
  rw [removeStateFile] at h ⊢
  obtain ⟨registry, hregistry, h⟩ := Prog.bind_eq_ok h
  rw [Prog.run_bind_of_ok hregistry]
  obtain rfl := Except.ok.inj hregistry
  split at h
  · assumption
  · obtain ⟨removable, hremovable, h⟩ := Prog.bind_eq_ok h
    rw [Prog.run_bind_of_ok hremovable]
    split at h
    · cases h
    · rw [if_neg ‹_›]
      rfl

/-- So it is after a teardown. -/
theorem stopState_ok {state : SessionState} {w : World}
    (h : ((stopState host config state).run w).1 = .ok ()) :
    ((stopState host config state).run w).2.registry = .missing := by
  rw [stopState] at h ⊢
  obtain ⟨owned, howned, h⟩ := Prog.bind_eq_ok h
  rw [Prog.run_bind_of_ok howned]
  obtain ⟨targets, htargets, h⟩ := Prog.bind_eq_ok h
  rw [Prog.run_bind_of_ok htargets]
  rw [teardown] at h ⊢
  obtain ⟨_, hterm, h⟩ := Prog.bind_eq_ok h
  rw [Prog.run_bind_of_ok hterm]
  obtain ⟨_, hawait, h⟩ := Prog.bind_eq_ok h
  rw [Prog.run_bind_of_ok hawait]
  obtain ⟨_, hkill, h⟩ := Prog.bind_eq_ok h
  rw [Prog.run_bind_of_ok hkill]
  obtain ⟨_, hawait', h⟩ := Prog.bind_eq_ok h
  rw [Prog.run_bind_of_ok hawait']
  obtain ⟨names, hnames, h⟩ := Prog.bind_eq_ok h
  rw [Prog.run_bind_of_ok hnames]
  split at h
  · cases h
  · rw [if_neg ‹_›]
    obtain ⟨_, hcleanup, h⟩ := Prog.bind_eq_ok h
    rw [Prog.run_bind_of_ok hcleanup]
    exact removeStateFile_ok h

/-- So it is after a stop, with a session or without. -/
theorem stopLocked_ok {w : World} (h : ((stopLocked host config).run w).1 = .ok ()) :
    ((stopLocked host config).run w).2.registry = .missing := by
  rw [stopLocked] at h ⊢
  obtain ⟨current, hcurrent, h⟩ := Prog.bind_eq_ok h
  rw [Prog.run_bind_of_ok hcurrent]
  cases hstate : current.state with
  | none => exact (looked_status w).registry.trans (status_none hcurrent hstate)
  | some state =>
    rw [hstate] at h
    exact stopState_ok h

/-- A stop that succeeds leaves no session. -/
theorem stop_ok {w : World} {current : SessionStatus}
    (h : ((stop host config).run w).1 = .ok current) :
    ((stop host config).run w).2.registry = .missing := by
  rw [stop] at h ⊢
  obtain ⟨_, hlock, h⟩ := Prog.bind_eq_ok h
  rw [Prog.run_bind_of_ok hlock]
  obtain ⟨_, hstop, h⟩ := Prog.bind_eq_ok h
  rw [Prog.run_bind_of_ok hstop]
  exact (looked_status _).registry.trans (stopLocked_ok hstop)

/-- The stored session is without clients, and has a deadline. -/
def World.Idle (w : World) : Prop :=
  ∃ state, w.registry = .stored state ∧ state.activeClients = 0 ∧ state.idleDeadlineAt.isSome

/-- Unbinding the client of a stored session leaves it idle. -/
theorem unbindSingleClient_ok (htimeout : config.idleTimeoutMs ≠ 0) {w : World}
    (hstored : ∃ state, w.registry = .stored state) {current : SessionStatus}
    (h : ((unbindSingleClient host config).run w).1 = .ok current) :
    ((unbindSingleClient host config).run w).2.Idle := by
  rw [unbindSingleClient] at h ⊢
  obtain ⟨_, hlock, h⟩ := Prog.bind_eq_ok h
  rw [Prog.run_bind_of_ok hlock]
  have hlook : ((acquireLock host).run w).2.registry = w.registry := (looked_acquireLock w).registry
  obtain ⟨found, hfound, h⟩ := Prog.bind_eq_ok h
  rw [Prog.run_bind_of_ok hfound]
  cases hstate : found.state with
  | none =>
    obtain ⟨state, hstored⟩ := hstored
    have hmissing := status_none hfound hstate
    rw [hlook, hstored] at hmissing
    cases hmissing
  | some state =>
    rw [hstate] at h
    obtain ⟨now, hnow, h⟩ := Prog.bind_eq_ok h
    obtain ⟨deadline, hdeadline, h⟩ := Prog.bind_eq_ok h
    obtain ⟨state', hstate', h⟩ := Prog.bind_eq_ok h
    obtain ⟨_, hwrite, h⟩ := Prog.bind_eq_ok h
    dsimp only
    rw [Prog.run_bind_of_ok hnow, Prog.run_bind_of_ok hdeadline, Prog.run_bind_of_ok hstate',
      Prog.run_bind_of_ok hwrite]
    refine ⟨state', (looked_status _).registry.trans (writeState_ok hwrite), ?_⟩
    rw [run_liftFault] at hdeadline
    cases hstate'
    exact ⟨rfl, idleDeadlineAfter_isSome htimeout hdeadline⟩

/-- A stored session stays stored. -/
def StaysStored (w w' : World) : Prop :=
  (∃ state, w.registry = .stored state) → ∃ state, w'.registry = .stored state

instance : IsPreorder World StaysStored where
  refl _ := id
  trans _ _ _ h h' := h' ∘ h

theorem Looked.staysStored {w w' : World} (h : Looked w w') : StaysStored w w' := by
  rintro ⟨state, hstate⟩
  exact ⟨state, h.registry.trans hstate⟩

theorem staysStored_of_looked {α : Type} {x : Routine α} (h : Prog.Steps Looked x) :
    Prog.Steps StaysStored x := fun w => (h w).staysStored

/-- A write takes no session away. -/
theorem staysStored_writeState (state : SessionState) :
    Prog.Steps StaysStored (writeState host state) := by
  refine (staysStored_of_looked (looked_observe _)).bind fun writable => ?_
  refine Prog.Steps.ite (fun _ => Prog.steps_fail _) fun _ => ?_
  intro w _
  exact ⟨state, rfl⟩

theorem staysStored_bindSingleClient : Prog.Steps StaysStored (bindSingleClient host config) := by
  refine (staysStored_of_looked looked_acquireLock).bind fun _ => ?_
  refine (staysStored_of_looked looked_status).bind fun current => ?_
  refine Prog.Steps.ite (fun _ => Prog.steps_fail _) fun _ => ?_
  split
  · exact Prog.steps_fail _
  · refine Prog.Steps.bind (staysStored_of_looked ?_) fun state => ?_
    · exact (looked_observe _).bind fun _ => Prog.steps_pure _
    · exact (staysStored_writeState state).bind fun _ => staysStored_of_looked looked_status

end Sesman

namespace Server

open Sesman

variable {host : Host} {a : Attempt}

/-! ### What a call that fails leaves -/

/-- What is recorded once a connection is bound is as before. -/
structure SameBindings (w w' : Binder) : Prop where
  activeBoundUser : w'.activeBoundUser = w.activeBoundUser
  activeConnection : w'.activeConnection = w.activeConnection
  audioTarget : w'.audioTarget = w.audioTarget

/-- What a rollback leaves of the session: one that was reused is idle, another is gone. -/
def LeftBehind (reused : Bool) (w : World) : Prop :=
  if reused then w.Idle else w.registry = .missing

/-- Only the session manager did something. -/
def OnlySession (w w' : Binder) : Prop :=
  ∃ sesman log, w' = { w with sesman := sesman, log := log }

instance : IsPreorder Binder OnlySession where
  refl w := ⟨w.sesman, w.log, rfl⟩
  trans w₁ w₂ w₃ h h' := by
    obtain ⟨sesman, log, rfl⟩ := h
    obtain ⟨sesman', log', rfl⟩ := h'
    exact ⟨sesman', log', rfl⟩

/-- A call of the session manager changes the session only. -/
theorem onlySession_onSesman {α : Type} (config : Except String SesmanConfig)
    (x : SesmanConfig → Routine α) : Prog.Steps OnlySession (onSesman config x) := by
  intro w
  cases config with
  | error e => exact ⟨w.sesman, w.log, rfl⟩
  | ok config => exact ⟨((x config).run w.sesman).2, w.log, rfl⟩

theorem onlySession_notice (n : Notice) : Prog.Steps OnlySession (notice n) :=
  fun w => ⟨w.sesman, w.log ++ [n], rfl⟩

/-- So does a rollback. -/
theorem onlySession_rollbackEnsuredSession (reused : Bool) :
    Prog.Steps OnlySession (rollbackEnsuredSession host a reused) := by
  refine Prog.Steps.ite (fun _ => ?_) fun _ => ?_
  · refine (onlySession_onSesman _ _).bind fun outcome => ?_
    split
    · refine (onlySession_notice _).bind fun _ => ?_
      exact Prog.Steps.ite (fun _ => onlySession_notice _) fun _ => Prog.steps_pure _
    · exact onlySession_notice _
  · refine (onlySession_onSesman _ _).bind fun outcome => ?_
    split
    · exact onlySession_notice _
    · exact onlySession_notice _

/-- With an account the call goes to the session manager. -/
theorem run_onSesman_ok {α : Type} (config : SesmanConfig) (x : SesmanConfig → Routine α)
    (w : Binder) : (onSesman (.ok config) x).run w =
      (.ok ((x config).run w.sesman).1, { w with sesman := ((x config).run w.sesman).2 }) := rfl

/-- No rollback has failed. -/
def Binder.RolledBack (w : Binder) : Prop := ∀ message, .rollbackFailed message ∉ w.log

/-- A rollback that failed is in the log. -/
theorem not_rolledBack {w : Binder} {log : List Notice} {message : String}
    (h : w.log = log ++ [.rollbackFailed message]) : ¬ w.RolledBack := by
  intro hrolled
  refine hrolled message ?_
  rw [h]
  exact List.mem_append_right _ (List.mem_singleton_self _)

/-- The session that was reused is in the registry. -/
def Kept (reused : Bool) (w : World) : Prop := reused = true → ∃ state, w.registry = .stored state

/-- The configuration of the rollback has idle sessions stopped. -/
def Attempt.IdleCleanup (a : Attempt) : Prop :=
  ∀ config, a.rollbackConfig = .ok config → config.idleTimeoutMs ≠ 0

/-- A rollback that reports no failure leaves a session idle, or stops it. -/
theorem rollbackEnsuredSession_leaves (hidle : a.IdleCleanup) {reused : Bool} {w : Binder}
    (hkept : Kept reused w.sesman)
    (hrolled : ((rollbackEnsuredSession host a reused).run w).2.RolledBack) :
    LeftBehind reused ((rollbackEnsuredSession host a reused).run w).2.sesman := by
  rw [rollbackEnsuredSession] at hrolled ⊢
  cases hconfig : a.rollbackConfig with
  | error e =>
    rw [hconfig] at hrolled
    cases reused with
    | true => exact absurd hrolled (not_rolledBack rfl)
    | false => exact absurd hrolled (not_rolledBack rfl)
  | ok config =>
    rw [hconfig] at hrolled
    cases reused with
    | true =>
      rw [if_pos rfl, Prog.run_bind, run_onSesman_ok] at hrolled ⊢
      dsimp only at hrolled ⊢
      cases hunbind : ((unbindSingleClient host config).run w.sesman).1 with
      | error fault =>
        rw [Prog.run_bind_of_error hunbind] at hrolled
        exact absurd hrolled (not_rolledBack rfl)
      | ok current =>
        have htimeout : config.idleTimeoutMs ≠ 0 := hidle config hconfig
        rw [Prog.run_bind_of_ok hunbind]
        dsimp only [Prog.run_pure]
        rw [if_pos (UInt64.pos_iff_ne_zero.mpr htimeout)]
        exact unbindSingleClient_ok htimeout (hkept rfl) hunbind
    | false =>
      rw [if_neg (by decide), Prog.run_bind, run_onSesman_ok] at hrolled ⊢
      dsimp only at hrolled ⊢
      cases hstop : ((stop host config).run w.sesman).1 with
      | error fault =>
        rw [hstop] at hrolled
        exact absurd hrolled (not_rolledBack rfl)
      | ok current => exact stop_ok hstop

/-- The session and what is recorded are as before. -/
structure OnlyBuilt (w w' : Binder) : Prop extends SameBindings w w' where
  sesman : w'.sesman = w.sesman
  log : w'.log = w.log

instance : IsPreorder Binder OnlyBuilt where
  refl _ := ⟨⟨rfl, rfl, rfl⟩, rfl, rfl⟩
  trans _ _ _ h h' :=
    ⟨⟨h'.activeBoundUser.trans h.activeBoundUser, h'.activeConnection.trans h.activeConnection,
      h'.audioTarget.trans h.audioTarget⟩, h'.sesman.trans h.sesman, h'.log.trans h.log⟩

/-- Only handlers came or went. -/
def OnlyHandlers (w w' : Binder) : Prop :=
  ∃ display input, w' = { w with live := { w.live with display := display, input := input } }

instance : IsPreorder Binder OnlyHandlers where
  refl w := ⟨w.live.display, w.live.input, rfl⟩
  trans w₁ w₂ w₃ h h' := by
    obtain ⟨display, input, rfl⟩ := h
    obtain ⟨display', input', rfl⟩ := h'
    exact ⟨display', input', rfl⟩

theorem run_check (r : Except String Unit) (wrap : String → String) (w : Binder) :
    ((check r wrap).run w).2 = w := by
  cases r <;> rfl

theorem steps_check {R : Binder → Binder → Prop} [IsPreorder Binder R] (r : Except String Unit)
    (wrap : String → String) : Prog.Steps R (check r wrap) := by
  intro w
  rw [run_check]
  exact refl w

/-- What is running changes, and nothing else. -/
theorem onlyBuilt_live (w : Binder) (live : Resources) : OnlyBuilt w { w with live := live } :=
  ⟨⟨rfl, rfl, rfl⟩, rfl, rfl⟩

theorem attachHandlers_onlyBuilt : Prog.Steps OnlyBuilt (attachHandlers a) := by
  refine Prog.Steps.ite (fun _ => Prog.steps_fail _) fun _ => ?_
  refine (steps_check _ _).bind fun _ => ?_
  split
  · exact Prog.steps_fail _
  · refine (steps_check _ _).bind fun _ => ?_
    refine Prog.Steps.bind (fun w => onlyBuilt_live w _) fun _ => ?_
    refine Prog.Steps.ite (fun _ => ?_) fun _ w => onlyBuilt_live w _
    refine (steps_check _ _).bind fun _ => ?_
    exact Prog.Steps.bind (fun w => onlyBuilt_live w _) fun _ w => onlyBuilt_live w _

/-- If the handlers cannot be attached, only handlers are left running. -/
theorem attachHandlers_fails : Prog.Fails OnlyHandlers (attachHandlers a) := by
  refine Prog.Fails.ite (fun _ => (Prog.steps_fail _).fails) fun _ => ?_
  refine Prog.Fails.bind (steps_check _ _) fun _ => ?_
  split
  · exact (Prog.steps_fail _).fails
  · refine Prog.Fails.bind (steps_check _ _) fun _ => ?_
    refine Prog.Fails.bind (fun w => ⟨true, w.live.input, rfl⟩) fun _ => ?_
    refine Prog.Fails.ite (fun _ => ?_) fun _ => Prog.fails_modify _
    refine Prog.Fails.bind (steps_check _ _) fun _ => ?_
    exact Prog.Fails.bind (fun w => ⟨w.live.display, true, rfl⟩) fun _ => Prog.fails_modify _

theorem attachHandlers_post (w : Binder) : (attachHandlers a).Post w fun r w' =>
    OnlyBuilt w w' ∧ ∀ e, r = .error e → OnlyHandlers w w' :=
  ⟨attachHandlers_onlyBuilt w, attachHandlers_fails w⟩

/-- Nothing that the call has started is left, unless the error is latched. -/
def Binder.Cleared (w : Binder) : Prop := w.fatalShutdownError.isSome ∨ w.live = {}

theorem check_post (r : Except String Unit) (wrap : String → String) (w : Binder) :
    (check r wrap).Post w fun _ w' => w' = w := run_check r wrap w

/-- After an error something is latched. -/
theorem isSome_retained (latch : Option String) (e : String) : (latch.or (some e)).isSome := by
  cases latch <;> rfl

/-- A builder that fails shuts down what it has started, or latches the error. -/
theorem buildConnection_post {waylandSocket : String} {w : Binder} (hlive : w.live = {}) :
    (buildConnection a waylandSocket).Post w fun r w' =>
      OnlyBuilt w w' ∧ ∀ e, r = .error e → w'.Cleared := by
  have hearly : ∀ (e : String) (w' : Binder), w' = w →
      OnlyBuilt w w' ∧ ∀ e', (.error e : Except String Unit) = .error e' → w'.Cleared := by
    rintro e _ rfl
    exact ⟨refl _, fun _ _ => Or.inr hlive⟩
  refine (check_post _ _ w).bind ?_ hearly
  rintro _ _ rfl
  refine (check_post _ _ _).bind ?_ hearly
  rintro _ _ rfl
  refine (check_post _ _ _).bind ?_ hearly
  rintro _ w rfl
  -- From here on the session runs.
  refine Prog.Post.modify_bind ((attachHandlers_post _).attempt_bind ?_)
  rintro outcome w' ⟨hbuilt, hfails⟩
  cases outcome with
  | ok _ =>
    refine ⟨IsTrans.trans _ _ _ (onlyBuilt_live w _) hbuilt, ?_⟩
    rintro e ⟨⟩
  | error e =>
    obtain ⟨display, input, rfl⟩ := hfails e rfl
    refine Prog.Post.modify_bind ?_
    cases a.sessionShutdown with
    | ok _ =>
      refine ⟨onlyBuilt_live w _, fun _ _ => Or.inr ?_⟩
      show Resources.mk _ _ _ _ = _
      rw [hlive]
    | error shutdownError =>
      exact ⟨⟨⟨rfl, rfl, rfl⟩, rfl, rfl⟩, fun _ _ => Or.inl (isSome_retained _ _)⟩

/-- The client is recorded by the session manager, or is not. -/
theorem recordClient_post (w : Binder) :
    (recordClient host a).Post w fun r w' => ∃ outcome sesman,
      r = .ok outcome ∧ w' = { w with sesman := sesman } ∧ StaysStored w.sesman sesman := by
  rw [Prog.Post, recordClient]
  split_ifs with hbefore hafter
  · exact ⟨_, w.sesman, rfl, rfl, refl _⟩
  all_goals
    cases a.bindConfig with
    | error e => exact ⟨_, w.sesman, rfl, rfl, refl _⟩
    | ok config =>
      exact ⟨_, ((bindSingleClient host config).run w.sesman).2, rfl, rfl,
        staysStored_bindSingleClient _⟩

/-- After a shutdown without an error only the input is left. -/
theorem shutdownResources_post (w : Binder) :
    (shutdownResources a).Post w fun r w' => OnlyBuilt w w' ∧
      (r = .ok () → w'.live = { input := w.live.input }) := by
  refine Prog.Post.modify_bind ?_
  cases a.sessionShutdown with
  | ok _ => exact ⟨onlyBuilt_live w _, fun _ => rfl⟩
  | error e =>
    refine ⟨onlyBuilt_live w _, ?_⟩
    rintro ⟨⟩

/-! ### Failed admission -/

/-- What the call has done is undone, or its failure to do so is latched. -/
structure Undone (reused : Bool) (w w' : Binder) : Prop extends SameBindings w w' where
  cleared : w'.fatalShutdownError.isSome ∨ w'.live = {} ∧ LeftBehind reused w'.sesman

/-- What the session is after an error is up to the rollback. -/
theorem run_abandon (reused : Bool) (e : String) (w : Binder) :
    ((abandon host a reused e).run w).2 = ((rollbackEnsuredSession host a reused).run w).2 := by
  rw [abandon, Prog.run_bind]
  rcases (rollbackEnsuredSession host a reused).run w with ⟨_ | _, _⟩ <;> rfl

section

variable (hidle : a.IdleCleanup) {reused : Bool} {w : Binder}

include hidle

/-- A call that fails with nothing of a connection left. -/
theorem abandon_post {w₁ : Binder} (hsame : SameBindings w w₁) (hcleared : w₁.Cleared)
    (hkept : Kept reused w₁.sesman) (e : String) :
    (abandon host a reused e).Post w₁ fun _ w' => w'.RolledBack → Undone reused w w' := by
  rw [Prog.Post, run_abandon]
  intro hrolled
  have hleaves : LeftBehind reused ((rollbackEnsuredSession host a reused).run w₁).2.sesman :=
    rollbackEnsuredSession_leaves hidle hkept hrolled
  obtain ⟨sesman, log, heq⟩ : OnlySession w₁ ((rollbackEnsuredSession host a reused).run w₁).2 :=
    onlySession_rollbackEnsuredSession reused w₁
  rw [heq] at hleaves ⊢
  refine ⟨⟨hsame.activeBoundUser, hsame.activeConnection, hsame.audioTarget⟩, ?_⟩
  exact hcleared.imp_right fun hlive => ⟨hlive, hleaves⟩

/-- A call that fails after the connection was built. -/
theorem unbuild_post {w₁ : Binder} (hsame : SameBindings w w₁) (hkept : Kept reused w₁.sesman)
    (bindError : String) :
    (unbuild host a reused bindError).Post w₁ fun _ w' => w'.RolledBack → Undone reused w w' := by
  refine (shutdownResources_post w₁).attempt_bind ?_
  rintro outcome w₂ ⟨hbuilt, hshutdown⟩
  refine Prog.Post.modify_bind ?_
  have hsame₂ : SameBindings w w₂ :=
    ⟨hbuilt.activeBoundUser.trans hsame.activeBoundUser,
      hbuilt.activeConnection.trans hsame.activeConnection,
      hbuilt.audioTarget.trans hsame.audioTarget⟩
  cases outcome with
  | error e =>
    intro _
    refine ⟨?_, Or.inl (isSome_retained _ _)⟩
    exact ⟨hsame₂.activeBoundUser, hsame₂.activeConnection, hsame₂.audioTarget⟩
  | ok _ =>
    refine abandon_post hidle ?_ (Or.inr ?_) ?_ bindError
    · exact ⟨hsame₂.activeBoundUser, hsame₂.activeConnection, hsame₂.audioTarget⟩
    · show Resources.mk _ _ _ _ = _
      rw [hshutdown rfl]
    · exact hbuilt.sesman ▸ hkept

/-- All that comes after the session was ensured. -/
theorem bindEnsured_post {ensured : EnsureResult} (hlive : w.live = {})
    (hkept : Kept ensured.reusedExisting w.sesman) :
    (bindEnsured host a ensured).Post w fun r w' =>
      ∀ e, r = .error e → w'.RolledBack → Undone ensured.reusedExisting w w' := by
  rw [bindEnsured]
  cases prepare a ensured with
  | error e =>
    intro _ _
    exact abandon_post hidle ⟨rfl, rfl, rfl⟩ (Or.inr hlive) hkept e
  | ok runtimeDir =>
    refine (buildConnection_post hlive).attempt_bind ?_
    rintro outcome w₁ ⟨hbuilt, hcleared⟩
    have hkept₁ : Kept ensured.reusedExisting w₁.sesman := hbuilt.sesman ▸ hkept
    cases outcome with
    | error e =>
      intro _ _
      exact abandon_post hidle hbuilt.toSameBindings (hcleared e rfl) hkept₁ _
    | ok _ =>
      refine (recordClient_post w₁).bind ?_ ?_
      · rintro recorded _ ⟨_, sesman, ⟨⟩, rfl, hstays⟩
        cases recorded with
        | error fault =>
          intro _ _
          refine unbuild_post hidle ?_ ?_ _
          · exact ⟨hbuilt.activeBoundUser, hbuilt.activeConnection, hbuilt.audioTarget⟩
          · exact fun hreused => hstays (hkept₁ hreused)
        | ok _ => rintro e ⟨⟩
      · rintro _ _ ⟨_, _, ⟨⟩, -⟩

end

/-- A session that was reused is in the registry, and nothing else has changed. -/
theorem ensureSession_ok {w : Binder} {result : EnsureResult}
    (h : ((ensureSession host a).run w).1 = .ok result) :
    ∃ sesman, ((ensureSession host a).run w).2 = { w with sesman := sesman } ∧
      Kept result.reusedExisting sesman := by
  rw [ensureSession] at h ⊢
  obtain ⟨_, hgeneration, h⟩ := Prog.bind_eq_ok h
  rw [Prog.run_bind_of_ok hgeneration, run_check]
  rw [run_check] at h
  cases hgeometry : a.geometry with
  | error e =>
    rw [hgeometry] at h
    cases h
  | ok size =>
    rw [hgeometry] at h
    cases hconfig : a.ensureConfig with
    | error e =>
      rw [hconfig] at h
      cases h
    | ok config =>
      rw [hconfig] at h
      dsimp only at h ⊢
      rw [Prog.run_bind, run_onSesman_ok] at h ⊢
      dsimp only at h ⊢
      split at h
      · rename_i hresult
        cases h
        refine ⟨_, rfl, fun hreused => ?_⟩
        obtain ⟨_, state, -, hstate, -⟩ := reused_registry rfl ⟨result, hresult, hreused⟩
        exact ⟨state, hstate⟩
      · cases h

/-- **Failed admission leaks nothing.** When `bind_connection` fails although it has its session,
nothing is recorded of the connection; and either the fatal error is latched, or everything the call
has started is shut down and the session is left idle if it was reused, and stopped if not. This is
so for every outcome of the steps, as long as the rollback itself does not fail. -/
theorem failed_admission_leaks_nothing {host : Host} {a : Attempt} {w : Binder}
    {result : EnsureResult} {e : String}
    (hensure : ((ensureSession host a).run w).1 = .ok result)
    (herror : ((bindConnection host a).run w).1 = .error e)
    (hrolled : ((bindConnection host a).run w).2.RolledBack) (hidle : a.IdleCleanup) :
    SameBindings w ((bindConnection host a).run w).2 ∧
      (((bindConnection host a).run w).2.fatalShutdownError.isSome ∨
        ((bindConnection host a).run w).2.live = {} ∧
          LeftBehind result.reusedExisting ((bindConnection host a).run w).2.sesman) := by
  obtain ⟨sesman, hsesman, hkept⟩ := ensureSession_ok hensure
  rw [bindConnection, Prog.run_bind_of_ok hensure, Prog.run_bind, Prog.run_modify, hsesman]
    at herror hrolled ⊢
  have hundone :
      Undone result.reusedExisting { w with sesman := sesman, live := {}, log := [] } _ :=
    bindEnsured_post hidle rfl hkept e herror hrolled
  exact ⟨⟨hundone.activeBoundUser, hundone.activeConnection, hundone.audioTarget⟩, hundone.cleared⟩

/-- A call that reuses the disconnected session, and whose task panics once the client is bound. -/
def sampleAttempt : Attempt where
  username := "alice"
  generation := .ok ()
  geometry := .ok ⟨1280, 720⟩
  ensureConfig := .ok startingConfig
  identity := .ok ()
  resize := .ok ()
  build := {
    portalSettings := .ok (), socket := .ok (), session := .ok (), hasStreams := true
    receiver := .ok (), priming := .ok (), display := .ok (), inputAllowed := true
    input := .ok () }
  bindConfig := .ok startingConfig
  bindPanic := some .after
  sessionShutdown := .ok ()
  rollbackConfig := .ok startingConfig

/-- Nothing is bound, and the session of the sample host has no client. -/
def sampleBinder : Binder := ⟨disconnectedWorld, none, none, none, none, {}, []⟩

theorem sampleAttempt_leaks_nothing :
    ((bindConnection startingHost sampleAttempt).run sampleBinder).1 =
        .error (context "sesman client-bind task panicked" "panic") ∧
      ((bindConnection startingHost sampleAttempt).run sampleBinder).2.activeBoundUser = none ∧
      LeftBehind true ((bindConnection startingHost sampleAttempt).run sampleBinder).2.sesman := by
  have herror : ((bindConnection startingHost sampleAttempt).run sampleBinder).1 =
      .error (context "sesman client-bind task panicked" "panic") := by decide +kernel
  have hlog : ((bindConnection startingHost sampleAttempt).run sampleBinder).2.log =
      [.leftIdle, .cleanupScheduled "alice" 60000] := by decide +kernel
  have hensure : ((ensureSession startingHost sampleAttempt).run sampleBinder).1 =
      .ok ⟨true, .healthy,
        some { disconnectedState with requestedSize := some ⟨1280, 720⟩ }, []⟩ := by
    decide +kernel
  obtain ⟨hsame, hcleared⟩ := failed_admission_leaks_nothing hensure herror
    (by simp [Binder.RolledBack, hlog]) (by rintro _ ⟨⟩; decide)
  refine ⟨herror, hsame.activeBoundUser, ?_⟩
  rcases hcleared with hlatched | ⟨-, hleft⟩
  · exact absurd hlatched (by decide +kernel)
  · exact hleft

end Server

end Cheirizo
