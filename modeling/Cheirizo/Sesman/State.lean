import Cheirizo.Lib.Prog
import Cheirizo.Sesman.Process

/-!
# Session registry and configuration

The persisted schema of `src/sesman/state.rs` and the world the session manager acts on. The
registry is one file: absent, holding a session state, or holding something that does not parse.

What the manager does to its surroundings is kept in a log: every signal it delivers, every state
it stores and every file it removes. Nothing else in the model changes a process or the registry.

## Main definitions

* `SesmanConfig`, `ComponentConfig` — configuration, as far as the lifecycle reads it
* `SessionState`, `ComponentState` — one registry entry and the process records in it
* `World` — the registry, the clock, the number of the next host answer, and the log
* `observe`, `sleep`, `poll` — time passing while the manager looks or waits
-/

namespace Cheirizo

namespace Sesman

/-! ### Configuration -/

/-- The size of a virtual desktop in pixels. -/
structure SessionSize where
  width : UInt32
  height : UInt32
  deriving DecidableEq, Repr

/-- Readiness signal for a component. -/
inductive ReadinessCheck where
  | processAlive
  | unixSocket (path : String)
  | none
  deriving DecidableEq, Repr

/-- A managed process. -/
structure ComponentConfig where
  name : String
  command : String
  args : List String
  readiness : ReadinessCheck
  required : Bool
  startupDelayMs : ℕ
  deriving DecidableEq, Repr

/-- The part of a configuration that the manager reads. How a file is read is the subject of other
modules. -/
structure SesmanConfig where
  sessionName : String
  user : String
  xdgRuntimeDir : String
  defaultSize : SessionSize
  startTimeoutMs : ℕ
  stopTimeoutMs : ℕ
  /-- How long a disconnected session is kept; zero disables automatic cleanup. -/
  idleTimeoutMs : UInt64
  components : List ComponentConfig
  deriving DecidableEq, Repr

/-! ### The registry -/

/-- The registry schema this version reads and writes. -/
def stateVersion : UInt32 := 2

/-- The client that connected last. -/
structure ClientInfo where
  peer : String
  connectedAt : DateTime
  requestedSize : Option SessionSize
  deriving DecidableEq, Repr

/-- Process record of one managed component. -/
structure ComponentState where
  name : String
  pid : ℤ
  command : List String
  startedAt : DateTime
  startTicks : Option UInt64
  bootId : Option String
  uid : Option UInt32
  pgid : Option ℤ
  required : Bool
  /-- Teardown signals the whole process group. -/
  processGroup : Bool
  deriving DecidableEq, Repr

/-- The registry file of a session. -/
structure SessionState where
  version : UInt32
  id : ℕ
  name : String
  user : String
  createdAt : DateTime
  updatedAt : DateTime
  xdgRuntimeDir : String
  bootId : Option String
  uid : Option UInt32
  gid : Option UInt32
  defaultSize : SessionSize
  requestedSize : Option SessionSize
  lastClient : Option ClientInfo
  activeClients : UInt32
  lastDisconnectedAt : Option DateTime
  idleDeadlineAt : Option DateTime
  components : List ComponentState
  deriving DecidableEq, Repr

/-- How much of a registered session is still there. -/
inductive SessionHealth where
  | missing
  | healthy
  | degraded
  | dead
  deriving DecidableEq, Repr

/-- The answer to a question about a session. -/
structure SessionStatus where
  health : SessionHealth
  state : Option SessionState
  deadComponents : List String
  deriving DecidableEq, Repr

/-- What `ensure` did, and the session it left. -/
structure EnsureResult where
  reusedExisting : Bool
  status : SessionStatus
  deriving DecidableEq, Repr

/-- What a client asks of `ensure`. -/
structure EnsureOptions where
  forceRestart : Bool
  requestedSize : Option SessionSize
  clientPeer : Option String
  clientConnected : Bool
  deriving DecidableEq, Repr

/-- What a registry says about the process of a component. -/
def componentSignature (component : ComponentState) : ProcessSignature where
  pid := component.pid
  command := component.command
  startedAt := component.startedAt
  startTicks := component.startTicks
  bootId := component.bootId
  uid := component.uid
  pgid := component.pgid

/-! ### The world -/

/-- The contents of the registry file. -/
inductive Registry where
  | missing
  | stored (state : SessionState)
  | malformed
  deriving DecidableEq, Repr

/-- A teardown asks first and kills then. -/
inductive Signal where
  | sigterm
  | sigkill
  deriving DecidableEq, Repr

/-- One thing the manager did to its surroundings. -/
inductive Action where
  /-- A signal, with the number of the host answer that reports its delivery. -/
  | signal (tick : ℕ) (target : ℤ) (sig : Signal)
  | spawn (component : String) (pid : ℤ)
  | storeState (state : SessionState)
  | removeState
  | cleanupRuntimePaths
  deriving DecidableEq, Repr

/-- What the manager reads and writes: the host's answers in their order, the time, the registry
file, and a log of what was done to the host. -/
structure World where
  /-- The number of the next host answer. -/
  tick : ℕ
  clock : Instant
  registry : Registry
  log : List Action
  deriving DecidableEq, Repr

/-- Why an operation gave up: with an error, or by a panic that unwinds it. -/
inductive Fault where
  | error (message : String)
  | panic
  deriving DecidableEq, Repr

/-- An operation of the session manager. -/
abbrev Routine (α : Type) : Type := Prog World Fault α

variable (host : Host)

/-- Look at the host. -/
def observe {α : Type} (x : Probe α) : Routine α := fun w =>
  (.ok (x.run w.tick).1,
    { w with tick := (x.run w.tick).2, clock := w.clock + (host w.tick).drift })

/-- Do something to the surroundings. -/
def act (a : Action) : Routine Unit := Prog.modify fun w => { w with log := w.log ++ [a] }

/-- Let at least the given duration pass. -/
def sleep (duration : ℕ) : Routine Unit := fun w =>
  (.ok (), { w with tick := w.tick + 1, clock := w.clock + duration + (host w.tick).drift })

/-- The period at which the manager polls. -/
def pollInterval : ℕ := millis 100

/-- Repeat `body` at the polling interval until it has a result, at most the given number of
times. -/
def poll {α : Type} (body : Routine (Option α)) : ℕ → Routine (Option α)
  | 0 => pure none
  | n + 1 => do
    match ← body with
    | some a => return some a
    | none => do
      sleep host pollInterval
      poll body n

/-- How many polls fit into a timeout. -/
def pollCount (timeoutMs : ℕ) : ℕ := timeoutMs / 100 + 1 + 1

@[simp] theorem run_observe {α : Type} (x : Probe α) (w : World) :
    (observe host x).run w = (.ok (x.run w.tick).1,
      { w with tick := (x.run w.tick).2, clock := w.clock + (host w.tick).drift }) := rfl

@[simp] theorem run_act (a : Action) (w : World) :
    (act a).run w = (.ok (), { w with log := w.log ++ [a] }) := rfl

@[simp] theorem run_sleep (duration : ℕ) (w : World) :
    (sleep host duration).run w = (.ok (), { w with
      tick := w.tick + 1, clock := w.clock + duration + (host w.tick).drift }) := rfl

end Sesman

end Cheirizo
