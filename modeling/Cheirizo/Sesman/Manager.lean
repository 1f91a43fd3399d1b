import Cheirizo.Lib.Machine
import Cheirizo.Sesman.State

/-!
# The session manager

`SessionManager` of `src/sesman/mod.rs`: every operation on the registry, over an arbitrary host.
An operation that fails part-way keeps what it has already done, and the registry lock is held from
`acquireLock` to the end of the operation, so nothing else runs between two of its steps.

## Main definitions

* `status`, `ensure`, `stop`, `bindSingleClient`, `unbindSingleClient`, `disconnectClient`,
  `cleanupIdle`, `reconcileAfterDaemonRestart` — the public operations
* `stopState` — teardown of every authenticated process of a session state
* `effectiveIdleDeadline` — when an idle session becomes eligible for cleanup
* `SesmanOp`, `sesmanMachine` — the operations as inputs
-/

namespace Cheirizo

namespace Sesman

variable (host : Host) (config : SesmanConfig)

/-! ### Files and locks -/

/-- The directories of a session are made for its user, who must exist. -/
def prepareDirectories : Routine Unit := do
  if (← observe host (look host fun h => h.uidForUser config.user)).isNone then
    Prog.fail (.error ("failed to resolve uid for user " ++ config.user))
  else if (← observe host (look host fun h => h.gidForUser config.user)).isNone then
    Prog.fail (.error ("failed to resolve gid for user " ++ config.user))
  else if !(← observe host (look host fun h => h.directoriesReady)) then
    Prog.fail (.error "unsafe sesman directory")
  else return ()

/-- The lock file of the session. It is released when the operation returns, so that here only
taking it is a step. -/
def acquireLock : Routine Unit := do
  if !(← observe host (look host fun h => h.lockFree)) then
    Prog.fail (.error "session is already locked")
  else return ()

/-- `read_state_file` and the parsing done by its only caller. -/
def readStateFile : Routine (Option SessionState) := do
  match ← Prog.gets World.registry with
  | .missing => return none
  | registry =>
    if !(← observe host (look host fun h => h.stateFileReadable)) then
      Prog.fail (.error "untrusted sesman state file")
    else match registry with
    | .stored state => return some state
    | _ => Prog.fail (.error "failed to parse sesman state file")

/-- The registry file is replaced as a whole: a failed write leaves the old one. -/
def writeState (state : SessionState) : Routine Unit := do
  if !(← observe host (look host fun h => h.stateFileWritable)) then
    Prog.fail (.error "failed to write sesman state file")
  else
    act (.storeState state)
    Prog.modify fun w => { w with registry := .stored state }

/-- A registry file that is missing already is no error. -/
def removeStateFile : Routine Unit := do
  match ← Prog.gets World.registry with
  | .missing => return ()
  | _ =>
    if !(← observe host (look host fun h => h.stateFileRemovable)) then
      Prog.fail (.error "failed to remove sesman state file")
    else
      act .removeState
      Prog.modify fun w => { w with registry := .missing }

/-- The stale sockets and files of an earlier session. The paths themselves are the subject of
another module. -/
def cleanupRuntimePaths : Routine Unit := do
  act .cleanupRuntimePaths
  if !(← observe host (look host fun h => h.runtimePathsRemovable)) then
    Prog.fail (.error "failed to remove stale runtime path")
  else return ()

/-! ### Status -/

/-- A registry was written for this session of this user, in this boot of the machine. -/
def stateBelongsToConfig (state : SessionState) : Probe Bool := do
  let expectedUid ← look host fun h => h.uidForUser config.user
  let expectedGid ← look host fun h => h.gidForUser config.user
  if state.version = stateVersion ∧ state.name = config.sessionName ∧ state.user = config.user ∧
      state.xdgRuntimeDir = config.xdgRuntimeDir then
    return state.bootId = (← readBootId host) && state.uid = expectedUid && state.gid = expectedGid
  else return false

/-- A socket is ready once the user of the session owns it and something answers on it. A symbolic
link never is. -/
def unixSocketReady (path : String) : Probe Bool := do
  match ← look host fun h => h.uidForUser config.user with
  | none => return false
  | some targetUid =>
    match ← look host fun h => h.socketMetadata path with
    | none => return false
    | some metadata =>
      if !metadata.isSymlink ∧ metadata.isSocket ∧ metadata.uid = targetUid then
        look host fun h => h.socketAccepts path
      else return false

/-- The record of a configured component describes a live, ready process. -/
def componentReady (configured : ComponentConfig) (component : ComponentState) : Probe Bool := do
  if component.command = configured.command :: configured.args then
    if ← processMatches host (componentSignature component) .status then
      match configured.readiness with
      | .none | .processAlive => return true
      | .unixSocket path => unixSocketReady host config path
    else return false
  else return false

/-- Walk the configured components: how many are alive, and the names of the dead ones. -/
def classifyConfigured (state : SessionState) : List ComponentConfig → Probe (ℕ × List String)
  | [] => return (0, [])
  | configured :: rest => do
    match state.components.find? fun s => s.name = configured.name with
    | none =>
      let (alive, dead) ← classifyConfigured state rest
      return (alive, if configured.required then configured.name :: dead else dead)
    | some component =>
      let ready ← componentReady host config configured component
      let (alive, dead) ← classifyConfigured state rest
      return if ready then (alive + 1, dead) else (alive, component.name :: dead)

/-- The health of a registered session: healthy if nothing is amiss, dead if no component lives, and
degraded in between. -/
def classify (state : SessionState) : Probe SessionStatus := do
  let (alive, dead) ← (do
    if ← stateBelongsToConfig host config state then
      let (alive, dead) ← classifyConfigured host config state config.components
      -- A component that is no longer configured must not be reused.
      let removed := state.components.filter fun persisted =>
        !config.components.any fun configured => configured.name = persisted.name
      return (alive, dead ++ removed.map ComponentState.name)
    else return (0, ["session-registry"]) : Probe (ℕ × List String))
  let health := if dead.isEmpty then .healthy else if alive = 0 then .dead else .degraded
  return { health, state := some state, deadComponents := dead }

/-- A registry that is missing or cannot be read is a missing session. -/
def status : Routine SessionStatus := do
  match ← readStateFile host with
  | none => return { health := .missing, state := none, deadComponents := [] }
  | some state => observe host (classify host config state)

/-- A degraded session still serves a client if only optional components are gone. -/
def statusCanServe (status : SessionStatus) : Bool :=
  status.health = .healthy || (status.health = .degraded &&
    status.deadComponents.all fun name =>
      ((config.components.find? fun component => component.name = name).any fun component =>
        !component.required))

/-! ### Teardown -/

/-- Authenticate one component while its leader is still observable. -/
def authorizeTarget (stateIsOwned : Bool) (component : ComponentState) : Probe Bool := do
  if stateIsOwned then
    if ← processMatches host (componentSignature component) .signal then
      return !component.processGroup || component.pgid = some component.pid
    else return false
  else return false

/-- Authenticate every component, once. -/
def authorizeTargets (stateIsOwned : Bool) :
    List ComponentState → Probe (List (ComponentState × Bool))
  | [] => return []
  | component :: rest => do
    let authorized ← authorizeTarget host stateIsOwned component
    return (component, authorized) :: (← authorizeTargets stateIsOwned rest)

/-- An authorized target still runs: its process group, or else the authenticated process. -/
def targetAlive (target : ComponentState × Bool) : Probe Bool :=
  if !target.2 then return false
  else if target.1.processGroup then processGroupAlive host target.1.pid
  else processMatches host (componentSignature target.1) .signal

/-- No target of a teardown is alive any more. -/
def allTargetsStopped : List (ComponentState × Bool) → Probe Bool
  | [] => return true
  | target :: rest => do
    if ← targetAlive host target then return false
    else allTargetsStopped rest

/-- The names of the targets that still run. -/
def survivors : List (ComponentState × Bool) → Probe (List String)
  | [] => return []
  | target :: rest => do
    let alive ← targetAlive host target
    let names ← survivors rest
    return if alive then target.1.name :: names else names

/-- Deliver a signal; the result says whether the host accepted it. -/
def signalProcess (pid : ℤ) (processGroup : Bool) (sig : Signal) : Routine Bool := do
  let target := if processGroup then -pid else pid
  act (.signal (← Prog.gets World.tick) target sig)
  observe host (look host fun h => h.killSucceeds target)

/-- The error of a signal that was refused. -/
def signalError (pid : ℤ) (processGroup : Bool) : Fault :=
  .error ((if processGroup then "failed to signal process group " else "failed to signal pid ")
    ++ toString pid)

/-- A target is looked at again just before it is signalled. -/
def signalTarget (sig : Signal) (target : ComponentState × Bool) : Routine Unit := do
  if ← observe host (targetAlive host target) then
    if !(← signalProcess host target.1.pid target.1.processGroup sig) then
      -- A refused signal matters only if its target is still there.
      if ← observe host (targetAlive host target) then
        Prog.fail (signalError target.1.pid target.1.processGroup)

/-- The first refused signal ends the round. -/
def signalTargets (sig : Signal) : List (ComponentState × Bool) → Routine Unit
  | [] => return ()
  | target :: rest => do
    signalTarget host sig target
    signalTargets sig rest

/-- One poll of a teardown wait: done at the deadline, or when every target has stopped. -/
def stopPoll (targets : List (ComponentState × Bool)) (deadline : Instant) :
    Routine (Option Unit) := do
  if (← Prog.gets World.clock) < deadline then
    return if ← observe host (allTargetsStopped host targets) then some () else none
  else return some ()

/-- Wait until every target has stopped, or for the stop timeout. -/
def awaitStopped (targets : List (ComponentState × Bool)) : Routine Unit := do
  let deadline := (← Prog.gets World.clock) + millis config.stopTimeoutMs
  let _ ← poll host (stopPoll host targets deadline) (pollCount config.stopTimeoutMs)

/-- `stop_state` after authorization: both signal rounds, then the required cleanup, and only then
the registry. -/
def teardown (targets : List (ComponentState × Bool)) : Routine Unit := do
  signalTargets host .sigterm targets.reverse
  awaitStopped host config targets
  signalTargets host .sigkill targets.reverse
  awaitStopped host config targets
  let names ← observe host (survivors host targets)
  if names ≠ [] then
    Prog.fail (.error ("managed targets survived SIGKILL; retaining session state: " ++
      String.intercalate ", " names))
  else
    cleanupRuntimePaths host
    removeStateFile host

/-- The targets are authorized once, before the first signal. -/
def stopState (state : SessionState) : Routine Unit := do
  let stateIsOwned ← observe host (stateBelongsToConfig host config state)
  let targets ← observe host (authorizeTargets host stateIsOwned state.components)
  teardown host config targets

/-- A teardown of the registered session, if there is one, under a lock that is held already. -/
def stopLocked : Routine Unit := do
  match (← status host config).state with
  | none => return ()
  | some state => stopState host config state

/-- `SessionManager::stop`. -/
def stop : Routine SessionStatus := do
  acquireLock host
  stopLocked host config
  status host config

/-! ### Idle deadlines -/

/-- The deadline for a disconnect at `base`. The configured timeout is reinterpreted as a signed
number of milliseconds; a duration or a time that is not representable panics. -/
def idleDeadlineAfter (calendar : Calendar) (base : DateTime) : Except Fault (Option DateTime) :=
  if config.idleTimeoutMs = 0 then .ok none
  else
    let timeout := config.idleTimeoutMs.toInt64.toInt
    if timeout = -2 ^ 63 then .error .panic
    else
      match calendar.checked (base + timeout * 1000000) with
      | some deadline => .ok (some deadline)
      | none => .error .panic

/-- A stored deadline is authoritative; without one it derives from the disconnect time. -/
def effectiveIdleDeadline (calendar : Calendar) (state : SessionState) :
    Except Fault (Option DateTime) :=
  match state.idleDeadlineAt with
  | some deadline => .ok (some deadline)
  | none =>
    if config.idleTimeoutMs = 0 then .ok none
    else
      match state.lastDisconnectedAt with
      | none => .ok none
      | some disconnected => idleDeadlineAfter config calendar disconnected

/-- Continue with a computed value, or stop with its fault. -/
def liftFault {α : Type} : Except Fault α → Routine α
  | .ok a => return a
  | .error e => Prog.fail e

/-- The wall clock. -/
def utcNow : Routine DateTime := observe host (look host fun h => h.utcNow)

/-- Every write of the registry carries the time it was made. -/
def markUpdated (state : SessionState) : Routine SessionState := do
  return { state with updatedAt := ← utcNow host }

/-! ### Clients -/

/-- The health as Rust's derived `Debug` prints it. -/
def SessionHealth.debug : SessionHealth → String
  | .missing => "Missing"
  | .healthy => "Healthy"
  | .degraded => "Degraded"
  | .dead => "Dead"

/-- A client takes the session over: it becomes the only one. -/
def bindSingleClient : Routine SessionStatus := do
  acquireLock host
  let current ← status host config
  if !statusCanServe config current then
    Prog.fail (.error ("cannot bind client to " ++ current.health.debug ++ " session"))
  else
    match current.state with
    | none => Prog.fail (.error "healthy status without state")
    | some state =>
      let state ← markUpdated host
        { state with activeClients := 1, lastDisconnectedAt := none, idleDeadlineAt := none }
      writeState host state
      status host config

/-- The session is left without a client, and its idle time starts. -/
def unbindSingleClient : Routine SessionStatus := do
  acquireLock host
  let current ← status host config
  match current.state with
  | none => return current
  | some state =>
    let now ← utcNow host
    let deadline ← liftFault (idleDeadlineAfter config host.calendar now)
    let state ← markUpdated host
      { state with activeClients := 0, lastDisconnectedAt := some now, idleDeadlineAt := deadline }
    writeState host state
    status host config

/-- When the last client has gone, note when, and how long the session is kept. -/
def noteIdle (state : SessionState) : Routine SessionState := do
  if state.activeClients = 0 then
    let now ← utcNow host
    let deadline ← liftFault (idleDeadlineAfter config host.calendar now)
    return { state with lastDisconnectedAt := some now, idleDeadlineAt := deadline }
  else return state

/-- One client leaves. The idle time starts with the last one. -/
def disconnectClient : Routine SessionStatus := do
  acquireLock host
  let current ← status host config
  match current.state with
  | none => return current
  | some state =>
    -- Saturating subtraction.
    let state ← noteIdle host config { state with
      activeClients := if state.activeClients = 0 then 0 else state.activeClients - 1 }
    let state ← markUpdated host state
    writeState host state
    status host config

/-! ### Idle cleanup -/

/-- A session without clients that is past its deadline is torn down. -/
def cleanupIdleLocked : Routine Bool := do
  let current ← status host config
  if current.health = .missing then return false
  else
    match current.state with
    | none => return false
    | some state =>
      if 0 < state.activeClients then return false
      else
        match ← liftFault (effectiveIdleDeadline config host.calendar state) with
        | none => return false
        | some deadline =>
          if (← utcNow host) < deadline then return false
          else
            stopLocked host config
            return true

/-- `SessionManager::cleanup_idle`. -/
def cleanupIdle : Routine Bool := do
  acquireLock host
  cleanupIdleLocked host config

/-- The client bookkeeping of a restart: no client is attached, a missing disconnect time is now,
and a missing deadline counts from the disconnect. The flag says whether anything changed. -/
def reconcileState (calendar : Calendar) (now : DateTime) (state : SessionState) :
    Except Fault (SessionState × Bool) :=
  let disconnected := state.lastDisconnectedAt.getD now
  if state.idleDeadlineAt.isNone ∧ config.idleTimeoutMs ≠ 0 then
    match idleDeadlineAfter config calendar disconnected with
    | .error e => .error e
    | .ok deadline =>
      .ok ({ state with
        activeClients := 0
        lastDisconnectedAt := some disconnected
        idleDeadlineAt := deadline }, true)
  else
    .ok ({ state with activeClients := 0, lastDisconnectedAt := some disconnected },
      0 < state.activeClients || state.lastDisconnectedAt.isNone)

/-- A new daemon knows of no client, so a registered session is left without one. -/
def reconcileAfterDaemonRestart : Routine SessionStatus := do
  acquireLock host
  let current ← status host config
  match current.state with
  | none => return current
  | some state =>
    let now ← utcNow host
    let (state, changed) ← liftFault (reconcileState config host.calendar now state)
    if changed then writeState host (← markUpdated host state)
    let _ ← cleanupIdleLocked host config
    status host config

/-! ### Starting a session -/

/-- The registry of a session that is being started: no component and no client yet. -/
def SessionState.new : Routine SessionState := do
  let now ← utcNow host
  let id ← observe host (look host fun h => h.freshId)
  let bootId ← observe host (readBootId host)
  let uid ← observe host (look host fun h => h.uidForUser config.user)
  let gid ← observe host (look host fun h => h.gidForUser config.user)
  return {
    version := stateVersion
    id
    name := config.sessionName
    user := config.user
    createdAt := now
    updatedAt := now
    xdgRuntimeDir := config.xdgRuntimeDir
    bootId
    uid
    gid
    defaultSize := config.defaultSize
    requestedSize := none
    lastClient := none
    activeClients := 0
    lastDisconnectedAt := none
    idleDeadlineAt := none
    components := [] }

/-- Remember who connected. -/
def noteClient (state : SessionState) (options : EnsureOptions) : Routine SessionState := do
  match options.clientPeer with
  | none => return state
  | some peer =>
    let connectedAt ← utcNow host
    return { state with
      lastClient := some { peer, connectedAt, requestedSize := options.requestedSize } }

/-- Count an attached client, saturating. -/
def attachClient (state : SessionState) : SessionState :=
  { state with
    activeClients := if state.activeClients = -1 then -1 else state.activeClients + 1
    lastDisconnectedAt := none
    idleDeadlineAt := none }

/-- What a call to `ensure` leaves in the registry: the size and the peer it names, and its client
if it brings one. -/
def updateReconnectState (state : SessionState) (options : EnsureOptions) :
    Routine SessionState := do
  let state ← noteClient host
    { state with requestedSize := options.requestedSize.or state.requestedSize } options
  markUpdated host (if options.clientConnected then attachClient state else state)

/-- A component is started as the user of the session, and recorded with what identifies its
process. -/
def spawnComponent (component : ComponentConfig) : Routine ComponentState := do
  if (← observe host (look host fun h => h.uidForUser config.user)).isNone then
    Prog.fail (.error ("failed to resolve uid for user " ++ config.user))
  else if (← observe host (look host fun h => h.gidForUser config.user)).isNone then
    Prog.fail (.error ("failed to resolve gid for user " ++ config.user))
  else if (← observe host (look host fun h => h.supplementaryGroups config.user)).isNone then
    Prog.fail (.error ("failed to resolve supplementary groups for user " ++ config.user))
  else if (← observe host (look host fun h => h.homeDir config.user)).isNone then
    Prog.fail (.error ("failed to resolve passwd entry for user " ++ config.user))
  else
    match ← observe host (look host fun h => h.spawned component.name) with
    | none => Prog.fail (.error ("failed to spawn component " ++ component.name))
    | some (pid, identity) =>
      act (.spawn component.name pid)
      let startedAt ← utcNow host
      return {
        name := component.name
        pid
        command := component.command :: component.args
        startedAt
        startTicks := identity.startTicks
        bootId := identity.bootId
        uid := identity.uid
        pgid := identity.pgid
        required := component.required
        processGroup := true }

/-- An optional component may fail to start. -/
def giveUp (component : ComponentConfig) (message : String) : Routine (Option Unit) :=
  if component.required then Prog.fail (.error message) else return some ()

/-- One poll of a readiness wait. -/
def readyPoll (component : ComponentConfig) (state : SessionState) (deadline : Instant) :
    Routine (Option Unit) := do
  let alive ← observe host
    (match state.components.find? fun candidate => candidate.name = component.name with
    | some candidate => processMatches host (componentSignature candidate) .status
    | none => return false)
  if !alive then
    giveUp component ("component " ++ component.name ++ " exited before becoming ready")
  else
    let ready ← observe host
      (match component.readiness with
      | .none | .processAlive => return true
      | .unixSocket path => unixSocketReady host config path)
    if ready then return some ()
    else if deadline ≤ (← Prog.gets World.clock) then
      giveUp component ("timed out waiting for component " ++ component.name ++ " readiness")
    else return none

/-- A component is polled until it is ready, or its time is over. -/
def waitUntilReady (component : ComponentConfig) (state : SessionState) : Routine Unit := do
  let deadline := (← Prog.gets World.clock) + millis config.startTimeoutMs
  let _ ← poll host (readyPoll host config component state deadline)
    (pollCount config.startTimeoutMs)

/-- Store the state of a session with a new component and wait for the component. -/
def launchComponent (component : ComponentConfig) (state : SessionState) : Routine Unit := do
  writeState host state
  waitUntilReady host config component state
  if 0 < component.startupDelayMs then sleep host (millis component.startupDelayMs)

/-- Start the components in order. The state is returned even when starting fails: it holds the
only record of what has been spawned. -/
def startComponents :
    List ComponentConfig → SessionState → Routine (SessionState × Except Fault Unit)
  | [], state => return (state, .ok ())
  | component :: rest, state => do
    match ← (spawnComponent host config component).attempt with
    | .error e => return (state, .error e)
    | .ok componentState =>
      let state ← markUpdated host { state with components := state.components ++ [componentState] }
      match ← (launchComponent host config component state).attempt with
      | .error e => return (state, .error e)
      | .ok () => startComponents rest state

/-- Context added to the error of a failed start. -/
def Fault.context (outer : String) : Fault → Fault
  | .error message => .error (outer ++ ": " ++ message)
  | .panic => .panic

/-- The text of a failure. The source has none for a panic. -/
def Fault.message : Fault → String
  | .error message => message
  | .panic => "panic"

/-- A start that fails half way is torn down again, and its error says so. -/
def startSession (options : EnsureOptions) : Routine EnsureResult := do
  cleanupRuntimePaths host
  let state ← SessionState.new host config
  let state ← updateReconnectState host state options
  match ← startComponents host config config.components state with
  | (_, .ok ()) => return { reusedExisting := false, status := ← status host config }
  | (state, .error startError) =>
    -- The in-memory state is stopped: the registry may lack the last component.
    match ← (stopState host config state).attempt with
    | .error cleanupError => Prog.fail (startError.context
        ("session startup failed and partial-session cleanup also failed: " ++
          cleanupError.message))
    | .ok () => Prog.fail (startError.context "session startup failed; partial session was stopped")

/-- The status `ensure` decides on: the current one, or the one after a forced stop. -/
def restartIfForced (options : EnsureOptions) : Routine SessionStatus := do
  let current ← status host config
  if options.forceRestart then
    stopLocked host config
    status host config
  else return current

/-- A session that can serve is reused. Otherwise what is left of it is torn down, and a new one is
started. -/
def ensure (options : EnsureOptions) : Routine EnsureResult := do
  prepareDirectories host config
  acquireLock host
  let current ← restartIfForced host config options
  if statusCanServe config current then
    match current.state with
    | none => Prog.fail (.error "usable status without state")
    | some state =>
      let state ← updateReconnectState host state options
      writeState host state
      return { reusedExisting := true, status := ← status host config }
  else
    if current.health = .degraded ∨ current.health = .dead then stopLocked host config
    startSession host config options

/-! ### The manager as a machine -/

/-- The public operations that change something. -/
inductive SesmanOp where
  | ensure (options : EnsureOptions)
  | stop
  | bindSingleClient
  | unbindSingleClient
  | disconnectClient
  | cleanupIdle
  | reconcile
  deriving DecidableEq, Repr

/-- Run one operation, for its effect. -/
def SesmanOp.run (op : SesmanOp) (w : World) : World :=
  match op with
  | .ensure options => ((Sesman.ensure host config options).run w).2
  | .stop => ((Sesman.stop host config).run w).2
  | .bindSingleClient => ((Sesman.bindSingleClient host config).run w).2
  | .unbindSingleClient => ((Sesman.unbindSingleClient host config).run w).2
  | .disconnectClient => ((Sesman.disconnectClient host config).run w).2
  | .cleanupIdle => ((Sesman.cleanupIdle host config).run w).2
  | .reconcile => ((reconcileAfterDaemonRestart host config).run w).2

/-- The session manager driven by a sequence of operations. -/
def sesmanMachine : Machine World SesmanOp Empty where
  step w op := (op.run host config w, [])

end Sesman

end Cheirizo
