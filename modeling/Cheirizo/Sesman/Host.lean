import Cheirizo.Clock

/-!
# The host as the session manager sees it

Processes start, exit and are replaced, files appear and vanish, and accounts change while the
session manager looks at them. A `Host` answers every look separately: it has a sequence of
snapshots, the `t`-th of which answers the `t`-th observation. Nothing is assumed about how
consecutive snapshots are related, so a statement about every host covers every way the machine can
behave, including in reaction to the signals the session manager sends.

An observation is a `Probe`: it reads snapshots one after another, moving a counter forward.
-/

namespace Cheirizo

namespace Sesman

/-- The identity of a freshly spawned process as captured for persistence. -/
structure CapturedIdentity where
  startTicks : Option UInt64
  bootId : Option String
  uid : Option UInt32
  pgid : Option ℤ
  deriving DecidableEq, Repr

/-- What `symlink_metadata` says about a path that should be a socket. -/
structure SocketMetadata where
  isSymlink : Bool
  isSocket : Bool
  uid : UInt32
  deriving DecidableEq, Repr

/-- What the host answers at one moment. -/
structure HostSnapshot where
  /-- `kill(target, 0)` succeeds: some process in the scope of the target can be signalled. -/
  killProbe : ℤ → Bool
  /-- Delivering a signal to the scope of the target succeeds. -/
  killSucceeds : ℤ → Bool
  /-- `/proc/<pid>/stat`, if it can be read. -/
  procStat : ℤ → Option String
  /-- `/proc/<pid>/status`, if it can be read. -/
  procStatus : ℤ → Option String
  /-- `/proc/sys/kernel/random/boot_id`, if it can be read. -/
  bootIdFile : Option String
  /-- `/proc/stat`, if it can be read. -/
  kernelStat : Option String
  /-- `sysconf(_SC_CLK_TCK)`, if it is defined. -/
  clockTicks : Option ℤ
  utcNow : DateTime
  /-- Nanoseconds by which the monotonic clock runs on during this observation. -/
  drift : ℕ
  /-- `id -u <user>`, `id -g <user>`, `id -G <user>` and the home directory of the account. -/
  uidForUser : String → Option UInt32
  gidForUser : String → Option UInt32
  supplementaryGroups : String → Option (List UInt32)
  homeDir : String → Option String
  socketMetadata : String → Option SocketMetadata
  socketAccepts : String → Bool
  /-- The managed directories exist, or could be created, with the required owner and mode. -/
  directoriesReady : Bool
  lockFree : Bool
  /-- The registry file passes its type and ownership checks and can be read. -/
  stateFileReadable : Bool
  stateFileWritable : Bool
  /-- The registry file passes its checks and can be unlinked. -/
  stateFileRemovable : Bool
  /-- Every configured runtime path could be removed. -/
  runtimePathsRemovable : Bool
  /-- The child started for a component, with the last identity captured while it settled. -/
  spawned : String → Option (ℤ × CapturedIdentity)
  /-- A fresh random identifier. -/
  freshId : ℕ

/-- The answers to successive observations, and the calendar in which its clock is read. -/
structure Host where
  snapshot : ℕ → HostSnapshot
  calendar : Calendar

instance : CoeFun Host fun _ => ℕ → HostSnapshot := ⟨Host.snapshot⟩

/-- An observation of the host: from the number of the next answer to a result and the number
after the last answer used. -/
structure Probe (α : Type) where
  run : ℕ → α × ℕ
  /-- An answer is never used again. -/
  forward : ∀ t, t ≤ (run t).2

namespace Probe

variable {α β : Type}

instance : Monad Probe where
  pure a := ⟨fun t => (a, t), fun _ => Nat.le_refl _⟩
  bind x f := ⟨fun t => (f (x.run t).1).run (x.run t).2,
    fun t => Nat.le_trans (x.forward t) ((f _).forward _)⟩

@[simp] theorem run_pure (a : α) (t : ℕ) : (pure a : Probe α).run t = (a, t) := rfl

@[simp] theorem run_bind (x : Probe α) (f : α → Probe β) (t : ℕ) :
    (x >>= f).run t = (f (x.run t).1).run (x.run t).2 := rfl

end Probe

variable (host : Host)

/-- One look at the host. -/
def look {α : Type} (f : HostSnapshot → α) : Probe α :=
  ⟨fun t => (f (host t), t + 1), fun _ => Nat.le_succ _⟩

end Sesman

end Cheirizo
