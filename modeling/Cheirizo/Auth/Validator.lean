import Cheirizo.Clock
import Cheirizo.Lib.Machine
import Cheirizo.Lib.Text
import Mathlib.Logic.Function.Basic

/-!
# Credential validators

`src/auth`: the two validators a daemon can be configured with, and the guard against guessing that
both consult. The guard counts the failed logins of each address and holds an address back for a
time that grows with the count. It is told the address of the current connection beforehand, and it
forgets an address two minutes after its last failure.

## What is a parameter

Which characters are letters or digits, and whether a password fits a hash, are questions for
Unicode tables and for Argon2: `isAlphanumeric` and `verifyPassword`. PAM runs on a thread of its
own and may have state of its own, so its answer is part of the attempt: accepted, refused, or an
error if the thread did not come back with an answer.

## Main definitions

* `PeerGuard` with `blockedFor`, `failure`, `success`, `prune`
* `PamValidator.validate`, `StaticPasswordValidator.validate`
* `authMachine` — a validator over connections, attempts and prunes
-/

namespace Cheirizo

namespace Auth

/-! ### User names -/

/-- The account name without its domain, whichever way that is written. -/
def normalizeLocalAccountName (username : String) : String :=
  let cs := username.toList
  let withoutDomain := ((Text.rsplitOnce ['\\'] cs).map Prod.snd).getD cs
  String.ofList (withoutDomain.takeWhile (· ≠ '@'))

/-- The control characters of Unicode. -/
def isControl (c : Char) : Bool := c.val < 0x20 || (0x7F ≤ c.val && c.val ≤ 0x9F)

/-- The checks in their order. The error of the first that fails is the answer. -/
def validateUsername (isAlphanumeric : Char → Bool) (username : String) : Except String Unit :=
  if username.isEmpty then .error "Username cannot be empty"
  else if 255 < username.utf8ByteSize then
    .error "Username exceeds the supported identity length"
  else if username.toList.any isControl then .error "Username contains control characters"
  else if !(username.toList.all fun c => isAlphanumeric c || c ∈ ['_', '-', '.', '\\', '@']) then
    .error "Username contains unsupported punctuation"
  else if (normalizeLocalAccountName username).isEmpty then
    .error "Username has no local account component"
  else .ok ()

/-! ### The guard -/

/-- The address of a peer, as a number. -/
inductive IpAddr where
  | v4 (bits : UInt32)
  | v6 (high low : UInt64)
  deriving DecidableEq, Repr

/-- The failed logins of an address, and when the last one was. -/
structure Failure where
  count : UInt8
  at_ : Instant
  deriving DecidableEq, Repr

/-- The peer whose attempt comes next, and the failures of all peers. -/
structure PeerGuard where
  current : IpAddr
  failures : IpAddr → Option Failure

namespace PeerGuard

/-- No peer has failed. -/
def new : PeerGuard := ⟨.v4 0, fun _ => none⟩

/-- The guard is told of the peer before it attempts anything. -/
def setPeer (g : PeerGuard) (ip : IpAddr) : PeerGuard := { g with current := ip }

/-- How long an address is held back after so many failures. -/
def lockFor (count : UInt8) : Option ℕ :=
  if count ≤ 3 then none
  else if count = 4 then some (seconds 5)
  else if count = 5 then some (seconds 15)
  else some (seconds 60)

/-- How much longer the address is held back. The last instant of a lock still counts. -/
def blockedFor (g : PeerGuard) (ip : IpAddr) (now : Instant) : Option ℕ :=
  match g.failures ip with
  | none => none
  | some e =>
    match lockFor e.count with
    | none => none
    | some lock => if now - e.at_ ≤ lock then some (lock - (now - e.at_)) else none

/-- Count a failure, saturating. -/
def failure (g : PeerGuard) (ip : IpAddr) (now : Instant) : PeerGuard :=
  let count := ((g.failures ip).map Failure.count).getD 0
  let entry : Failure := ⟨if count = 255 then 255 else count + 1, now⟩
  { g with failures := Function.update g.failures ip (some entry) }

/-- A success makes up for all failures. -/
def success (g : PeerGuard) (ip : IpAddr) : PeerGuard :=
  { g with failures := Function.update g.failures ip none }

/-- Failures are forgotten after two minutes. -/
def prune (g : PeerGuard) (now : Instant) : PeerGuard :=
  { g with failures := fun ip => (g.failures ip).filter fun e => now - e.at_ < seconds 120 }

end PeerGuard

/-! ### Attempts -/

/-- What a client sends. -/
structure Credentials where
  username : String
  password : String
  deriving DecidableEq, Repr

/-- What it is told. -/
inductive CredentialDecision where
  | accept
  | reject
  deriving DecidableEq, Repr

/-- What came of an attempt: the answer to the client, and whether the password was checked. -/
structure Validation where
  decision : Except String CredentialDecision
  checked : Bool
  deriving DecidableEq, Repr

/-- The attempt was turned away before the password was looked at. -/
def Validation.turnedAway : Validation := ⟨.ok .reject, false⟩

/-- The part both validators share: ask the guard at `start`, check the password, and tell the guard
at `finish` what came of it. A check without an answer is an error of its own. -/
def PeerGuard.guarded (g : PeerGuard) (check : Except String Bool) (start finish : Instant) :
    Validation × PeerGuard :=
  if (g.blockedFor g.current start).isSome then (.turnedAway, g)
  else
    match check with
    | .error e => (⟨.error e, true⟩, g)
    | .ok true => (⟨.ok .accept, true⟩, g.success g.current)
    | .ok false => (⟨.ok .reject, true⟩, g.failure g.current finish)

/-- The validator that asks PAM. -/
structure PamValidator where
  service : String
  allowed : Option String
  peers : PeerGuard

/-- `authenticated` is what the PAM thread comes back with. -/
def PamValidator.validate (isAlphanumeric : Char → Bool) (v : PamValidator) (c : Credentials)
    (authenticated : Except String Bool) (start finish : Instant) : Validation × PamValidator :=
  match validateUsername isAlphanumeric c.username with
  | .error _ => (.turnedAway, v)
  | .ok () =>
    if v.allowed.any fun allowed => allowed ≠ normalizeLocalAccountName c.username then
      (.turnedAway, v)
    else (v.peers.guarded authenticated start finish).map id fun peers => { v with peers }

/-- The validator that has password hashes of its own. -/
structure StaticPasswordValidator where
  hashes : String → Option String
  peers : PeerGuard

/-- The same with hashes in place of PAM. A user without one is refused. -/
def StaticPasswordValidator.validate (isAlphanumeric : Char → Bool)
    (verifyPassword : String → String → Bool) (v : StaticPasswordValidator) (c : Credentials)
    (start finish : Instant) : Validation × StaticPasswordValidator :=
  match validateUsername isAlphanumeric c.username with
  | .error _ => (.turnedAway, v)
  | .ok () =>
    let accepted := (v.hashes (normalizeLocalAccountName c.username)).any fun hash =>
      verifyPassword hash c.password
    (v.peers.guarded (.ok accepted) start finish).map id fun peers => { v with peers }

/-! ### Validators as machines -/

/-- The validator a daemon runs with. -/
inductive Validator where
  | pam (v : PamValidator)
  | static (v : StaticPasswordValidator)

/-- What happens to a validator. -/
inductive AuthEvent where
  | setPeer (ip : IpAddr)
  | prune
  /-- An attempt that is over at `finish`; a static password does not ask PAM. -/
  | attempt (credentials : Credentials) (authenticated : Except String Bool) (finish : Instant)
  deriving DecidableEq

/-- An attempt as it was answered. -/
structure Attempt where
  peer : IpAddr
  start : Instant
  validation : Validation
  deriving DecidableEq, Repr

namespace Validator

/-- Either validator has a guard. -/
def peers : Validator → PeerGuard
  | .pam v => v.peers
  | .static v => v.peers

/-- The guard of either validator. -/
def setPeers : Validator → PeerGuard → Validator
  | .pam v, peers => .pam { v with peers }
  | .static v, peers => .static { v with peers }

variable (isAlphanumeric : Char → Bool) (verifyPassword : String → String → Bool)

/-- An attempt at either validator. -/
def validate (v : Validator) (c : Credentials) (authenticated : Except String Bool)
    (start finish : Instant) : Validation × Validator :=
  match v with
  | .pam v => (v.validate isAlphanumeric c authenticated start finish).map id .pam
  | .static v => (v.validate isAlphanumeric verifyPassword c start finish).map id .static

/-- Attempts are what can be seen. -/
def step (v : Validator) (e : AuthEvent × Instant) : Validator × List Attempt :=
  match e.1 with
  | .setPeer ip => (v.setPeers (v.peers.setPeer ip), [])
  | .prune => (v.setPeers (v.peers.prune e.2), [])
  | .attempt c authenticated finish =>
    let result := v.validate isAlphanumeric verifyPassword c authenticated e.2 finish
    (result.2, [⟨v.peers.current, e.2, result.1⟩])

end Validator

/-- A validator, with every attempt logged. -/
def authMachine (isAlphanumeric : Char → Bool) (verifyPassword : String → String → Bool) :
    Machine Validator (AuthEvent × Instant) Attempt where
  step := Validator.step isAlphanumeric verifyPassword

end Auth

end Cheirizo
