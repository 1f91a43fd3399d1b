import Cheirizo.Clock
import Cheirizo.Lib.Machine
import Mathlib.Tactic.Common

/-!
# The resize coordinator

`ResizeCoordinator` of `src/rdp/server/display_handler.rs`, operation by operation. A client
resize is a transaction: a requested size waits in `pending`, is handed to the compositor and sits
in `inFlight` until a captured frame of exactly that size arrives, is frozen in `committing` while
the display state is switched, and finally becomes `applied`, the size advertised to the client.

## Conventions

Operations that return a value return it paired with the new coordinator; a `false` or `none`
result may still change the state, exactly as in the source.

## Main definitions

* `ResizeCoordinator` and its operations `request`, `takeReady`, `markCommandSucceeded`,
  `markFailed`, `expireRealization`, `beginCommit`, `markCommitFailed`, `markApplied`
* `ResizeOp`, `ResizeCoordinator.apply` — one operation as an input, and its result
* `Transition` — everything one operation can do to the coordinator

## Main results

* `ResizeCoordinator.transition_apply` — every operation is a transition
* `ResizeCoordinator.WellFormed.transition` — the slot discipline every operation keeps
-/

namespace Cheirizo

/-- A client-requested geometry. -/
structure ResizeRequest where
  width : UInt16
  height : UInt16
  deriving DecidableEq, Repr

/-- The sizes under way from a request to a committed display, one of each stage. -/
structure ResizeCoordinator where
  /-- The most recent requested geometry. -/
  pending : Option ResizeRequest
  /-- Geometry for which the compositor command has been issued. -/
  inFlight : Option ResizeRequest
  /-- A realized transaction whose display state is being committed. -/
  committing : Option ResizeRequest
  /-- The geometry actually advertised to the RDP client. -/
  applied : ResizeRequest
  retryNotBefore : Option Instant
  realizationDeadline : Option Instant
  deriving DecidableEq, Repr

namespace ResizeCoordinator

/-! ### Constants -/

/-- How long after a commit the next change has to wait. -/
def reactivationGuard : ℕ := seconds 2

/-- How long after a failure the next attempt has to wait. -/
def retryDelay : ℕ := millis 250

/-- How long a frame of the new size is waited for. -/
def realizationTimeout : ℕ := seconds 2

/-! ### Operations -/

/-- The initial size is in effect, and nothing is under way. -/
def new (width height : UInt16) : ResizeCoordinator where
  pending := none
  inFlight := none
  committing := none
  applied := ⟨width, height⟩
  retryNotBefore := none
  realizationDeadline := none

/-- A size that is on its way already, or in effect with nothing on its way, only clears what is
pending. -/
def request (c : ResizeCoordinator) (r : ResizeRequest) : ResizeCoordinator :=
  if c.inFlight = some r ∨ c.committing = some r then { c with pending := none }
  else if c.inFlight = none ∧ c.applied = r then { c with pending := none }
  else { c with pending := some r }

/-- The retry guard is still closed at `now`. -/
def held (c : ResizeCoordinator) (now : Instant) : Bool := c.retryNotBefore.any fun d => now < d

/-- The part of `take_ready` past the slot checks: the guard, then the pending request. -/
def takePending (c : ResizeCoordinator) (now : Instant) :
    Option ResizeRequest × ResizeCoordinator :=
  if c.held now then (none, c)
  else
    match c.pending with
    | none => (none, c)
    | some r =>
      if r = c.applied then (none, { c with pending := none })
      else (some r, { c with pending := none, inFlight := some r, realizationDeadline := none })

/-- The pending size is handed out, to be commanded. It supersedes the one that is in flight. -/
def takeReady (c : ResizeCoordinator) (now : Instant) : Option ResizeRequest × ResizeCoordinator :=
  if c.committing.isSome then (none, c)
  else if c.inFlight.isSome then
    if c.pending.isSome then
      -- A superseded command is dropped even when the guard then refuses the newer request.
      takePending { c with inFlight := none, realizationDeadline := none } now
    else (none, c)
  else takePending c now

/-- From here on the compositor is given time to show the new size. -/
def markCommandSucceeded (c : ResizeCoordinator) (r : ResizeRequest) (now : Instant) :
    Bool × ResizeCoordinator :=
  if c.inFlight ≠ some r ∨ c.pending.isSome then (false, c)
  else (true, { c with realizationDeadline := some (now + realizationTimeout) })

/-- A size that failed is tried again, unless another one is pending. -/
def markFailed (c : ResizeCoordinator) (r : ResizeRequest) (now : Instant) :
    Bool × ResizeCoordinator :=
  if c.inFlight ≠ some r then (false, c)
  else
    let c := { c with inFlight := none, realizationDeadline := none }
    if c.pending.isSome then (false, c)
    else (true, { c with pending := some r, retryNotBefore := some (now + retryDelay) })

/-- A size that did not show in time has failed. -/
def expireRealization (c : ResizeCoordinator) (now : Instant) :
    Option ResizeRequest × ResizeCoordinator :=
  match c.inFlight with
  | none => (none, c)
  | some r =>
    if c.realizationDeadline.any fun d => d ≤ now then (some r, (c.markFailed r now).2)
    else (none, c)

/-- The size in flight, if a frame has it, in time and with nothing newer pending. -/
def matchesRealizedFrame (c : ResizeCoordinator) (width height : ℕ) (now : Instant) :
    Option ResizeRequest :=
  match c.inFlight with
  | none => none
  | some r =>
    if c.pending = none ∧ (c.realizationDeadline.any fun d => now ≤ d) ∧
        width = r.width.toNat ∧ height = r.height.toNat then some r
    else none

/-- A realized size leaves the place in flight for the one that is being committed. -/
def beginCommit (c : ResizeCoordinator) (r : ResizeRequest) (now : Instant) :
    Bool × ResizeCoordinator :=
  if c.matchesRealizedFrame r.width.toNat r.height.toNat now ≠ some r then (false, c)
  else (true, { c with inFlight := none, realizationDeadline := none, committing := some r })

/-- A commit that failed is tried again, from the command on. -/
def markCommitFailed (c : ResizeCoordinator) (r : ResizeRequest) (now : Instant) :
    Bool × ResizeCoordinator :=
  if c.committing ≠ some r then (false, c)
  else
    let c := { c with committing := none }
    if c.pending.isSome then (false, c)
    else (true, { c with pending := some r, retryNotBefore := some (now + retryDelay) })

/-- The size is in effect, and the next one has to wait. -/
def markApplied (c : ResizeCoordinator) (r : ResizeRequest) (now : Instant) :
    Bool × ResizeCoordinator :=
  if c.committing ≠ some r then (false, c)
  else (true, { c with
    applied := r, committing := none, retryNotBefore := some (now + reactivationGuard) })

end ResizeCoordinator

/-! ### Operations as inputs -/

/-- The operations that change the coordinator. -/
inductive ResizeOp where
  | request (r : ResizeRequest)
  | takeReady
  | markCommandSucceeded (r : ResizeRequest)
  | markFailed (r : ResizeRequest)
  | expireRealization
  | beginCommit (r : ResizeRequest)
  | markCommitFailed (r : ResizeRequest)
  | markApplied (r : ResizeRequest)
  deriving DecidableEq, Repr

/-- What an operation returns: nothing, a size, or whether it was accepted. -/
inductive ResizeResult where
  | unit
  | size (r : Option ResizeRequest)
  | accepted (b : Bool)
  deriving DecidableEq, Repr

namespace ResizeCoordinator

/-- One operation at time `now`. -/
def apply (c : ResizeCoordinator) (now : Instant) : ResizeOp → ResizeResult × ResizeCoordinator
  | .request r => (.unit, c.request r)
  | .takeReady => (c.takeReady now).map .size id
  | .markCommandSucceeded r => (c.markCommandSucceeded r now).map .accepted id
  | .markFailed r => (c.markFailed r now).map .accepted id
  | .expireRealization => (c.expireRealization now).map .size id
  | .beginCommit r => (c.beginCommit r now).map .accepted id
  | .markCommitFailed r => (c.markCommitFailed r now).map .accepted id
  | .markApplied r => (c.markApplied r now).map .accepted id

/-! ### What an operation can do

Every effect of every operation, with the guard it is taken under. The invariants below and in the
modules that follow are case analyses of `Transition`; none of them unfolds an operation. -/

/-- `Transition now op c res c'`: operation `op` at `now` takes `c` to `c'` and returns `res`. -/
inductive Transition (now : Instant) :
    ResizeOp → ResizeCoordinator → ResizeResult → ResizeCoordinator → Prop
  /-- A call that changes nothing and hands nothing out. -/
  | idle {op c res} (hop : ∀ r, op ≠ .request r) (hres : ∀ r, res ≠ .size (some r))
      (hacc : res ≠ .accepted true) : Transition now op c res c
  /-- The request is already on its way. -/
  | requestActive {c r} (h : c.inFlight = some r ∨ c.committing = some r) :
      Transition now (.request r) c .unit { c with pending := none }
  /-- The request is for the advertised size and no command is in flight. -/
  | requestApplied {c r} (hf : c.inFlight = none) (ha : c.applied = r)
      (hc : c.committing ≠ some r) :
      Transition now (.request r) c .unit { c with pending := none }
  | requestPending {c r} (hf : c.inFlight ≠ some r) (hc : c.committing ≠ some r)
      (ha : c.inFlight = none → c.applied ≠ r) :
      Transition now (.request r) c .unit { c with pending := some r }
  /-- A superseded command is dropped, but the guard holds the newer request back. -/
  | dropHeld {c} (hc : c.committing = none) (hf : c.inFlight ≠ none) (hp : c.pending ≠ none)
      (hg : c.held now = true) :
      Transition now .takeReady c (.size none)
        { c with inFlight := none, realizationDeadline := none }
  /-- The pending request is for the advertised size and is discarded with whatever was in
  flight. -/
  | discard {c c'} (hc : c.committing = none) (hp : c.pending = some c.applied)
      (hg : c.held now = false) (hc' : c'.inFlight = none) (hp' : c'.pending = none)
      (hcm : c'.committing = none) (ha : c'.applied = c.applied)
      (hr : c'.retryNotBefore = c.retryNotBefore) :
      Transition now .takeReady c (.size none) c'
  | handOut {c r} (hc : c.committing = none) (hp : c.pending = some r) (ha : r ≠ c.applied)
      (hg : c.held now = false) :
      Transition now .takeReady c (.size (some r))
        { c with pending := none, inFlight := some r, realizationDeadline := none }
  | commandSucceeded {c r} (hf : c.inFlight = some r) (hp : c.pending = none) :
      Transition now (.markCommandSucceeded r) c (.accepted true)
        { c with realizationDeadline := some (now + realizationTimeout) }
  /-- A failure report or an expiry that a newer request has overtaken. -/
  | failSuperseded {op c r res} (hop : op = .markFailed r ∨ op = .expireRealization)
      (hf : c.inFlight = some r) (hp : c.pending ≠ none) (hacc : res ≠ .accepted true) :
      Transition now op c res { c with inFlight := none, realizationDeadline := none }
  | failRetry {op c r res} (hop : op = .markFailed r ∨ op = .expireRealization)
      (hf : c.inFlight = some r) (hp : c.pending = none) :
      Transition now op c res { c with
        inFlight := none, realizationDeadline := none, pending := some r,
        retryNotBefore := some (now + retryDelay) }
  | commitBegun {c r d} (hf : c.inFlight = some r) (hp : c.pending = none)
      (hd : c.realizationDeadline = some d) (hnow : now ≤ d) :
      Transition now (.beginCommit r) c (.accepted true)
        { c with inFlight := none, realizationDeadline := none, committing := some r }
  | commitSuperseded {c r} (hc : c.committing = some r) (hp : c.pending ≠ none) :
      Transition now (.markCommitFailed r) c (.accepted false) { c with committing := none }
  | commitRetry {c r} (hc : c.committing = some r) (hp : c.pending = none) :
      Transition now (.markCommitFailed r) c (.accepted true) { c with
        committing := none, pending := some r, retryNotBefore := some (now + retryDelay) }
  | committed {c r} (hc : c.committing = some r) :
      Transition now (.markApplied r) c (.accepted true) { c with
        applied := r, committing := none, retryNotBefore := some (now + reactivationGuard) }

theorem transition_request (c : ResizeCoordinator) (r : ResizeRequest) (now : Instant) :
    Transition now (.request r) c .unit (c.request r) := by
  rw [request]
  split
  · exact .requestActive ‹_›
  · rename_i h
    push Not at h
    split
    · rename_i h'
      exact .requestApplied h'.1 h'.2 h.2
    · rename_i h'
      exact .requestPending h.1 h.2 fun hf ha => h' ⟨hf, ha⟩

/-- `take_ready` past its slot checks, once whatever was in flight has been dropped and the guard
has opened. -/
theorem transition_takePending {c : ResizeCoordinator} {now : Instant} {r : ResizeRequest}
    (x : Option Instant) (hc : c.committing = none) (hp : c.pending = some r)
    (hg : c.held now = false) :
    Transition now .takeReady c
      (.size (takePending { c with inFlight := none, realizationDeadline := x } now).1)
      (takePending { c with inFlight := none, realizationDeadline := x } now).2 := by
  have hg' : ¬ held { c with inFlight := none, realizationDeadline := x } now = true := by
    rw [show held { c with inFlight := none, realizationDeadline := x } now = c.held now from rfl,
      hg]
    exact Bool.false_ne_true
  rw [takePending, if_neg hg']
  simp only [hp]
  split
  · rename_i ha
    exact .discard hc (ha ▸ hp) hg rfl rfl hc rfl rfl
  · exact .handOut hc hp ‹_› hg

theorem transition_takeReady (c : ResizeCoordinator) (now : Instant) :
    Transition now .takeReady c (.size (c.takeReady now).1) (c.takeReady now).2 := by
  rw [takeReady]
  split
  · exact .idle (by simp) (by simp) (by simp)
  rename_i hc
  have hc : c.committing = none := by simpa using hc
  split
  · rename_i hf
    split
    · rename_i hp
      obtain ⟨r, hr⟩ := Option.isSome_iff_exists.mp hp
      cases hg : c.held now with
      | true =>
        rw [takePending, if_pos (by exact hg)]
        exact .dropHeld hc (Option.ne_none_iff_isSome.mpr hf) (Option.ne_none_iff_isSome.mpr hp) hg
      | false => exact transition_takePending none hc hr hg
    · exact .idle (by simp) (by simp) (by simp)
  · rename_i hf
    have hf : c.inFlight = none := by simpa using hf
    have hsame : c = { c with inFlight := none, realizationDeadline := c.realizationDeadline } := by
      rw [← hf]
    cases hg : c.held now with
    | true =>
      rw [takePending, if_pos hg]
      exact .idle (by simp) (by simp) (by simp)
    | false =>
      cases hp : c.pending with
      | none =>
        simp only [takePending, hg, hp]
        exact .idle (by simp) (by simp) (by simp)
      | some r =>
        have h := transition_takePending c.realizationDeadline hc hp hg
        rwa [← hsame] at h

theorem transition_markFailed (c : ResizeCoordinator) (r : ResizeRequest) (now : Instant) :
    Transition now (.markFailed r) c (.accepted (c.markFailed r now).1) (c.markFailed r now).2 := by
  rw [markFailed]
  split
  · exact .idle (by simp) (by simp) (by simp)
  · rename_i hf
    have hf : c.inFlight = some r := by simpa using hf
    dsimp only
    split
    · rename_i hp
      exact .failSuperseded (.inl rfl) hf (Option.ne_none_iff_isSome.mpr hp) (by simp)
    · rename_i hp
      exact .failRetry (.inl rfl) hf (by simpa using hp)

theorem transition_expireRealization (c : ResizeCoordinator) (now : Instant) :
    Transition now .expireRealization c (.size (c.expireRealization now).1)
      (c.expireRealization now).2 := by
  rw [expireRealization]
  split
  · exact .idle (by simp) (by simp) (by simp)
  · rename_i r hf
    split
    · -- An expiry is a failure report whose answer is not looked at.
      rw [markFailed]
      rw [if_neg (not_not.mpr hf)]
      dsimp only
      split
      · rename_i hp
        exact .failSuperseded (.inr rfl) hf (Option.ne_none_iff_isSome.mpr hp) (by simp)
      · rename_i hp
        exact .failRetry (.inr rfl) hf (by simpa using hp)
    · exact .idle (by simp) (by simp) (by simp)

theorem transition_markCommandSucceeded (c : ResizeCoordinator) (r : ResizeRequest)
    (now : Instant) :
    Transition now (.markCommandSucceeded r) c (.accepted (c.markCommandSucceeded r now).1)
      (c.markCommandSucceeded r now).2 := by
  rw [markCommandSucceeded]
  split
  · exact .idle (by simp) (by simp) (by simp)
  · rename_i h
    push Not at h
    exact .commandSucceeded h.1 (by simpa using h.2)

/-- A frame realizes a request only before its deadline and with nothing newer pending. -/
theorem matchesRealizedFrame_eq_some {c : ResizeCoordinator} {width height : ℕ} {now : Instant}
    {r : ResizeRequest} (h : c.matchesRealizedFrame width height now = some r) :
    c.inFlight = some r ∧ c.pending = none ∧ ∃ d, c.realizationDeadline = some d ∧ now ≤ d := by
  rw [matchesRealizedFrame] at h
  split at h
  · cases h
  · rename_i r' hf
    split at h
    · rename_i hm
      obtain rfl : r' = r := by simpa using h
      obtain ⟨d, hd, hle⟩ := (Option.any_eq_true ..).mp hm.2.1
      exact ⟨hf, hm.1, d, hd, by simpa using hle⟩
    · cases h

theorem transition_beginCommit (c : ResizeCoordinator) (r : ResizeRequest) (now : Instant) :
    Transition now (.beginCommit r) c (.accepted (c.beginCommit r now).1)
      (c.beginCommit r now).2 := by
  rw [beginCommit]
  split
  · exact .idle (by simp) (by simp) (by simp)
  · rename_i h
    obtain ⟨hf, hp, d, hd, hle⟩ := matchesRealizedFrame_eq_some (not_not.mp h)
    exact .commitBegun hf hp hd hle

theorem transition_markCommitFailed (c : ResizeCoordinator) (r : ResizeRequest) (now : Instant) :
    Transition now (.markCommitFailed r) c (.accepted (c.markCommitFailed r now).1)
      (c.markCommitFailed r now).2 := by
  rw [markCommitFailed]
  split
  · exact .idle (by simp) (by simp) (by simp)
  · rename_i hc
    have hc : c.committing = some r := by simpa using hc
    dsimp only
    split
    · rename_i hp
      exact .commitSuperseded hc (Option.ne_none_iff_isSome.mpr hp)
    · rename_i hp
      exact .commitRetry hc (by simpa using hp)

theorem transition_markApplied (c : ResizeCoordinator) (r : ResizeRequest) (now : Instant) :
    Transition now (.markApplied r) c (.accepted (c.markApplied r now).1)
      (c.markApplied r now).2 := by
  rw [markApplied]
  split
  · exact .idle (by simp) (by simp) (by simp)
  · rename_i hc
    exact .committed (by simpa using hc)

/-- **Every operation is one of the transitions.** -/
theorem transition_apply (c : ResizeCoordinator) (now : Instant) (op : ResizeOp) :
    Transition now op c (c.apply now op).1 (c.apply now op).2 := by
  cases op with
  | request r => exact transition_request c r now
  | takeReady => exact transition_takeReady c now
  | markCommandSucceeded r => exact transition_markCommandSucceeded c r now
  | markFailed r => exact transition_markFailed c r now
  | expireRealization => exact transition_expireRealization c now
  | beginCommit r => exact transition_beginCommit c r now
  | markCommitFailed r => exact transition_markCommitFailed c r now
  | markApplied r => exact transition_markApplied c r now

/-! ### The slot discipline -/

/-- What every reachable coordinator satisfies: a size being realized or committed is not the
advertised one, the two slots are never both taken, and a committing size is not pending too. -/
structure WellFormed (c : ResizeCoordinator) : Prop where
  inFlight_ne : ∀ r, c.inFlight = some r → r ≠ c.applied
  committing_ne : ∀ r, c.committing = some r → r ≠ c.applied
  exclusive : c.committing ≠ none → c.inFlight = none
  pending_ne : ∀ r, c.committing = some r → c.pending ≠ some r

theorem wellFormed_new (width height : UInt16) : (new width height).WellFormed :=
  ⟨by simp [new], by simp [new], by simp [new], by simp [new]⟩

theorem WellFormed.transition {now : Instant} {op : ResizeOp} {c c' : ResizeCoordinator}
    {res : ResizeResult} (h : c.WellFormed) (ht : Transition now op c res c') : c'.WellFormed := by
  obtain ⟨h₁, h₂, h₃, h₄⟩ := h
  cases ht with
  | idle => exact ⟨h₁, h₂, h₃, h₄⟩
  | requestActive => exact ⟨h₁, h₂, h₃, by simp⟩
  | requestApplied => exact ⟨h₁, h₂, h₃, by simp⟩
  | requestPending hf hc ha => exact ⟨h₁, h₂, h₃, by grind⟩
  | dropHeld hc => exact ⟨by simp, h₂, by simp, h₄⟩
  | discard hc hp hg hc' hp' hcm ha hr =>
    exact ⟨by simp [hc'], by simp [hcm], by simp [hc'], by simp [hcm]⟩
  | handOut hc hp ha hg => exact ⟨by simpa using ha, h₂, by simp [hc], by simp⟩
  | commandSucceeded => exact ⟨h₁, h₂, h₃, h₄⟩
  | failSuperseded => exact ⟨by simp, h₂, by simp, h₄⟩
  | failRetry hop hf hp => exact ⟨by simp, h₂, by simp, by grind⟩
  | commitBegun hf hp => exact ⟨by simp, by simpa using h₁ _ hf, by simp, by simp [hp]⟩
  | commitSuperseded => exact ⟨h₁, by simp, by simp, by simp⟩
  | commitRetry => exact ⟨h₁, by simp, by simp, by simp⟩
  | committed hc => exact ⟨by grind, by simp, by simp, by simp⟩

end ResizeCoordinator

end Cheirizo
