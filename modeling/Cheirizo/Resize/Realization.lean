import Cheirizo.Resize.Layouts
import Cheirizo.Lib.Log

/-!
# Resizing in the display loop

The part of the pipeline loop of `src/rdp/server/display_handler.rs` that drives the resize
coordinator. An iteration expires what has taken too long, hands the next size to the compositor,
captures a frame, commits a resize that this frame realizes, and lets the frame through if it has
the committed size. The coordinator is locked anew for each of these calls, and in between the
client may ask for another size.

## Conventions

A step of the loop is what happens under one lock, or between two awaits. What the surroundings
answer to a step comes with it: the time, whether the compositor carried out the command, the frame,
whether the update channel has room. A frame is its width and height. That a reset of the core
graphics announces the committed size once more is left out.

## Main definitions

* `ResizeLoop` — the coordinator, the committed size and where the loop stands
* `resizeLoop` — steps of the loop, with requests of the client in between
* `ResizeAction.Follows` — what must have happened before an action

## Main results

* `follows_of_run` — frames go out at the size that was announced, and an announcement follows a
  command and a frame of its size
* `requested_of_run` — every size that is commanded or announced was asked for and is admitted
* `announced_of_captured` — a size that the compositor realizes in time is announced
-/

namespace Cheirizo

/-! ### The loop -/

/-- Where the loop stands, with what it holds there. -/
inductive ResizePoint where
  | head
  | take (now : Instant)
  | command (r : ResizeRequest)
  | capture
  | start (r : ResizeRequest) (frame : ℕ × ℕ)
  | reserve (r : ResizeRequest) (frame : ℕ × ℕ)
  | publish (r : ResizeRequest) (frame : ℕ × ℕ)
  | finish (r : ResizeRequest) (frame : ℕ × ℕ)
  | present (frame : ℕ × ℕ)
  deriving DecidableEq, Repr

/-- The part of the display loop that resizes, and where it is. -/
structure ResizeLoop where
  resize : ResizeCoordinator
  /-- The committed size of the desktop. -/
  size : ResizeRequest
  point : ResizePoint
  deriving DecidableEq, Repr

/-- What can be seen of it. -/
inductive ResizeAction where
  /-- The compositor is told to switch. -/
  | commanded (r : ResizeRequest)
  | captured (frame : ℕ × ℕ)
  /-- The client is told of its new size. -/
  | announced (r : ResizeRequest)
  /-- The frame goes on to be encoded. -/
  | presented (frame : ℕ × ℕ)
  /-- The warning that a transaction lost its commit state. -/
  | commitLost (r : ResizeRequest)
  deriving DecidableEq, Repr

/-- What the surroundings answer to one step. -/
structure ResizeAnswer where
  now : Instant
  commandSucceeds : Bool
  frame : Option (ℕ × ℕ)
  /-- A frame that was captured before, if one is to be shown again. -/
  replayed : Option (ℕ × ℕ)
  reserved : Bool
  /-- There is a client that is to be shown the frame. -/
  clientActive : Bool
  deriving DecidableEq, Repr

/-- A frame of just this size. A dimension that is zero counts as one. -/
def Realizes (frame : ℕ × ℕ) (r : ResizeRequest) : Prop :=
  max frame.1 1 = r.width.toNat ∧ max frame.2 1 = r.height.toNat

instance (frame : ℕ × ℕ) (r : ResizeRequest) : Decidable (Realizes frame r) :=
  inferInstanceAs (Decidable (_ ∧ _))

/-- The size as frames have theirs. -/
def ResizeRequest.dimensions (r : ResizeRequest) : ℕ × ℕ := (r.width.toNat, r.height.toNat)

namespace ResizeLoop

variable (policy : DisplayPolicy) (p : ResizeLoop)

/-- The loop is at its head, with the initial size in effect. -/
def new (width height : UInt16) : ResizeLoop where
  resize := .new width height
  size := ⟨width, height⟩
  point := .head

/-- A size that is ready is commanded. -/
def take (now : Instant) : ResizeLoop × List ResizeAction :=
  match p.resize.takeReady now with
  | (some r, c) => ({ p with resize := c, point := .command r }, [.commanded r])
  | (none, c) => ({ p with resize := c, point := .capture }, [])

/-- Without a compositor that can be told, the command has failed. -/
def command (r : ResizeRequest) (a : ResizeAnswer) : ResizeLoop :=
  if policy.managed && a.commandSucceeds then
    { p with resize := (p.resize.markCommandSucceeded r a.now).2, point := .capture }
  else { p with resize := (p.resize.markFailed r a.now).2, point := .capture }

/-- A frame that has the size in flight begins its commit. -/
def capture (a : ResizeAnswer) : ResizeLoop × List ResizeAction :=
  match a.frame with
  | some frame =>
    match p.resize.matchesRealizedFrame (max frame.1 1) (max frame.2 1) a.now with
    | some r => ({ p with point := .start r frame }, [.captured frame])
    | none => ({ p with point := .present frame }, [.captured frame])
  | none =>
    match a.replayed with
    | some frame => ({ p with point := .present frame }, [])
    | none => ({ p with point := .head }, [])

/-- The transaction is frozen, unless a newer request has superseded it. -/
def start (r : ResizeRequest) (frame : ℕ × ℕ) (a : ResizeAnswer) : ResizeLoop :=
  match p.resize.beginCommit r a.now with
  | (true, c) => { p with resize := c, point := .reserve r frame }
  | (false, c) => { p with resize := c, point := .present frame }

/-- The size is taken over before it is published. -/
def reserve (r : ResizeRequest) (frame : ℕ × ℕ) (a : ResizeAnswer) : ResizeLoop :=
  if a.reserved then { p with size := r, point := .publish r frame }
  else { p with resize := (p.resize.markCommitFailed r a.now).2, point := .present frame }

/-- A commit that the coordinator does not know of is lost, and the frame goes on. -/
def finish (r : ResizeRequest) (frame : ℕ × ℕ) (a : ResizeAnswer) :
    ResizeLoop × List ResizeAction :=
  match p.resize.markApplied r a.now with
  | (true, c) => ({ p with resize := c, point := .present frame }, [])
  | (false, c) => ({ p with resize := c, point := .present frame }, [.commitLost r])

/-- A frame that does not have the committed size is dropped. -/
def present (frame : ℕ × ℕ) (a : ResizeAnswer) : ResizeLoop × List ResizeAction :=
  ({ p with point := .head },
    if a.clientActive ∧ frame = p.size.dimensions then [.presented frame] else [])

/-- One turn, from one suspension to the next. -/
def advance (a : ResizeAnswer) : ResizeLoop × List ResizeAction :=
  match p.point with
  | .head => ({ p with resize := (p.resize.expireRealization a.now).2, point := .take a.now }, [])
  | .take now => p.take now
  | .command r => (p.command policy r a, [])
  | .capture => p.capture a
  | .start r frame => (p.start r frame a, [])
  | .reserve r frame => (p.reserve r frame a, [])
  | .publish r frame => ({ p with point := .finish r frame }, [.announced r])
  | .finish r frame => p.finish r frame a
  | .present frame => p.present frame a

end ResizeLoop

/-- Layouts may arrive between any two turns. -/
inductive ResizeInput where
  /-- A monitor layout from the client. -/
  | layout (monitors : List MonitorLayoutEntry)
  | advance (a : ResizeAnswer)
  deriving DecidableEq, Repr

/-- The loop, with the requests of the client between its steps. -/
def resizeLoop (adjustDisplaySize : UInt32 → UInt32 → UInt32 × UInt32) (policy : DisplayPolicy) :
    Machine ResizeLoop ResizeInput ResizeAction where
  step
    | p, .layout monitors =>
      match requestLayout adjustDisplaySize policy monitors with
      | some r => ({ p with resize := p.resize.request r }, [])
      | none => (p, [])
    | p, .advance a => p.advance policy a

/-- The client asks for nothing else, the time is not over and the update channel has room. -/
def ResizeInput.Prompt (d : Instant) : ResizeInput → Prop
  | layout _ => False
  | advance a => a.now < d ∧ a.reserved = true

/-! ### What a call does to the slots -/

/-- The operations that begin or end a commit. -/
def ResizeOp.commits : ResizeOp → Bool
  | beginCommit _ => true
  | markCommitFailed _ => true
  | markApplied _ => true
  | _ => false

namespace ResizeCoordinator

variable {c c' : ResizeCoordinator} {now : Instant} {op : ResizeOp} {res : ResizeResult}
  {r : ResizeRequest}

/-- Only the calls of a commit change the size that is committing and the one applied. -/
theorem Transition.outside_commit (ht : Transition now op c res c') (hop : op.commits = false) :
    c'.committing = c.committing ∧ c'.applied = c.applied := by
  cases ht with
  | discard hc _ _ _ _ hcm ha => exact ⟨hcm.trans hc.symm, ha⟩
  | commitBegun | commitSuperseded | commitRetry | committed => cases hop
  | _ => exact ⟨rfl, rfl⟩

/-- A size is in flight because it was handed out. -/
theorem Transition.inFlight (ht : Transition now op c res c') (h : c'.inFlight = some r) :
    c.inFlight = some r ∨ op = .takeReady ∧ res = .size (some r) := by
  cases ht with
  | handOut hc hp ha hg => exact Or.inr ⟨rfl, by rw [← h]⟩
  | discard _ _ _ hf => simp [hf] at h
  | dropHeld | failSuperseded | failRetry | commitBegun => cases h
  | _ => exact Or.inl h

/-- The size waits in one of the slots. -/
def Holds (c : ResizeCoordinator) (r : ResizeRequest) : Prop :=
  c.pending = some r ∨ c.inFlight = some r ∨ c.committing = some r

/-- A slot is filled with what is requested or with what another slot held. -/
theorem Transition.holds (ht : Transition now op c res c') (h : c'.Holds r) :
    c.Holds r ∨ op = .request r := by
  obtain h | h | h := h
  all_goals
    cases ht <;> simp_all [Holds]

/-- What is handed out was pending, while nothing was committing. -/
theorem takeReady_eq_some (h : c.takeReady now = (some r, c')) :
    c.pending = some r ∧ c.committing = none ∧ r ≠ c.applied := by
  have ht := transition_takeReady c now
  rw [h] at ht
  cases ht with
  | idle hop hres => exact absurd rfl (hres r)
  | failSuperseded hop | failRetry hop => simp at hop
  | handOut hc hp ha => exact ⟨hp, hc, ha⟩

/-- A commit takes the size in flight. -/
theorem beginCommit_eq_true (h : c.beginCommit r now = (true, c')) :
    c.inFlight = some r ∧ c'.inFlight = none ∧ c'.committing = some r ∧
      c'.applied = c.applied := by
  rw [beginCommit] at h
  split_ifs at h with hrealized
  · cases h
  · obtain ⟨hf, -, -⟩ := matchesRealizedFrame_eq_some (not_not.mp hrealized)
    obtain ⟨-, rfl⟩ := Prod.mk.inj h
    exact ⟨hf, rfl, rfl, rfl⟩

/-- A commit that is refused changes nothing. -/
theorem beginCommit_eq_false (h : c.beginCommit r now = (false, c')) : c' = c := by
  rw [beginCommit] at h
  split_ifs at h
  · exact (Prod.mk.inj h).2.symm
  · cases h

/-- A failed commit gives the size up, and what is applied stays. -/
theorem markCommitFailed_of_committing (h : c.committing = some r) (now : Instant) :
    (c.markCommitFailed r now).2.committing = none ∧
      (c.markCommitFailed r now).2.applied = c.applied ∧
      (c.markCommitFailed r now).2.inFlight = c.inFlight := by
  rw [markCommitFailed, if_neg (not_not.mpr h)]
  dsimp only
  split_ifs <;> exact ⟨rfl, rfl, rfl⟩

/-- The size that was committing is applied. -/
theorem markApplied_of_committing (h : c.committing = some r) :
    c.markApplied r now = (true, { c with
      applied := r, committing := none, retryNotBefore := some (now + reactivationGuard) }) := by
  rw [markApplied, if_neg (not_not.mpr h)]

end ResizeCoordinator

/-! ### What actions follow -/

/-- The size that the client has been told, after this action. -/
def ResizeAction.tell (told : ResizeRequest) : ResizeAction → ResizeRequest
  | announced r => r
  | _ => told

/-- The size that the client was told of last. -/
def announcedSize (init : ResizeRequest) (log : List ResizeAction) : ResizeRequest :=
  log.foldl ResizeAction.tell init

/-- What has happened before an action. A command and an announcement are for another size than the
client has; an announcement comes after the command for its size and a frame of its size; a frame
that goes out has the size that the client was told last; and no transaction loses its state. -/
def ResizeAction.Follows (init : ResizeRequest) (before : List ResizeAction) : ResizeAction → Prop
  | commanded r => r ≠ announcedSize init before
  | captured _ => True
  | announced r =>
    r ≠ announcedSize init before ∧ commanded r ∈ before ∧
      ∃ frame, captured frame ∈ before ∧ Realizes frame r
  | presented frame => frame = (announcedSize init before).dimensions
  | commitLost _ => False

/-- The compositor or the client is told of this size. -/
def ResizeAction.IsFor (r : ResizeRequest) : ResizeAction → Prop
  | commanded s => s = r
  | announced s => s = r
  | _ => False

namespace ResizePoint

/-- The size that is being committed. -/
def committing : ResizePoint → Option ResizeRequest
  | reserve r _ | publish r _ | finish r _ => some r
  | _ => none

/-- The size that is to be committed, and the frame that realizes it. -/
def held : ResizePoint → Option (ResizeRequest × (ℕ × ℕ))
  | start r frame | reserve r frame | publish r frame | finish r frame => some (r, frame)
  | _ => none

/-- The size that the loop is busy with. -/
def about : ResizePoint → Option ResizeRequest
  | command r => some r
  | point => point.held.map Prod.fst

/-- The committed size, which the coordinator learns last. -/
def size (applied : ResizeRequest) : ResizePoint → ResizeRequest
  | publish r _ | finish r _ => r
  | _ => applied

/-- The announced size. -/
def told (applied : ResizeRequest) : ResizePoint → ResizeRequest
  | finish r _ => r
  | _ => applied

variable {point : ResizePoint} (applied : ResizeRequest)

/-- Outside a commit the size of the frames is the one applied. -/
theorem size_of_not_committing (h : point.committing = none) : point.size applied = applied := by
  cases point <;> first | rfl | cases h

/-- So is the size the client was told last. -/
theorem told_of_not_committing (h : point.committing = none) : point.told applied = applied := by
  cases point <;> first | rfl | cases h

end ResizePoint

namespace ResizeLoop

variable {policy : DisplayPolicy} {init : ResizeRequest} {log : List ResizeAction} {p : ResizeLoop}
  {a : ResizeAnswer} {r : ResizeRequest} {frame : ℕ × ℕ}

/-- The loop, its coordinator and what has been done agree. -/
structure Tracks (init : ResizeRequest) (log : List ResizeAction) (p : ResizeLoop) : Prop where
  wellFormed : p.resize.WellFormed
  committing : p.resize.committing = p.point.committing
  size : p.size = p.point.size p.resize.applied
  told : announcedSize init log = p.point.told p.resize.applied
  commanded : ∀ r, p.resize.inFlight = some r ∨ p.point.committing = some r → .commanded r ∈ log
  captured : ∀ r frame, p.point.held = some (r, frame) → Realizes frame r ∧ .captured frame ∈ log
  follows : Supported (ResizeAction.Follows init) log

theorem tracks_new (width height : UInt16) :
    (new width height).Tracks ⟨width, height⟩ [] where
  wellFormed := ResizeCoordinator.wellFormed_new width height
  committing := rfl
  size := rfl
  told := rfl
  commanded := by simp [new, ResizeCoordinator.new, ResizePoint.committing]
  captured := by simp [new, ResizePoint.held]
  follows := supported_nil

/-- An action that tells the client nothing. -/
theorem Tracks.act (h : p.Tracks init log) (action : ResizeAction)
    (hfollows : action.Follows init log) (htell : ∀ told, action.tell told = told) :
    p.Tracks init (log ++ [action]) where
  wellFormed := h.wellFormed
  committing := h.committing
  size := h.size
  told := by
    rw [announcedSize, List.foldl_append, List.foldl_cons, List.foldl_nil, htell]
    exact h.told
  commanded r hr := List.mem_append_left _ (h.commanded r hr)
  captured r frame hheld :=
    (h.captured r frame hheld).imp_right fun hmem => List.mem_append_left _ hmem
  follows := by
    rw [supported_append, supported_singleton, List.append_nil]
    exact ⟨h.follows, hfollows⟩

/-- A call that neither begins nor ends a commit. -/
theorem Tracks.call (h : p.Tracks init log) {now : Instant} {op : ResizeOp} {res : ResizeResult}
    {c : ResizeCoordinator} (ht : ResizeCoordinator.Transition now op p.resize res c)
    (hop : op.commits = false)
    (hres : op = .takeReady → ∀ r, res = .size (some r) → .commanded r ∈ log) :
    { p with resize := c }.Tracks init log := by
  obtain ⟨hcommitting, happlied⟩ := ht.outside_commit hop
  refine ⟨h.wellFormed.transition ht, hcommitting.trans h.committing, ?_, ?_, ?_, h.captured,
    h.follows⟩
  · rw [happlied]
    exact h.size
  · rw [happlied]
    exact h.told
  · rintro r (hf | hcommit)
    · obtain hbefore | ⟨htake, hsize⟩ := ht.inFlight hf
      · exact h.commanded r (Or.inl hbefore)
      · exact hres htake r hsize
    · exact h.commanded r (Or.inr hcommit)

/-- A move of the loop outside a commit. -/
theorem Tracks.go (h : p.Tracks init log) {next : ResizePoint} (hfrom : p.point.committing = none)
    (hto : next.committing = none)
    (hheld : ∀ r frame, next.held = some (r, frame) → Realizes frame r ∧ .captured frame ∈ log) :
    { p with point := next }.Tracks init log where
  wellFormed := h.wellFormed
  committing := h.committing.trans (hfrom.trans hto.symm)
  size := by
    rw [ResizePoint.size_of_not_committing _ hto, h.size,
      ResizePoint.size_of_not_committing _ hfrom]
  told := by
    rw [ResizePoint.told_of_not_committing _ hto, h.told,
      ResizePoint.told_of_not_committing _ hfrom]
  commanded r hr := by
    rw [hto] at hr
    exact h.commanded r (Or.inl (hr.resolve_right (by simp)))
  captured := hheld
  follows := h.follows

/-! ### Each step keeps track -/

/-- A request of the client, between any two steps. -/
theorem Tracks.layout (h : p.Tracks init log) (r : ResizeRequest) :
    { p with resize := p.resize.request r }.Tracks init log :=
  h.call (ResizeCoordinator.transition_request p.resize r 0) rfl nofun

/-- A size is handed out, or none. -/
theorem Tracks.take (h : p.Tracks init log) {now : Instant} (hat : p.point = .take now) :
    (p.take now).1.Tracks init (log ++ (p.take now).2) := by
  have ht := ResizeCoordinator.transition_takeReady p.resize now
  have hplain : p.point.committing = none := by rw [hat]; rfl
  rw [ResizeLoop.take]
  split
  · rename_i r c heq
    rw [heq] at ht
    obtain ⟨-, -, hne⟩ := ResizeCoordinator.takeReady_eq_some heq
    have htold := h.told
    rw [ResizePoint.told_of_not_committing _ hplain] at htold
    have hact := h.act (.commanded r) (by rw [← htold] at hne; exact hne) fun _ => rfl
    refine (hact.call ht rfl fun _ s hs => ?_).go hplain rfl nofun
    obtain rfl : r = s := by simpa using hs
    exact List.mem_append_right _ (List.mem_singleton_self _)
  · rename_i c heq
    rw [heq] at ht
    rw [List.append_nil]
    exact (h.call ht rfl nofun).go hplain rfl nofun

/-- The compositor carries the command out, or fails. -/
theorem Tracks.command (h : p.Tracks init log) (hat : p.point = .command r) :
    (p.command policy r a).Tracks init log := by
  have hplain : p.point.committing = none := by rw [hat]; rfl
  rw [ResizeLoop.command]
  split
  · have ht := ResizeCoordinator.transition_markCommandSucceeded p.resize r a.now
    exact (h.call ht rfl nofun).go hplain rfl nofun
  · have ht := ResizeCoordinator.transition_markFailed p.resize r a.now
    exact (h.call ht rfl nofun).go hplain rfl nofun

/-- A frame that matches a request realizes it. -/
theorem realizes_of_matches {c : ResizeCoordinator} {now : Instant}
    (h : c.matchesRealizedFrame (max frame.1 1) (max frame.2 1) now = some r) :
    Realizes frame r := by
  rw [ResizeCoordinator.matchesRealizedFrame] at h
  split at h
  · cases h
  · split_ifs at h with hm
    cases h
    exact ⟨hm.2.2.1, hm.2.2.2⟩

/-- A frame is captured, and may realize the size in flight. -/
theorem Tracks.capture (h : p.Tracks init log) (hat : p.point = .capture) :
    (p.capture a).1.Tracks init (log ++ (p.capture a).2) := by
  have hplain : p.point.committing = none := by rw [hat]; rfl
  rw [ResizeLoop.capture]
  split
  · rename_i frame _
    have hact := h.act (.captured frame) trivial fun _ => rfl
    split
    · rename_i r heq
      refine hact.go hplain rfl ?_
      rintro s frame' hheld
      obtain ⟨rfl, rfl⟩ : r = s ∧ frame = frame' := by simpa [ResizePoint.held] using hheld
      exact ⟨realizes_of_matches heq, List.mem_append_right _ (List.mem_singleton_self _)⟩
    · exact hact.go hplain rfl nofun
  · split
    · rw [List.append_nil]
      exact h.go hplain rfl nofun
    · rw [List.append_nil]
      exact h.go hplain rfl nofun

/-- The commit begins, unless it has been refused. -/
theorem Tracks.start (h : p.Tracks init log) (hat : p.point = .start r frame) :
    (p.start r frame a).Tracks init log := by
  have ht := ResizeCoordinator.transition_beginCommit p.resize r a.now
  have hplain : p.point.committing = none := by rw [hat]; rfl
  have hheld := h.captured r frame (by rw [hat]; rfl)
  rw [ResizeLoop.start]
  split
  · rename_i c heq
    obtain ⟨hflight, hnone, hcommitting, happlied⟩ := ResizeCoordinator.beginCommit_eq_true heq
    rw [heq] at ht
    refine ⟨h.wellFormed.transition ht, hcommitting, ?_, ?_, ?_, ?_, h.follows⟩
    · rw [h.size, ResizePoint.size_of_not_committing _ hplain]
      exact happlied.symm
    · rw [h.told, ResizePoint.told_of_not_committing _ hplain]
      exact happlied.symm
    · rintro s (hs | hs)
      · exact absurd (hs.symm.trans hnone) (by simp)
      · obtain rfl : r = s := by simpa [ResizePoint.committing] using hs
        exact h.commanded r (Or.inl hflight)
    · rintro s frame' hs
      obtain ⟨rfl, rfl⟩ : r = s ∧ frame = frame' := by simpa [ResizePoint.held] using hs
      exact hheld
  · rename_i c heq
    obtain rfl := ResizeCoordinator.beginCommit_eq_false heq
    exact h.go hplain rfl nofun

/-- There is room to announce the size, or the commit fails. -/
theorem Tracks.reserve (h : p.Tracks init log) (hat : p.point = .reserve r frame) :
    (p.reserve r frame a).Tracks init log := by
  have hcommitting := h.committing
  have hsize := h.size
  have htold := h.told
  rw [hat] at hcommitting hsize htold
  rw [ResizeLoop.reserve]
  split
  · refine ⟨h.wellFormed, hcommitting, rfl, htold, fun s hs => h.commanded s ?_,
      fun s frame' hs => h.captured s frame' ?_, h.follows⟩
    · rw [hat]
      exact hs
    · rw [hat]
      exact hs
  · have ht := ResizeCoordinator.transition_markCommitFailed p.resize r a.now
    obtain ⟨hnone, happlied, hflight⟩ :=
      ResizeCoordinator.markCommitFailed_of_committing hcommitting a.now
    refine ⟨h.wellFormed.transition ht, hnone, hsize.trans happlied.symm,
      htold.trans happlied.symm, ?_, nofun, h.follows⟩
    rintro s (hs | hs)
    · exact h.commanded s (Or.inl (hflight.symm.trans hs))
    · cases hs

/-- The size is published. -/
theorem Tracks.publish (h : p.Tracks init log) (hat : p.point = .publish r frame) :
    { p with point := .finish r frame }.Tracks init
      (log ++ [ResizeAction.announced r]) := by
  have hcommitting := h.committing
  have hsize := h.size
  have htold := h.told
  have hheld := h.captured r frame (by rw [hat]; rfl)
  have hcommanded := h.commanded r (Or.inr (by rw [hat]; rfl))
  rw [hat] at hcommitting hsize htold
  refine ⟨h.wellFormed, hcommitting, hsize, ?_, fun s hs => ?_, fun s frame' hs => ?_, ?_⟩
  · rw [announcedSize, List.foldl_append]
    rfl
  · exact List.mem_append_left _ (h.commanded s (by rw [hat]; exact hs))
  · exact (h.captured s frame' (by rw [hat]; exact hs)).imp_right (List.mem_append_left _)
  · rw [supported_append, supported_singleton, List.append_nil]
    refine ⟨h.follows, ?_, hcommanded, frame, hheld.2, hheld.1⟩
    rw [htold]
    exact h.wellFormed.committing_ne r hcommitting

/-- The size is announced, and applied. -/
theorem Tracks.finish (h : p.Tracks init log) (hat : p.point = .finish r frame) :
    (p.finish r frame a).1.Tracks init (log ++ (p.finish r frame a).2) := by
  have hcommitting := h.committing
  have hsize := h.size
  have htold := h.told
  rw [hat] at hcommitting hsize htold
  have ht := ResizeCoordinator.transition_markApplied p.resize r a.now
  rw [ResizeLoop.finish, ResizeCoordinator.markApplied_of_committing hcommitting] at *
  rw [List.append_nil]
  refine ⟨h.wellFormed.transition ht, rfl, hsize, htold, ?_, nofun, h.follows⟩
  rintro s (hs | hs)
  · exact h.commanded s (Or.inl hs)
  · cases hs

/-- The frame goes out if it has the size. -/
theorem Tracks.present (h : p.Tracks init log) (hat : p.point = .present frame) :
    (p.present frame a).1.Tracks init (log ++ (p.present frame a).2) := by
  have hplain : p.point.committing = none := by rw [hat]; rfl
  have hgo : { p with point := .head }.Tracks init log := h.go hplain rfl nofun
  rw [ResizeLoop.present]
  split_ifs with hfits
  · refine hgo.act _ ?_ fun _ => rfl
    have hsize := h.size
    have htold := h.told
    rw [hat] at hsize htold
    rw [ResizeAction.Follows, htold, hfits.2, hsize]
    rfl
  · rw [List.append_nil]
    exact hgo

/-- What the loop and the client do keeps track. -/
theorem Tracks.step {adjustDisplaySize : UInt32 → UInt32 → UInt32 × UInt32}
    (h : p.Tracks init log) (i : ResizeInput) :
    ((resizeLoop adjustDisplaySize policy).step p i).1.Tracks init
      (log ++ ((resizeLoop adjustDisplaySize policy).step p i).2) := by
  cases i with
  | layout monitors =>
    simp only [resizeLoop]
    split
    · rw [List.append_nil]
      exact h.layout _
    · rw [List.append_nil]
      exact h
  | advance a =>
    simp only [resizeLoop, advance]
    split
    · rename_i hat
      rw [List.append_nil]
      have hplain : p.point.committing = none := by rw [hat]; rfl
      exact (h.call (ResizeCoordinator.transition_expireRealization p.resize a.now) rfl nofun).go
        hplain rfl nofun
    · exact h.take ‹_›
    · rw [List.append_nil]
      exact h.command ‹_›
    · exact h.capture ‹_›
    · rw [List.append_nil]
      exact h.start ‹_›
    · rw [List.append_nil]
      exact h.reserve ‹_›
    · exact h.publish ‹_›
    · exact h.finish ‹_›
    · exact h.present ‹_›

/-! ### Where the sizes come from -/

/-- Every size that the coordinator or the loop holds is one of these. -/
def Among (A : ResizeRequest → Prop) (p : ResizeLoop) : Prop :=
  ∀ r, p.resize.Holds r ∨ p.point.about = some r → A r

variable {A : ResizeRequest → Prop}

/-- The slots keep to the sizes asked for. -/
theorem Among.call (h : p.Among A) {now : Instant} {op : ResizeOp} {res : ResizeResult}
    {c : ResizeCoordinator} (ht : ResizeCoordinator.Transition now op p.resize res c)
    (hop : ∀ r, op = .request r → A r) : { p with resize := c }.Among A := by
  rintro r (hr | hr)
  · exact (ht.holds hr).elim (fun hbefore => h r (Or.inl hbefore)) (hop r)
  · exact h r (Or.inr hr)

/-- So does the point that the loop goes on to. -/
theorem Among.go (h : p.Among A) {next : ResizePoint} (hnext : ∀ r, next.about = some r → A r) :
    { p with point := next }.Among A :=
  fun r hr => hr.elim (fun hholds => h r (Or.inl hholds)) (hnext r)

theorem Among.about (h : p.Among A) {r : ResizeRequest} (hat : p.point.about = some r) : A r :=
  h r (Or.inr hat)

/-- So does what is seen of one step. -/
theorem Among.advance (h : p.Among A) :
    (p.advance policy a).1.Among A ∧
      ∀ action ∈ (p.advance policy a).2, ∀ r, action.IsFor r → A r := by
  rw [ResizeLoop.advance]
  split
  · have ht := ResizeCoordinator.transition_expireRealization p.resize a.now
    exact ⟨(h.call ht nofun).go nofun, nofun⟩
  · rename_i now _
    have ht := ResizeCoordinator.transition_takeReady p.resize now
    rw [take]
    split
    · rename_i r c heq
      rw [heq] at ht
      obtain ⟨hpending, -, -⟩ := ResizeCoordinator.takeReady_eq_some heq
      have hr : A r := h r (Or.inl (Or.inl hpending))
      refine ⟨(h.call ht nofun).go (by rintro s ⟨⟩; exact hr), ?_⟩
      simp only [List.mem_singleton, forall_eq, ResizeAction.IsFor]
      rintro s rfl
      exact hr
    · rename_i c heq
      rw [heq] at ht
      exact ⟨(h.call ht nofun).go nofun, nofun⟩
  · rename_i r _
    rw [command]
    split
    · exact ⟨(h.call (ResizeCoordinator.transition_markCommandSucceeded p.resize r a.now) nofun).go
        nofun, nofun⟩
    · exact ⟨(h.call (ResizeCoordinator.transition_markFailed p.resize r a.now) nofun).go nofun,
        nofun⟩
  · rw [capture]
    split
    · split
      · rename_i r heq
        obtain ⟨hflight, -, -⟩ := ResizeCoordinator.matchesRealizedFrame_eq_some heq
        have hr : A r := h r (Or.inl (Or.inr (Or.inl hflight)))
        exact ⟨h.go (by rintro s ⟨⟩; exact hr), by simp [ResizeAction.IsFor]⟩
      · exact ⟨h.go nofun, by simp [ResizeAction.IsFor]⟩
    · split <;> exact ⟨h.go nofun, nofun⟩
  · rename_i r frame hat
    have hr : A r := h.about (by rw [hat]; rfl)
    have ht := ResizeCoordinator.transition_beginCommit p.resize r a.now
    rw [start]
    split
    · rename_i c heq
      rw [heq] at ht
      exact ⟨(h.call ht nofun).go (by rintro s ⟨⟩; exact hr), nofun⟩
    · rename_i c heq
      rw [heq] at ht
      exact ⟨(h.call ht nofun).go nofun, nofun⟩
  · rename_i r frame hat
    have hr : A r := h.about (by rw [hat]; rfl)
    rw [reserve]
    split
    · exact ⟨h.go (by rintro s ⟨⟩; exact hr), nofun⟩
    · exact ⟨(h.call (ResizeCoordinator.transition_markCommitFailed p.resize r a.now) nofun).go
        nofun, nofun⟩
  · rename_i r frame hat
    have hr : A r := h.about (by rw [hat]; rfl)
    refine ⟨h.go (by rintro s ⟨⟩; exact hr), ?_⟩
    simp only [List.mem_singleton, forall_eq, ResizeAction.IsFor]
    rintro s rfl
    exact hr
  · rename_i r frame hat
    have ht := ResizeCoordinator.transition_markApplied p.resize r a.now
    rw [finish]
    split
    · rename_i c heq
      rw [heq] at ht
      exact ⟨(h.call ht nofun).go nofun, nofun⟩
    · rename_i c heq
      rw [heq] at ht
      exact ⟨(h.call ht nofun).go nofun, by simp [ResizeAction.IsFor]⟩
  · rw [present]
    refine ⟨h.go nofun, ?_⟩
    split_ifs <;> simp [ResizeAction.IsFor]

/-! ### What a realized size leads to -/

/-- The compositor has been told of the size, and a frame of it would be in time until `d`. -/
structure Awaits (r : ResizeRequest) (d : Instant) (p : ResizeLoop) : Prop where
  inFlight : p.resize.inFlight = some r
  pending : p.resize.pending = none
  committing : p.resize.committing = none
  deadline : p.resize.realizationDeadline = some d
  about : p.point.about = none

/-- The size is on its way to the client. -/
def Carries (r : ResizeRequest) (d : Instant) (p : ResizeLoop) : Prop :=
  match p.point with
  | .start s _ => s = r ∧ p.resize.inFlight = some r ∧ p.resize.pending = none ∧
      p.resize.realizationDeadline = some d
  | .reserve s _ => s = r
  | .publish s _ => s = r
  | _ => False

/-- Waiting for a frame of the size, carrying it to the client, or done. -/
def Underway (r : ResizeRequest) (d : Instant) (p : ResizeLoop) (log : List ResizeAction) : Prop :=
  (p.Awaits r d ∧ ∀ frame, .captured frame ∈ log → ¬ Realizes frame r) ∨ p.Carries r d ∨
    .announced r ∈ log

variable {d : Instant}

/-- While nothing newer is pending and it is not too late, a frame matches exactly if it realizes
the size. -/
theorem matches_iff_realizes {c : ResizeCoordinator} {now : Instant} (hf : c.inFlight = some r)
    (hp : c.pending = none) (hd : c.realizationDeadline = some d) (hnow : now < d) :
    c.matchesRealizedFrame (max frame.1 1) (max frame.2 1) now =
      if Realizes frame r then some r else none := by
  by_cases hrealizes : Realizes frame r
  · rw [if_pos hrealizes]
    simp [ResizeCoordinator.matchesRealizedFrame, hf, hp, hd, hnow.le, hrealizes.1, hrealizes.2]
  · rw [if_neg hrealizes, ResizeCoordinator.matchesRealizedFrame]
    simp only [hf]
    exact if_neg fun hm => hrealizes ⟨hm.2.2.1, hm.2.2.2⟩

/-- Then the commit is accepted too. -/
theorem beginCommit_of_inFlight {c : ResizeCoordinator} {now : Instant}
    (hf : c.inFlight = some r) (hp : c.pending = none) (hd : c.realizationDeadline = some d)
    (hnow : now < d) : (c.beginCommit r now).1 = true := by
  have hmatches : c.matchesRealizedFrame r.width.toNat r.height.toNat now = some r := by
    simp [ResizeCoordinator.matchesRealizedFrame, hf, hp, hd, hnow.le]
  rw [ResizeCoordinator.beginCommit, if_neg (not_not.mpr hmatches)]

/-- Nothing about the size happens before a frame of it is captured. -/
theorem Awaits.advance (h : p.Awaits r d) (hnow : a.now < d)
    (hlog : ∀ frame, .captured frame ∈ log → ¬ Realizes frame r) :
    (p.advance policy a).1.Underway r d (log ++ (p.advance policy a).2) := by
  obtain ⟨hf, hp, hc, hd, habout⟩ := h
  have hquiet : ∀ frame, .captured frame ∈ log ++ [] → ¬ Realizes frame r := by simpa using hlog
  rw [ResizeLoop.advance]
  split
  · have hsame : (p.resize.expireRealization a.now).2 = p.resize := by
      simp [ResizeCoordinator.expireRealization, hf, hd, Nat.not_le.mpr hnow]
    refine Or.inl ⟨?_, hquiet⟩
    rw [hsame]
    exact ⟨hf, hp, hc, hd, rfl⟩
  · rename_i now _
    have hsame : p.resize.takeReady now = (none, p.resize) := by
      simp [ResizeCoordinator.takeReady, hf, hp, hc]
    rw [take, hsame]
    exact Or.inl ⟨⟨hf, hp, hc, hd, rfl⟩, hquiet⟩
  · rename_i hat
    rw [hat] at habout
    cases habout
  · rw [capture]
    split
    · rename_i frame _
      rw [matches_iff_realizes hf hp hd hnow]
      by_cases hrealizes : Realizes frame r
      · rw [if_pos hrealizes]
        exact Or.inr (Or.inl ⟨rfl, hf, hp, hd⟩)
      · rw [if_neg hrealizes]
        refine Or.inl ⟨⟨hf, hp, hc, hd, rfl⟩, ?_⟩
        simp only [List.mem_append, List.mem_singleton, ResizeAction.captured.injEq]
        rintro other (hother | rfl)
        · exact hlog other hother
        · exact hrealizes
    · split <;> exact Or.inl ⟨⟨hf, hp, hc, hd, rfl⟩, hquiet⟩
  iterate 4
    · rename_i hat
      rw [hat] at habout
      cases habout
  · rw [present]
    refine Or.inl ⟨⟨hf, hp, hc, hd, rfl⟩, ?_⟩
    split_ifs
    · simpa using hlog
    · exact hquiet

/-- A size on its way gets a step further. -/
theorem Carries.advance (h : p.Carries r d) (hnow : a.now < d) (hreserved : a.reserved = true) :
    (p.advance policy a).1.Underway r d (log ++ (p.advance policy a).2) := by
  rw [Carries] at h
  rw [ResizeLoop.advance]
  split at h
  · rename_i s frame hat
    obtain ⟨rfl, hf, hp, hd⟩ := h
    have hbegun := beginCommit_of_inFlight hf hp hd hnow
    rw [hat]
    dsimp only
    rw [start]
    split
    · exact Or.inr (Or.inl rfl)
    · rename_i c heq
      rw [heq] at hbegun
      cases hbegun
  · rename_i s frame hat
    subst h
    rw [hat]
    dsimp only
    rw [reserve, if_pos hreserved]
    exact Or.inr (Or.inl rfl)
  · rename_i s frame hat
    subst h
    rw [hat]
    exact Or.inr (Or.inr (List.mem_append_right _ (List.mem_singleton_self _)))
  · exact h.elim

/-- One step on the way from the frame to the announcement. -/
theorem Underway.step {adjustDisplaySize : UInt32 → UInt32 → UInt32 × UInt32}
    (h : p.Underway r d log) {i : ResizeInput} (hi : i.Prompt d) :
    ((resizeLoop adjustDisplaySize policy).step p i).1.Underway r d
      (log ++ ((resizeLoop adjustDisplaySize policy).step p i).2) := by
  cases i with
  | layout monitors => exact hi.elim
  | advance a =>
    obtain ⟨hawaits, hlog⟩ | hcarries | hannounced := h
    · exact hawaits.advance hi.1 hlog
    · exact hcarries.advance hi.1 hi.2
    · exact Or.inr (Or.inr (List.mem_append_left _ hannounced))

/-- The command for the last size that was requested is carried out. -/
theorem awaits_of_command (hat : p.point = .command r) (htracks : p.Tracks init log)
    (hflight : p.resize.inFlight = some r) (hpending : p.resize.pending = none)
    (hmanaged : policy.managed = true) (ha : a.commandSucceeds = true) :
    (p.command policy r a).Awaits r (a.now + ResizeCoordinator.realizationTimeout) := by
  have hcommitting : p.resize.committing = none := by rw [htracks.committing, hat]; rfl
  rw [command, hmanaged, ha, Bool.and_self, if_pos rfl, ResizeCoordinator.markCommandSucceeded,
    if_neg (by simp [hflight, hpending])]
  exact ⟨hflight, hpending, hcommitting, rfl, rfl⟩

end ResizeLoop

/-! ### Runs -/

section Runs

variable (adjustDisplaySize : UInt32 → UInt32 → UInt32 × UInt32) (policy : DisplayPolicy)
  (width height : UInt16)

/-- By induction on the inputs. -/
theorem tracks_of_run (inputs : List ResizeInput) :
    ((resizeLoop adjustDisplaySize policy).exec (.new width height) inputs).Tracks ⟨width, height⟩
      ((resizeLoop adjustDisplaySize policy).trace (.new width height) inputs) :=
  Machine.exec_log (m := resizeLoop adjustDisplaySize policy)
    (I := fun p log => p.Tracks ⟨width, height⟩ log) (fun _ i _ h => h.step i)
    (ResizeLoop.tracks_new width height) inputs

/-- **The client sees what it was told.** In every run, wherever requests of the client fall between
the steps of the loop, each frame that goes out has the size that was announced last, an
announcement changes the size and comes after the command for it and after a frame of it, and no
transaction loses its commit state. -/
theorem follows_of_run (inputs : List ResizeInput) :
    Supported (ResizeAction.Follows ⟨width, height⟩)
      ((resizeLoop adjustDisplaySize policy).trace (.new width height) inputs) :=
  (tracks_of_run adjustDisplaySize policy width height inputs).follows

/-- Every size comes from a layout of the run. -/
theorem asked_of_run {inputs : List ResizeInput} {action : ResizeAction} {r : ResizeRequest}
    (haction : action ∈ (resizeLoop adjustDisplaySize policy).trace (.new width height) inputs)
    (hr : action.IsFor r) : ∃ monitors, .layout monitors ∈ inputs ∧
      requestLayout adjustDisplaySize policy monitors = some r := by
  have hrun := Machine.forall_trace (m := resizeLoop adjustDisplaySize policy)
    (I := ResizeLoop.Among fun r => ∃ monitors, .layout monitors ∈ inputs ∧
      requestLayout adjustDisplaySize policy monitors = some r)
    (P := fun action => ∀ r, action.IsFor r → ∃ monitors, .layout monitors ∈ inputs ∧
      requestLayout adjustDisplaySize policy monitors = some r)
    (C := fun _ i => i ∈ inputs) (s := .new width height) ?_ ?_
    (Machine.along_of_forall (fun _ hi => hi : ∀ i ∈ inputs, i ∈ inputs))
  · exact hrun.2 action haction r hr
  · intro p i h hi
    cases i with
    | layout monitors =>
      simp only [resizeLoop]
      split
      · rename_i s hs
        refine ⟨h.call (ResizeCoordinator.transition_request p.resize s 0) ?_, nofun⟩
        rintro t ⟨⟩
        exact ⟨monitors, hi, hs⟩
      · exact ⟨h, nofun⟩
    | advance a => exact h.advance
  · rintro s (hs | hs)
    · simp [ResizeLoop.new, ResizeCoordinator.Holds, ResizeCoordinator.new] at hs
    · cases hs

/-- **Only what was asked for and is admitted.** In every run, the compositor and the client are
told of no size but one that a layout of the client asked for, and that the configuration admits. -/
theorem requested_of_run {inputs : List ResizeInput} {action : ResizeAction} {r : ResizeRequest}
    (haction : action ∈ (resizeLoop adjustDisplaySize policy).trace (.new width height) inputs)
    (hr : action.IsFor r) :
    (∃ monitors, .layout monitors ∈ inputs ∧
        requestLayout adjustDisplaySize policy monitors = some r) ∧
      policy.managed = true ∧ policy.Admits none r := by
  obtain ⟨monitors, hmem, hlayout⟩ := asked_of_run adjustDisplaySize policy width height haction hr
  exact ⟨⟨monitors, hmem, hlayout⟩, admits_of_requestLayout hlayout⟩

/-- Everything goes well at once. -/
def promptAnswer : ResizeAnswer := ⟨0, true, some (800, 600), none, true, true⟩

/-- Two monitors, of which the second is the primary one. -/
def sampleLayout : ResizeInput := .layout [⟨false, 640, 480⟩, ⟨true, 800, 600⟩]

theorem requested_of_run_sample :
    (∃ monitors, .layout monitors ∈ sampleLayout :: List.replicate 9 (.advance promptAnswer) ∧
        requestLayout Prod.mk ⟨true, true, []⟩ monitors = some ⟨800, 600⟩) ∧
      DisplayPolicy.managed ⟨true, true, []⟩ = true ∧
      DisplayPolicy.Admits ⟨true, true, []⟩ none ⟨800, 600⟩ :=
  requested_of_run Prod.mk ⟨true, true, []⟩ 1024 768
    (show .announced ⟨800, 600⟩ ∈ (resizeLoop Prod.mk ⟨true, true, []⟩).trace (.new 1024 768)
      (sampleLayout :: List.replicate 9 (.advance promptAnswer)) by decide +kernel) rfl

/-- **A realized size is announced.** In every run, once the compositor has carried out the command
for the size that was requested last, and while the client asks for nothing else, a frame of this
size that is captured within two seconds has the size announced before the loop comes to its
head again. -/
theorem announced_of_captured {before inputs : List ResizeInput} {r : ResizeRequest}
    {a : ResizeAnswer} {frame : ℕ × ℕ}
    (hat : ((resizeLoop adjustDisplaySize policy).exec (.new width height) before).point =
      .command r)
    (hflight : ((resizeLoop adjustDisplaySize policy).exec (.new width height)
      before).resize.inFlight = some r)
    (hpending : ((resizeLoop adjustDisplaySize policy).exec (.new width height)
      before).resize.pending = none)
    (ha : a.commandSucceeds = true)
    (hprompt : ∀ i ∈ inputs, i.Prompt (a.now + ResizeCoordinator.realizationTimeout))
    (hcaptured : .captured frame ∈ (resizeLoop adjustDisplaySize policy).trace
      ((resizeLoop adjustDisplaySize policy).exec (.new width height) before)
      (.advance a :: inputs))
    (hrealizes : Realizes frame r)
    (hhead : ((resizeLoop adjustDisplaySize policy).exec (.new width height)
      (before ++ .advance a :: inputs)).point = .head) :
    .announced r ∈ (resizeLoop adjustDisplaySize policy).trace
      ((resizeLoop adjustDisplaySize policy).exec (.new width height) before)
      (.advance a :: inputs) := by
  have htracks := tracks_of_run adjustDisplaySize policy width height before
  have hmanaged : policy.managed = true := by
    obtain ⟨_, -, hlayout⟩ := asked_of_run adjustDisplaySize policy width height
      (htracks.commanded r (Or.inl hflight)) rfl
    exact (admits_of_requestLayout hlayout).1
  rw [Machine.exec_append] at hhead
  generalize (resizeLoop adjustDisplaySize policy).exec (.new width height) before = p at *
  have hstep : (resizeLoop adjustDisplaySize policy).step p (.advance a) =
      (p.command policy r a, []) := by
    simp only [resizeLoop, ResizeLoop.advance, hat]
  have hawaits := ResizeLoop.awaits_of_command hat htracks hflight hpending hmanaged ha
  rw [Machine.trace_cons, hstep, List.nil_append] at hcaptured ⊢
  rw [Machine.exec_cons, hstep] at hhead
  have hstart : (p.command policy r a).Underway r (a.now + ResizeCoordinator.realizationTimeout)
      [] := Or.inl ⟨hawaits, by simp⟩
  have hrun := Machine.exec_log_along (m := resizeLoop adjustDisplaySize policy)
    (I := fun p log => p.Underway r (a.now + ResizeCoordinator.realizationTimeout) log)
    (C := fun _ i => i.Prompt (a.now + ResizeCoordinator.realizationTimeout))
    (fun _ _ _ h hi => h.step hi) hstart (Machine.along_of_forall hprompt)
  rw [List.nil_append] at hrun
  obtain ⟨-, hnone⟩ | hcarries | hannounced := hrun
  · exact absurd hrealizes (hnone frame hcaptured)
  · rw [ResizeLoop.Carries, hhead] at hcarries
    exact hcarries.elim
  · exact hannounced

theorem announced_of_captured_sample :
    .announced ⟨800, 600⟩ ∈ (resizeLoop Prod.mk ⟨true, true, []⟩).trace
      ((resizeLoop Prod.mk ⟨true, true, []⟩).exec (.new 1024 768)
        (sampleLayout :: List.replicate 2 (.advance promptAnswer)))
      (.advance promptAnswer :: List.replicate 6 (.advance promptAnswer)) := by
  have hprompt : ∀ i ∈ List.replicate 6 (.advance promptAnswer),
      ResizeInput.Prompt (promptAnswer.now + ResizeCoordinator.realizationTimeout) i := by
    intro i hi
    rw [List.eq_of_mem_replicate hi]
    exact ⟨by decide, rfl⟩
  exact announced_of_captured Prod.mk ⟨true, true, []⟩ 1024 768 rfl rfl rfl rfl hprompt
    (show ResizeAction.captured (800, 600) ∈ _ by decide +kernel) (by decide) rfl

end Runs

end Cheirizo
