import Cheirizo.Clock
import Cheirizo.Lib.Machine

/-!
# Connections, their admission and their deadlines

`src/rdp/server/production.rs`: a connection is a future that `run_with_connection_timeouts` polls
beside two notifications of its own admission, the notification that the session has become invalid,
and a deadline. A connection is admitted by `bind_connection`, which creates or reuses the session
of the user. If the connection were dropped in the middle of that, a session would stay bound with
no owner, so a cancellation that falls into an admission is kept and carried out after it.

## Polls

`bind_connection` is part of the connection future: an admission begins and ends only while that
future is polled. What one poll does is an input (`Poll`), any sequence of beginnings and ends, and
perhaps the result. Invalid sessions and time come from outside, between any two steps of the loop.
A `select!` that is biased tries its branches in order, each time it is woken; one branch is one
step here. A notification is a permit, stored until a branch consumes it.

`admissions` and `admitting` are not variables of the program. They say what the binder is
really doing, which the loop can only judge by its flags.

## Main definitions

* `cancellationDecision`, `selectedConnectionTimeout`
* `ConnectionLoop.advance` — one step of `run_with_connection_timeouts`
* `connectionMachine` — the loop among the polls, notifications and ticks

## Main results

* `Sound.step` — what the loop may rely on at each of its points
* `admission_not_cancelled` — cancellations leave admissions alone, and are not lost by waiting
-/

namespace Cheirizo

namespace Server

/-! ### Decisions -/

/-- What a connection was doing when its time was over. -/
inductive ConnectionTimeoutPhase where
  | preAuth
  | session
  deriving DecidableEq, Repr

/-- The next deadline of a connection. -/
structure SelectedConnectionTimeout where
  deadline : Instant
  phase : ConnectionTimeoutPhase
  deriving DecidableEq, Repr

/-- Why a connection is ended. -/
inductive ConnectionCancellation where
  | timeout (phase : ConnectionTimeoutPhase)
  | sessionInvalid
  deriving DecidableEq, Repr

/-- Whether it is ended at once. -/
inductive CancellationDecision where
  | cancel
  | deferUntilAdmissionFinishes
  deriving DecidableEq, Repr

/-- An admission under way is never cut short. -/
def cancellationDecision (admissionStarted admissionFinished : Bool) : CancellationDecision :=
  if admissionStarted && !admissionFinished then .deferUntilAdmissionFinishes else .cancel

/-- How long a connection may take to authenticate. -/
def preAuthTimeout : ℕ := seconds 30

/-- Before the admission the earlier of two deadlines, afterwards that of the session if it has
one. -/
def selectedConnectionTimeout (started : Instant) (admissionStarted : Bool)
    (sessionTimeout : Option ℕ) : Option SelectedConnectionTimeout :=
  let session := sessionTimeout.map fun timeout => ⟨started + timeout, .session⟩
  if admissionStarted then session
  else
    let preAuth : SelectedConnectionTimeout := ⟨started + preAuthTimeout, .preAuth⟩
    match session with
    | some session => if session.deadline ≤ preAuth.deadline then some session else some preAuth
    | none => some preAuth

/-! ### What the loop shares -/

/-- What the loop shares with the admission, beside the time. -/
structure Shared where
  admissionStarted : Bool
  admissionFinished : Bool
  admissionStartedNotify : Bool
  admissionFinishedNotify : Bool
  connectionInvalid : Bool
  now : Instant
  /-- The admissions begun so far. -/
  admissions : ℕ
  /-- An admission is running. -/
  admitting : Bool
  deriving DecidableEq, Repr

/-- What the admission does to what is shared. -/
inductive AdmissionMove where
  /-- `bind_connection` is entered, up to its first notification. -/
  | enter
  /-- `bind_connection` is left, however it ends: its guard is dropped. -/
  | leave
  deriving DecidableEq, Repr

/-- What a poll of the connection does, and the result if that is its end. -/
structure Poll (α : Type*) where
  moves : List AdmissionMove
  result : Option α
  deriving DecidableEq, Repr

namespace Shared

/-- Either move leaves a notification that the loop may find later. -/
def move (s : Shared) : AdmissionMove → Shared
  | .enter =>
    { s with
      admissionFinished := false
      admissionStarted := true
      admissionStartedNotify := true
      admissions := s.admissions + 1
      admitting := true }
  | .leave =>
    if s.admitting then
      { s with admissionFinished := true, admissionFinishedNotify := true, admitting := false }
    else s

/-- Several moves between two turns of the loop. -/
def moves (s : Shared) (ms : List AdmissionMove) : Shared := ms.foldl move s

/-- What the loop decides on, by the flags as they are. -/
def decision (s : Shared) : CancellationDecision :=
  cancellationDecision s.admissionStarted s.admissionFinished

end Shared

/-! ### The loop -/

/-- The branches of the `select!`, in its order. -/
inductive Branch where
  | connection
  | started
  | finished
  | invalid
  | timeout
  deriving DecidableEq, Repr

/-- Where the loop is. The values in `select` are those loaded when it was entered. -/
inductive LoopPoint where
  | top
  /-- The one poll before a cancellation that was kept is carried out. -/
  | lastPoll (cancellation : ConnectionCancellation)
  | select (admitted finished : Bool) (timeout : Option SelectedConnectionTimeout) (branch : Branch)
  | returned
  deriving DecidableEq, Repr

/-- The loop of one connection, with the cancellation that it has put off. -/
structure ConnectionLoop where
  shared : Shared
  pendingCancellation : Option ConnectionCancellation
  point : LoopPoint
  deriving DecidableEq, Repr

namespace ConnectionLoop

variable {α : Type*}

/-- A connection as it is accepted: fresh flags, but permits of earlier connections may be left. -/
def accepted (startedNotify finishedNotify : Bool) (now : Instant) : ConnectionLoop where
  shared := ⟨false, false, startedNotify, finishedNotify, false, now, 0, false⟩
  pendingCancellation := none
  point := .top

/-- Poll the connection; if that is not its end, go on with `next`. -/
def pollConnection (s : ConnectionLoop) (poll : Poll α)
    (next : ConnectionLoop → ConnectionLoop × List (Except ConnectionCancellation α)) :
    ConnectionLoop × List (Except ConnectionCancellation α) :=
  let s := { s with shared := s.shared.moves poll.moves }
  match poll.result with
  | some result => ({ s with point := .returned }, [.ok result])
  | none => next s

/-- Carry a cancellation out, or keep it while an admission is running. -/
def cancel (s : ConnectionLoop) (cancellation : ConnectionCancellation) :
    ConnectionLoop × List (Except ConnectionCancellation α) :=
  if s.shared.decision = .deferUntilAdmissionFinishes then
    ({ s with pendingCancellation := some cancellation, point := .top }, [])
  else ({ s with point := .returned }, [.error cancellation])

/-- The next step of the loop; `poll` is what the connection does if the step polls it. -/
def advance (started : Instant) (sessionTimeout : Option ℕ) (s : ConnectionLoop) (poll : Poll α) :
    ConnectionLoop × List (Except ConnectionCancellation α) :=
  match s.point with
  | .top =>
    let admitted := s.shared.admissionStarted
    let finished := s.shared.admissionFinished
    match s.pendingCancellation.filter fun _ =>
        cancellationDecision admitted finished = .cancel with
    | some cancellation => ({ s with point := .lastPoll cancellation }, [])
    | none =>
      let timeout := if s.pendingCancellation.isNone then
        selectedConnectionTimeout started admitted sessionTimeout else none
      ({ s with point := .select admitted finished timeout .connection }, [])
  | .lastPoll cancellation =>
    s.pollConnection poll fun s => ({ s with point := .returned }, [.error cancellation])
  | .select admitted finished timeout .connection =>
    s.pollConnection poll fun s =>
      ({ s with point := .select admitted finished timeout .started }, [])
  | .select admitted finished timeout .started =>
    if !admitted && s.shared.admissionStartedNotify then
      ({ s with shared.admissionStartedNotify := false, point := .top }, [])
    else ({ s with point := .select admitted finished timeout .finished }, [])
  | .select admitted finished timeout .finished =>
    if s.pendingCancellation.isSome && !finished && s.shared.admissionFinishedNotify then
      ({ s with shared.admissionFinishedNotify := false, point := .top }, [])
    else ({ s with point := .select admitted finished timeout .invalid }, [])
  | .select admitted finished timeout .invalid =>
    if s.pendingCancellation.isNone && s.shared.connectionInvalid then
      cancel { s with shared.connectionInvalid := false } .sessionInvalid
    else ({ s with point := .select admitted finished timeout .timeout }, [])
  | .select admitted finished timeout .timeout =>
    match timeout.filter fun timeout => timeout.deadline ≤ s.shared.now with
    | some timeout => s.cancel (.timeout timeout.phase)
    | none => ({ s with point := .select admitted finished timeout .connection }, [])
  | .returned => (s, [])

end ConnectionLoop

/-- What happens around the loop, and its own turns. -/
inductive LoopInput (α : Type*) where
  | tick (duration : ℕ)
  /-- The session has become invalid. -/
  | invalidate
  | advance (poll : Poll α)
  deriving DecidableEq

/-- The loop ends with a result or a cancellation. -/
def ConnectionLoop.step {α : Type*} (started : Instant) (sessionTimeout : Option ℕ)
    (s : ConnectionLoop) : LoopInput α → ConnectionLoop × List (Except ConnectionCancellation α)
  | .tick duration => ({ s with shared.now := s.shared.now + duration }, [])
  | .invalidate => ({ s with shared.connectionInvalid := true }, [])
  | .advance poll => s.advance started sessionTimeout poll

/-- The loop with what goes on around it; what it returns is logged. -/
def connectionMachine (α : Type*) (started : Instant) (sessionTimeout : Option ℕ) :
    Machine ConnectionLoop (LoopInput α) (Except ConnectionCancellation α) where
  step := ConnectionLoop.step started sessionTimeout

/-! ### Admissions -/

namespace Shared

/-- The flags tell what the binder is doing. -/
structure Flags (s : Shared) : Prop where
  started : s.admissionStarted = true ↔ 0 < s.admissions
  finished : s.admissionFinished = true ↔ 0 < s.admissions ∧ s.admitting = false
  admitting : s.admitting = true → 0 < s.admissions

/-- What polls can have done between two states. -/
structure Moved (s s' : Shared) : Prop where
  admissions : s.admissions ≤ s'.admissions
  started : s.admissions < s'.admissions → s'.admissionStartedNotify = true
  startedNotify : s.admissionStartedNotify = true → s'.admissionStartedNotify = true
  finished : s.admitting = true → s'.admitting = false → s'.admissionFinishedNotify = true
  finishedNotify : s.admissionFinishedNotify = true → s'.admissionFinishedNotify = true
  admitting : s'.admissions = s.admissions → s.admitting = false → s'.admitting = false

variable {s s' s'' : Shared}

/-- The flags agree with what the binder does, move by move. -/
theorem Flags.move (h : s.Flags) (m : AdmissionMove) : (s.move m).Flags := by
  cases m with
  | enter => constructor <;> simp [Shared.move]
  | leave =>
    rw [Shared.move]
    split_ifs with hrun
    · have hpos := h.admitting hrun
      constructor
      · exact h.started
      · simp [hpos]
      · intro hadm
        cases hadm
    · exact h

theorem Moved.refl (s : Shared) : s.Moved s where
  admissions := le_rfl
  started h := absurd h (lt_irrefl _)
  startedNotify h := h
  finished h h' := by simp [h] at h'
  finishedNotify h := h
  admitting _ h := h

theorem Moved.trans (h : s.Moved s') (h' : s'.Moved s'') : s.Moved s'' where
  admissions := h.admissions.trans h'.admissions
  started hlt := by
    obtain hlt' | heq := h.admissions.lt_or_eq
    · exact h'.startedNotify (h.started hlt')
    · exact h'.started (heq ▸ hlt)
  startedNotify hn := h'.startedNotify (h.startedNotify hn)
  finished hs hs'' := by
    cases hs' : s'.admitting with
    | true => exact h'.finished hs' hs''
    | false => exact h'.finishedNotify (h.finished hs hs')
  finishedNotify hn := h'.finishedNotify (h.finishedNotify hn)
  admitting heq hs := by
    have heq' : s'.admissions = s.admissions :=
      le_antisymm (h'.admissions.trans heq.le) h.admissions
    exact h'.admitting (heq.trans heq'.symm) (h.admitting heq' hs)

/-- An admission begins or ends, and none is taken back. -/
theorem Moved.move (s : Shared) (m : AdmissionMove) : s.Moved (s.move m) := by
  cases m with
  | enter => constructor <;> simp [Shared.move]
  | leave =>
    rw [Shared.move]
    split_ifs with hrun
    · constructor <;> simp
    · exact Moved.refl s

/-- By induction on the moves of a poll. -/
theorem Flags.moves (h : s.Flags) (ms : List AdmissionMove) : (s.moves ms).Flags := by
  induction ms generalizing s with
  | nil => exact h
  | cons m ms ih => exact ih (h.move m)

/-- By induction on the moves of a poll. -/
theorem Moved.moves (s : Shared) (ms : List AdmissionMove) : s.Moved (s.moves ms) := by
  induction ms generalizing s with
  | nil => exact Moved.refl s
  | cons m ms ih => exact (Moved.move s m).trans (ih (s.move m))

/-- A cancellation is kept exactly while an admission is running. -/
theorem Flags.decision_eq (h : s.Flags) :
    s.decision = if s.admitting then .deferUntilAdmissionFinishes else .cancel := by
  rw [decision, cancellationDecision]
  cases hrun : s.admitting with
  | true =>
    have hfin : s.admissionFinished = false := by
      rw [← Bool.not_eq_true, h.finished, hrun]
      simp
    simp [h.started.mpr (h.admitting hrun), hfin]
  | false =>
    cases hst : s.admissionStarted with
    | false => rfl
    | true => simp [h.finished.mpr ⟨h.started.mp hst, hrun⟩]

end Shared

/-- Before the authentication nothing is being admitted. -/
theorem selectedConnectionTimeout_preAuth {started : Instant} {admissionStarted : Bool}
    {sessionTimeout : Option ℕ} {t : SelectedConnectionTimeout}
    (h : selectedConnectionTimeout started admissionStarted sessionTimeout = some t)
    (ht : t.phase = .preAuth) : admissionStarted = false := by
  cases admissionStarted with
  | false => rfl
  | true =>
    rw [selectedConnectionTimeout, if_pos rfl, Option.map_eq_some_iff] at h
    obtain ⟨timeout, -, rfl⟩ := h
    cases ht

/-! ### What the loop may rely on -/

namespace ConnectionLoop

variable {α : Type*}

/-- In the `select!`: an admission that the loaded flag does not show yet has its notification
waiting, before the branch that consumes it; and the same for the end of an admission, once a
cancellation is kept. -/
structure Selecting (shared : Shared) (pending : Option ConnectionCancellation)
    (admitted finished : Bool) (timeout : Option SelectedConnectionTimeout) (branch : Branch) :
    Prop where
  unadmitted : admitted = false → shared.admissions = 0 ∨
    branch = .started ∧ shared.admissionStartedNotify = true
  waiting : pending.isSome → admitted = true ∧ finished = false ∧ timeout = none ∧
    (shared.admitting = true ∨
      (branch = .started ∨ branch = .finished) ∧ shared.admissionFinishedNotify = true)
  preAuth : ∀ t, timeout = some t → t.phase = .preAuth → admitted = false

/-- What holds at each point of the loop. -/
def AtPoint (shared : Shared) (pending : Option ConnectionCancellation) : LoopPoint → Prop
  | .top => True
  | .lastPoll cancellation => pending = some cancellation ∧ shared.admitting = false
  | .select admitted finished timeout branch =>
    Selecting shared pending admitted finished timeout branch
  | .returned => True

/-- A cancellation is put off only for an admission, and never one for taking too long to
authenticate. -/
structure Sound (s : ConnectionLoop) : Prop where
  flags : s.shared.Flags
  deferred : ∀ c, s.pendingCancellation = some c →
    0 < s.shared.admissions ∧ c ≠ .timeout .preAuth
  atPoint : AtPoint s.shared s.pendingCancellation s.point

/-- What a returned value says about the state it is returned in. -/
def Fair (s : ConnectionLoop) : Except ConnectionCancellation α → Prop
  | .ok _ => True
  | .error c =>
    (s.shared.admissions ≤ 1 → s.shared.admitting = false) ∧
    (c = .timeout .preAuth → s.shared.admissions = 0) ∧
    ∀ d, s.pendingCancellation = some d → c = d

/-- The outcome of a step: the loop goes on, or it returns a value that is fair. -/
structure Kept (s : ConnectionLoop)
    (next : ConnectionLoop × List (Except ConnectionCancellation α)) : Prop where
  sound : next.1.Sound
  pending : ∀ c, s.pendingCancellation = some c → next.1.pendingCancellation = some c
  outcome : next.2 = [] ∧ next.1.point ≠ .returned ∨
    ∃ r, next.2 = [r] ∧ next.1.point = .returned ∧ next.1.Fair r

section Steps

variable {s s' : ConnectionLoop} {admitted finished : Bool}
  {timeout : Option SelectedConnectionTimeout} {branch : Branch} {c : ConnectionCancellation}

/-- A connection begins soundly. -/
theorem Sound.accepted (startedNotify finishedNotify : Bool) (now : Instant) :
    (accepted startedNotify finishedNotify now).Sound where
  flags := by constructor <;> simp [ConnectionLoop.accepted]
  deferred c hc := by cases hc
  atPoint := trivial

/-- A step that leaves the kept cancellation alone. -/
theorem Sound.follow (h : s.Sound) (hflags : s'.shared.Flags)
    (hadm : s.shared.admissions ≤ s'.shared.admissions)
    (hpending : s'.pendingCancellation = s.pendingCancellation)
    (hat : AtPoint s'.shared s'.pendingCancellation s'.point) : s'.Sound where
  flags := hflags
  deferred c hc := by
    obtain ⟨hpos, hne⟩ := h.deferred c (hpending ▸ hc)
    exact ⟨hpos.trans_le hadm, hne⟩
  atPoint := hat

/-- The loop goes on. -/
theorem Kept.goOn (hflags : s'.shared.Flags)
    (hadm : s.shared.admissions ≤ s'.shared.admissions)
    (h : s.Sound) (hpending : s'.pendingCancellation = s.pendingCancellation)
    (hat : AtPoint s'.shared s'.pendingCancellation s'.point) (hp : s'.point ≠ .returned) :
    s.Kept ((s', []) : ConnectionLoop × List (Except ConnectionCancellation α)) where
  sound := h.follow hflags hadm hpending hat
  pending _ hc := hpending.trans hc
  outcome := .inl ⟨rfl, hp⟩

/-- The loop returns. -/
theorem Kept.return_ {r : Except ConnectionCancellation α} (hflags : s'.shared.Flags)
    (hadm : s.shared.admissions ≤ s'.shared.admissions)
    (h : s.Sound) (hpending : s'.pendingCancellation = s.pendingCancellation)
    (hp : s'.point = .returned) (hfair : s'.Fair r) : s.Kept (s', [r]) where
  sound := h.follow hflags hadm hpending (hp ▸ trivial)
  pending _ hc := hpending.trans hc
  outcome := .inr ⟨r, rfl, hp, hfair⟩

variable (started : Instant) (sessionTimeout : Option ℕ) (poll : Poll α)

/-- From the top of the loop. -/
theorem Sound.kept_top (h : s.Sound) (hp : s.point = .top) :
    s.Kept (s.advance started sessionTimeout poll) := by
  have hdec : s.shared.decision = _ := h.flags.decision_eq
  rw [Shared.decision] at hdec
  simp only [advance, hp, hdec]
  cases hpend : s.pendingCancellation with
  | none =>
    refine .goOn h.flags le_rfl h hpend.symm ?_ (by simp)
    constructor
    · intro hadm
      left
      rw [← Bool.not_eq_true, h.flags.started] at hadm
      exact Nat.eq_zero_of_not_pos hadm
    · intro hsome
      cases hsome
    · exact fun t ht => selectedConnectionTimeout_preAuth ht
  | some c =>
    have hpos := (h.deferred c hpend).1
    cases hrun : s.shared.admitting with
    | false =>
      simp only [Option.filter_some, Bool.false_eq_true, if_false, decide_true, if_true]
      exact .goOn h.flags le_rfl h hpend.symm ⟨rfl, hrun⟩ (by simp)
    | true =>
      have hfin : s.shared.admissionFinished = false := by
        rw [← Bool.not_eq_true, h.flags.finished, hrun]
        simp
      simp only [Option.filter_some, if_true, reduceCtorEq, decide_false, Bool.false_eq_true,
        if_false, Option.isNone_some]
      refine .goOn h.flags le_rfl h hpend.symm ?_ (by simp)
      constructor
      · intro hadm
        rw [h.flags.started.mpr hpos] at hadm
        cases hadm
      · exact fun _ => ⟨h.flags.started.mpr hpos, hfin, rfl, .inl hrun⟩
      · intro t ht
        cases ht

/-- From the last poll before a cancellation, which lets an admission that began in it end. -/
theorem Sound.kept_lastPoll (h : s.Sound) (hp : s.point = .lastPoll c) :
    s.Kept (s.advance started sessionTimeout poll) := by
  have hat := h.atPoint
  rw [hp] at hat
  obtain ⟨hpend, hrun⟩ := hat
  obtain ⟨hpos, hne⟩ := h.deferred c hpend
  have hmoved := Shared.Moved.moves s.shared poll.moves
  simp only [advance, hp, pollConnection]
  cases poll.result with
  | some result => exact .return_ (h.flags.moves _) hmoved.admissions h rfl rfl trivial
  | none =>
    refine .return_ (h.flags.moves _) hmoved.admissions h rfl rfl ⟨?_, ?_, ?_⟩
    · intro hle
      -- One admission has finished, and a second one has not begun.
      refine hmoved.admitting ?_ hrun
      exact le_antisymm (hle.trans hpos) hmoved.admissions
    · exact fun hc => absurd hc hne
    · intro d hd
      rw [hpend] at hd
      exact Option.some.inj hd

/-- The connection is polled, and may begin or end an admission. -/
theorem Sound.kept_connection (h : s.Sound)
    (hp : s.point = .select admitted finished timeout .connection) :
    s.Kept (s.advance started sessionTimeout poll) := by
  have hat := h.atPoint
  rw [hp] at hat
  have hmoved := Shared.Moved.moves s.shared poll.moves
  simp only [advance, hp, pollConnection]
  cases poll.result with
  | some result => exact .return_ (h.flags.moves _) hmoved.admissions h rfl rfl trivial
  | none =>
    refine .goOn (h.flags.moves _) hmoved.admissions h rfl ?_ (by simp)
    constructor
    · intro hadm
      have hzero : s.shared.admissions = 0 := (hat.unadmitted hadm).resolve_right (by simp)
      obtain hpos | hpos := Nat.eq_zero_or_pos (s.shared.moves poll.moves).admissions
      · exact .inl hpos
      · exact .inr ⟨rfl, hmoved.started (hzero ▸ hpos)⟩
    · intro hpend
      obtain ⟨hadm, hfin, htime, hrun⟩ := hat.waiting hpend
      refine ⟨hadm, hfin, htime, ?_⟩
      have hrun : s.shared.admitting = true := hrun.resolve_right (by simp)
      cases hrun' : (s.shared.moves poll.moves).admitting with
      | true => exact .inl rfl
      | false => exact .inr ⟨.inl rfl, hmoved.finished hrun hrun'⟩
    · exact hat.preAuth

/-- The permit of an admission that began is consumed. -/
theorem Sound.kept_started (h : s.Sound)
    (hp : s.point = .select admitted finished timeout .started) :
    s.Kept (s.advance started sessionTimeout poll) := by
  have hat := h.atPoint
  rw [hp] at hat
  simp only [advance, hp]
  split_ifs with hn
  · exact .goOn ⟨h.flags.started, h.flags.finished, h.flags.admitting⟩ le_rfl h rfl trivial
      (by simp)
  · refine .goOn h.flags le_rfl h rfl ?_ (by simp)
    constructor
    · intro hadm
      left
      refine (hat.unadmitted hadm).resolve_right ?_
      rintro ⟨-, hnotify⟩
      simp [hadm, hnotify] at hn
    · intro hpend
      obtain ⟨hadm, hfin, htime, hrun | ⟨-, hnotify⟩⟩ := hat.waiting hpend
      · exact ⟨hadm, hfin, htime, .inl hrun⟩
      · exact ⟨hadm, hfin, htime, .inr ⟨.inr rfl, hnotify⟩⟩
    · exact hat.preAuth

/-- The permit of an admission that ended is consumed. -/
theorem Sound.kept_finished (h : s.Sound)
    (hp : s.point = .select admitted finished timeout .finished) :
    s.Kept (s.advance started sessionTimeout poll) := by
  have hat := h.atPoint
  rw [hp] at hat
  simp only [advance, hp]
  split_ifs with hn
  · exact .goOn ⟨h.flags.started, h.flags.finished, h.flags.admitting⟩ le_rfl h rfl trivial
      (by simp)
  · refine .goOn h.flags le_rfl h rfl ?_ (by simp)
    constructor
    · exact fun hadm => .inl ((hat.unadmitted hadm).resolve_right (by simp))
    · intro hpend
      obtain ⟨hadm, hfin, htime, hrun⟩ := hat.waiting hpend
      refine ⟨hadm, hfin, htime, .inl (hrun.resolve_right ?_)⟩
      rintro ⟨-, hnotify⟩
      simp [hpend, hfin, hnotify] at hn
    · exact hat.preAuth

/-- A branch that neither consumes nor returns hands over to the next one. -/
theorem Selecting.next {shared : Shared} {pending : Option ConnectionCancellation}
    {branch' : Branch} (h : Selecting shared pending admitted finished timeout branch)
    (hs : branch ≠ .started) (hf : branch ≠ .finished) :
    Selecting shared pending admitted finished timeout branch' where
  unadmitted hadm := .inl ((h.unadmitted hadm).resolve_right fun hb => hs hb.1)
  waiting hpend := by
    obtain ⟨hadm, hfin, htime, hrun⟩ := h.waiting hpend
    refine ⟨hadm, hfin, htime, .inl (hrun.resolve_right ?_)⟩
    rintro ⟨hb | hb, -⟩
    · exact hs hb
    · exact hf hb
  preAuth := h.preAuth

/-- A first cancellation is carried out between admissions and kept during one. -/
theorem Kept.cancel (hflags : s'.shared.Flags) (hpend : s.pendingCancellation = none)
    (hpend' : s'.pendingCancellation = none)
    (hpre : c = .timeout .preAuth → s'.shared.admissions = 0) :
    s.Kept (s'.cancel c : ConnectionLoop × List (Except ConnectionCancellation α)) := by
  rw [ConnectionLoop.cancel, hflags.decision_eq]
  cases hrun : s'.shared.admitting with
  | true =>
    have hpos := hflags.admitting hrun
    rw [if_pos rfl, if_pos rfl]
    constructor
    · refine ⟨hflags, ?_, trivial⟩
      intro d hd
      obtain rfl := Option.some.inj hd
      refine ⟨hpos, ?_⟩
      intro hc
      exact absurd (hpre hc) hpos.ne'
    · intro d hd
      rw [hpend] at hd
      cases hd
    · exact .inl ⟨rfl, by simp⟩
  | false =>
    rw [if_neg (by simp)]
    constructor
    · refine ⟨hflags, ?_, trivial⟩
      intro d hd
      rw [hpend'] at hd
      cases hd
    · intro d hd
      rw [hpend] at hd
      cases hd
    · refine .inr ⟨_, rfl, rfl, fun _ => hrun, hpre, ?_⟩
      intro d hd
      rw [hpend'] at hd
      cases hd

/-- The session is invalid: the cancellation is carried out, or kept. -/
theorem Sound.kept_invalid (h : s.Sound)
    (hp : s.point = .select admitted finished timeout .invalid) :
    s.Kept (s.advance started sessionTimeout poll) := by
  have hat := h.atPoint
  rw [hp] at hat
  simp only [advance, hp]
  split_ifs with hn
  · have hpend : s.pendingCancellation = none := by
      rw [Bool.and_eq_true, Option.isNone_iff_eq_none] at hn
      exact hn.1
    refine .cancel ⟨h.flags.started, h.flags.finished, h.flags.admitting⟩ hpend hpend ?_
    intro hc
    cases hc
  · exact .goOn h.flags le_rfl h rfl (hat.next (by simp) (by simp)) (by simp)

/-- The time is over: the cancellation is carried out, or kept. -/
theorem Sound.kept_timeout (h : s.Sound)
    (hp : s.point = .select admitted finished timeout .timeout) :
    s.Kept (s.advance started sessionTimeout poll) := by
  have hat := h.atPoint
  rw [hp] at hat
  simp only [advance, hp]
  cases hfilter : timeout.filter fun timeout => timeout.deadline ≤ s.shared.now with
  | none => exact .goOn h.flags le_rfl h rfl (hat.next (by simp) (by simp)) (by simp)
  | some t =>
    have ht : timeout = some t := (Option.filter_eq_some_iff.mp hfilter).1
    have hpend : s.pendingCancellation = none := by
      by_contra hne
      obtain ⟨-, -, htime, -⟩ := hat.waiting (Option.isSome_iff_ne_none.mpr hne)
      rw [ht] at htime
      cases htime
    refine .cancel h.flags hpend hpend ?_
    intro hc
    have hphase : t.phase = .preAuth := ConnectionCancellation.timeout.inj hc
    exact (hat.unadmitted (hat.preAuth t ht hphase)).resolve_right (by simp)

/-- **The loop keeps what it relies on**, and what it returns is fair. -/
theorem Sound.kept_advance (h : s.Sound) (hp : s.point ≠ .returned) :
    s.Kept (s.advance started sessionTimeout poll) := by
  cases hpoint : s.point with
  | top => exact h.kept_top _ _ _ hpoint
  | lastPoll c => exact h.kept_lastPoll _ _ _ hpoint
  | select admitted finished timeout branch =>
    cases branch with
    | connection => exact h.kept_connection _ _ _ hpoint
    | started => exact h.kept_started _ _ _ hpoint
    | finished => exact h.kept_finished _ _ _ hpoint
    | invalid => exact h.kept_invalid _ _ _ hpoint
    | timeout => exact h.kept_timeout _ _ _ hpoint
  | returned => exact absurd hpoint hp

end Steps

/-! ### Runs -/

/-- Time and the validity of the session are not what the loop relies on. -/
theorem Sound.outside {s : ConnectionLoop} (h : s.Sound) (now : Instant) (invalid : Bool) :
    { s with shared := { s.shared with now, connectionInvalid := invalid } }.Sound where
  flags := ⟨h.flags.started, h.flags.finished, h.flags.admitting⟩
  deferred := h.deferred
  atPoint := by
    have hat := h.atPoint
    cases hpoint : s.point with
    | top => trivial
    | lastPoll c =>
      rw [hpoint] at hat
      exact hat
    | select admitted finished timeout branch =>
      rw [hpoint] at hat
      exact ⟨hat.unadmitted, hat.waiting, hat.preAuth⟩
    | returned => trivial

/-- The loop in a run, with what it has returned. -/
structure Recorded (s : ConnectionLoop) (out : List (Except ConnectionCancellation α)) : Prop where
  sound : s.Sound
  outcome : out = [] ∧ s.point ≠ .returned ∨ ∃ r, out = [r] ∧ s.point = .returned ∧ s.Fair r

namespace Recorded

variable {s : ConnectionLoop} {out : List (Except ConnectionCancellation α)} (started : Instant)
  (sessionTimeout : Option ℕ)

/-- A connection ends once. -/
theorem length_le (h : s.Recorded out) : out.length ≤ 1 := by
  obtain ⟨rfl, -⟩ | ⟨r, rfl, -, -⟩ := h.outcome
  · exact Nat.zero_le 1
  · exact le_rfl

theorem ne_nil (h : s.Recorded out) (hp : s.point = .returned) : out ≠ [] := by
  rintro rfl
  obtain ⟨-, hne⟩ | ⟨r, hnil, -, -⟩ := h.outcome
  · exact hne hp
  · cases hnil

theorem fair (h : s.Recorded out) : ∀ r ∈ out, s.Fair r := by
  intro r hr
  obtain ⟨rfl, -⟩ | ⟨r', rfl, -, hfair⟩ := h.outcome
  · cases hr
  · rw [List.mem_singleton] at hr
    exact hr ▸ hfair

/-- One input. What was kept stays. -/
theorem step (h : s.Recorded out) (i : LoopInput α) :
    (s.step started sessionTimeout i).1.Recorded (out ++ (s.step started sessionTimeout i).2) ∧
      ∀ c, s.pendingCancellation = some c →
        (s.step started sessionTimeout i).1.pendingCancellation = some c := by
  cases i with
  | tick duration =>
    rw [ConnectionLoop.step, List.append_nil]
    exact ⟨⟨h.sound.outside _ _, h.outcome⟩, fun _ => id⟩
  | invalidate =>
    rw [ConnectionLoop.step, List.append_nil]
    exact ⟨⟨h.sound.outside _ _, h.outcome⟩, fun _ => id⟩
  | advance poll =>
    rw [ConnectionLoop.step]
    obtain ⟨rfl, hp⟩ | ⟨r, rfl, hp, hfair⟩ := h.outcome
    · have hkept := h.sound.kept_advance started sessionTimeout poll hp
      exact ⟨⟨hkept.sound, hkept.outcome⟩, hkept.pending⟩
    · have hstay : s.advance started sessionTimeout poll = (s, []) := by
        simp only [advance, hp]
      rw [hstay, List.append_nil]
      exact ⟨⟨h.sound, .inr ⟨r, rfl, hp, hfair⟩⟩, fun _ => id⟩

/-- By induction on the inputs. -/
theorem exec (h : s.Recorded out) (is : List (LoopInput α)) :
    ((connectionMachine α started sessionTimeout).exec s is).Recorded
        (out ++ (connectionMachine α started sessionTimeout).trace s is) ∧
      ∀ c, s.pendingCancellation = some c →
        ((connectionMachine α started sessionTimeout).exec s is).pendingCancellation = some c := by
  induction is generalizing s out with
  | nil =>
    rw [Machine.trace, List.append_nil]
    exact ⟨h, fun _ => id⟩
  | cons i is ih =>
    obtain ⟨hnext, hpend⟩ := h.step started sessionTimeout i
    obtain ⟨hrun, hpend'⟩ := ih hnext
    rw [List.append_assoc] at hrun
    exact ⟨hrun, fun c hc => hpend' c (hpend c hc)⟩

/-- A loop that has returned stays so. -/
theorem returned_exec (h : s.Recorded out) (hp : s.point = .returned) (is : List (LoopInput α)) :
    ((connectionMachine α started sessionTimeout).exec s is).point = .returned := by
  obtain ⟨-, hne⟩ | ⟨r, rfl, -, -⟩ := h.outcome
  · exact absurd hp hne
  · obtain ⟨hnil, -⟩ | ⟨_, -, hp', -⟩ := (h.exec started sessionTimeout is).1.outcome
    · cases hnil
    · exact hp'

end Recorded

/-! ### Cancellations that were kept -/

section Progress

variable {s : ConnectionLoop} {c : ConnectionCancellation} (started : Instant)
  (sessionTimeout : Option ℕ)

/-- The steps to the end of the loop, once the admission that a cancellation waits for is over. -/
def remaining : LoopPoint → ℕ
  | .returned => 0
  | .lastPoll _ => 1
  | .top => 2
  | .select _ _ _ .finished => 3
  | .select _ _ _ _ => 4

/-- From anywhere in the loop there are four steps at most. -/
theorem remaining_le (point : LoopPoint) : remaining point ≤ 4 := by
  cases point with
  | select admitted finished timeout branch => cases branch <;> simp [remaining]
  | _ => simp [remaining]

/-- With a cancellation that was kept and no admission, each step is one less. -/
theorem Sound.remaining_advance (h : s.Sound) (hpend : s.pendingCancellation = some c)
    (hrun : s.shared.admitting = false) (hp : s.point ≠ .returned) (poll : Poll α) :
    (s.advance started sessionTimeout poll).1.point = .returned ∨
    remaining (s.advance started sessionTimeout poll).1.point < remaining s.point ∧
      (s.advance started sessionTimeout poll).1.shared.admitting = false := by
  have hat := h.atPoint
  have hdec : s.shared.decision = _ := h.flags.decision_eq
  rw [Shared.decision, hrun] at hdec
  cases hpoint : s.point with
  | top =>
    right
    have hnext : s.advance started sessionTimeout poll = ({ s with point := .lastPoll c }, []) := by
      simp only [advance, hpoint, hpend, hdec]
      rfl
    rw [hnext]
    exact ⟨Nat.one_lt_two, hrun⟩
  | lastPoll d =>
    left
    simp only [advance, hpoint, pollConnection]
    cases poll.result <;> rfl
  | select admitted finished timeout branch =>
    rw [hpoint] at hat
    obtain ⟨hadm, hfin, -, hrun' | ⟨rfl | rfl, hnotify⟩⟩ := hat.waiting (hpend ▸ rfl)
    · rw [hrun] at hrun'
      cases hrun'
    · right
      simp [advance, hpoint, hadm, hrun, remaining]
    · right
      simp [advance, hpoint, hpend, hfin, hnotify, hrun, remaining]
  | returned => exact absurd hpoint hp

/-- An input that lets the loop take a step. -/
def isAdvance : LoopInput α → Bool
  | .advance _ => true
  | _ => false

/-- A cancellation that was kept ends the loop as soon as the admission is over. -/
theorem Recorded.returned {out : List (Except ConnectionCancellation α)} (h : s.Recorded out)
    (hpend : s.pendingCancellation = some c) (hrun : s.shared.admitting = false)
    (js : List (LoopInput α)) (hjs : remaining s.point ≤ js.countP isAdvance) :
    ((connectionMachine α started sessionTimeout).exec s js).point = .returned := by
  induction js generalizing s out with
  | nil =>
    by_contra hp
    cases hpoint : s.point with
    | returned => exact hp hpoint
    | select admitted finished timeout branch => cases branch <;> simp [hpoint, remaining] at hjs
    | _ => simp [hpoint, remaining] at hjs
  | cons i js ih =>
    obtain ⟨hnext, hpend'⟩ := h.step started sessionTimeout i
    cases i with
    | tick duration => exact ih hnext (hpend' c hpend) hrun hjs
    | invalidate => exact ih hnext (hpend' c hpend) hrun hjs
    | advance poll =>
      by_cases hp : s.point = .returned
      · exact h.returned_exec started sessionTimeout hp (.advance poll :: js)
      · obtain hret | ⟨hlt, hrun'⟩ :=
          h.sound.remaining_advance started sessionTimeout hpend hrun hp poll
        · exact hnext.returned_exec started sessionTimeout hret js
        · rw [List.countP_cons_of_pos rfl] at hjs
          exact ih hnext (hpend' c hpend) hrun' (Nat.le_of_lt_succ (hlt.trans_le hjs))

end Progress

end ConnectionLoop

open ConnectionLoop

/-- **Cancellations leave admissions alone.** Suppose that the server binds a connection at most
once. The loop then returns one value at most. It cancels only while no admission is running, and
reports a pre-authentication timeout only if none has begun. A cancellation that was kept is the
only one that can still be returned, and four steps after the end of the admission something has
been: that cancellation, or the result of the connection itself. -/
theorem admission_not_cancelled {α : Type*} (started : Instant) (sessionTimeout : Option ℕ)
    (startedNotify finishedNotify : Bool) (is : List (LoopInput α))
    (hbinds : ((connectionMachine α started sessionTimeout).exec
      (accepted startedNotify finishedNotify started) is).shared.admissions ≤ 1) :
    let m := connectionMachine α started sessionTimeout
    let s₀ := accepted startedNotify finishedNotify started
    let s := m.exec s₀ is
    (m.trace s₀ is).length ≤ 1 ∧
    (∀ c, Except.error c ∈ m.trace s₀ is → s.shared.admitting = false) ∧
    (Except.error (.timeout .preAuth) ∈ m.trace s₀ is → s.shared.admissions = 0) ∧
    ∀ c, s.pendingCancellation = some c → ∀ js,
      (∀ r ∈ m.trace s₀ (is ++ js), (∃ result, r = .ok result) ∨ r = .error c) ∧
      (s.shared.admitting = false → 4 ≤ js.countP isAdvance → m.trace s₀ (is ++ js) ≠ []) := by
  intro m s₀ s
  have hstart : s₀.Recorded ([] : List (Except ConnectionCancellation α)) :=
    ⟨.accepted _ _ _, .inl ⟨rfl, by simp [s₀, accepted]⟩⟩
  obtain ⟨h, -⟩ := hstart.exec started sessionTimeout is
  rw [List.nil_append] at h
  refine ⟨h.length_le, ?_, ?_, ?_⟩
  · exact fun c hc => (h.fair _ hc).1 hbinds
  · exact fun hc => (h.fair _ hc).2.1 rfl
  · intro c hc js
    obtain ⟨hend, hpend⟩ := h.exec started sessionTimeout js
    rw [← m.trace_append, ← m.exec_append] at hend
    constructor
    · intro r hr
      cases r with
      | ok result => exact .inl ⟨result, rfl⟩
      | error d =>
        right
        rw [(hend.fair _ hr).2.2 c (m.exec_append .. ▸ hpend c hc)]
    · intro hrun hjs
      refine hend.ne_nil ?_
      rw [m.exec_append]
      exact h.returned started sessionTimeout hc hrun js ((remaining_le _).trans hjs)

/-- A connection whose session becomes invalid while it is being admitted. -/
def invalidatedDuringAdmission : List (LoopInput Unit) :=
  [.advance ⟨[], none⟩, .advance ⟨[.enter], none⟩, .advance ⟨[], none⟩, .invalidate,
   .advance ⟨[], none⟩, .advance ⟨[], none⟩, .advance ⟨[], none⟩, .advance ⟨[], none⟩,
   .advance ⟨[], none⟩, .tick (seconds 40), .advance ⟨[], none⟩, .advance ⟨[.leave], none⟩]

/-- The steps in which the cancellation is carried out. -/
def cancelledAfterAdmission : List (LoopInput Unit) := List.replicate 4 (.advance ⟨[], none⟩)

theorem admission_not_cancelled_invalidated :
    let m := connectionMachine Unit 0 none
    let s₀ := accepted false true 0
    (m.exec s₀ invalidatedDuringAdmission).pendingCancellation = some .sessionInvalid ∧
      m.trace s₀ invalidatedDuringAdmission = [] ∧
      m.trace s₀ (invalidatedDuringAdmission ++ cancelledAfterAdmission) =
        [.error .sessionInvalid] ∧
      m.trace s₀ (invalidatedDuringAdmission ++ cancelledAfterAdmission) ≠ [] := by
  intro m s₀
  have hpend :
      (m.exec s₀ invalidatedDuringAdmission).pendingCancellation = some .sessionInvalid := by
    decide
  obtain ⟨-, -, -, hkept⟩ :=
    admission_not_cancelled 0 none false true invalidatedDuringAdmission (by decide)
  obtain ⟨-, hreturned⟩ := hkept .sessionInvalid hpend cancelledAfterAdmission
  exact ⟨hpend, by decide, by decide, hreturned (by decide) (by decide)⟩

end Server

end Cheirizo
