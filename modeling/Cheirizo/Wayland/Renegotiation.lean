import Cheirizo.Wayland.ExtCapture

/-!
# Constraints that change during a capture

The constraints on the buffers of a session may be sent again at any time, also while a frame is
outstanding. A session should then have at most one frame that is neither completed nor destroyed,
every capture should go into a buffer that meets the constraints completed last, and a frame that
fails for its buffer should be followed by another capture once newer constraints are complete,
whether they came before or after the failure.

The client follows `done` by a new frame in any case. It adds formats to those of earlier
constraints, and it answers the failure of a buffer by forgetting constraints that may have come
already. `Steady` says of each event when nothing comes of this.

`ExtSession` is the compositor's side of a session: its frames, the constraints being sent, and
those completed last.

## Main definitions

* `ExtSession.observe`, `ExtSession.remember` — what the compositor records of events and requests
* `ExtExchange.InOrder` — the protocol's rules
* `ExtExchange.Coherent` — what is asked of a step
* `ExtExchange.Steady` — the condition on the state before the step

## Main results

* `Follows.coherent_iff` — what a handler does to its session
* `coherent_iff_steady` — the same for every session along a run
-/

namespace Cheirizo

namespace Wayland

/-! ### The compositor -/

/-- One round of constraints, as the compositor means it. -/
structure ConstraintSet where
  size : Option (UInt32 × UInt32) := none
  formats : List UInt32 := []
  deriving DecidableEq, Repr

/-- There is a size that is not zero, and a format that the client knows. -/
def ConstraintSet.Supported (set : ConstraintSet) : Prop :=
  ∃ width height, set.size = some (width, height) ∧ width ≠ 0 ∧ height ≠ 0 ∧
    ∃ format ∈ set.formats, format ∈ knownFormats

/-- A session as the compositor knows it. -/
structure ExtSession where
  /-- The frames that are neither completed nor destroyed. -/
  outstanding : List ℕ := []
  sending : ConstraintSet := {}
  complete : Option ConstraintSet := none
  /-- Constraints have been completed since the last capture was requested. -/
  renewed : Bool := false
  /-- A frame has failed for its buffer since the last capture was requested. -/
  recovering : Bool := false
  deriving DecidableEq, Repr

namespace ExtSession

/-- What an event says about the session. -/
def observe (l : ExtSession) : SessionEvent → ExtSession
  | .bufferSize width height =>
    { l with sending := { l.sending with size := some (width, height) } }
  | .shmFormat format =>
    { l with sending := { l.sending with formats := l.sending.formats ++ [format] } }
  | .done _ => { l with sending := {}, complete := some l.sending, renewed := true }
  | .ready frame => { l with outstanding := l.outstanding.erase frame }
  | .failed frame reason =>
    { l with
        outstanding := l.outstanding.erase frame
        recovering := l.recovering || reason = 1 }
  | .stopped => l
  | .stopCapture => l

/-- What a request says about the session. -/
def remember (l : ExtSession) : ExtAction → ExtSession
  | .createSession _ _ _ _ => {}
  | .createFrame _ frame => { l with outstanding := l.outstanding ++ [frame] }
  | .capture _ _ _ => { l with renewed := false, recovering := false }
  | .destroyFrame _ frame => { l with outstanding := l.outstanding.erase frame }
  | _ => l

/-- The constraints completed last. -/
def Allows (l : ExtSession) (format : BufferFormatInfo) : Prop :=
  ∃ set, l.complete = some set ∧ set.size = some (format.width, format.height) ∧
    format.format ∈ set.formats

/-- The last set of constraints that was completed since a capture was requested can be met. -/
def Renewed (l : ExtSession) : Prop :=
  l.renewed = true ∧ ∃ set, l.complete = some set ∧ set.Supported

/-- There is one frame at most, and a failure is not left at that once constraints have come. -/
def Sound (l : ExtSession) : Prop :=
  l.outstanding.length ≤ 1 ∧ ¬ (l.recovering = true ∧ l.Renewed)

/-- Constraints are not complete without a size, and the events of a frame come while it is
outstanding. -/
def Expects (l : ExtSession) : SessionEvent → Prop
  | .done _ => l.sending.size.isSome
  | .ready frame => frame ∈ l.outstanding
  | .failed frame _ => frame ∈ l.outstanding
  | _ => True

end ExtSession

/-- The client next to the sessions it holds. -/
structure ExtExchange where
  client : ExtCaptureState
  sessions : ℕ → ExtSession

namespace ExtExchange

/-- The sessions when an event has been sent, before it is handled. -/
def observed (w : ExtExchange) : ExtEvent → ℕ → ExtSession
  | .session node e =>
    match w.client.captures node with
    | none => w.sessions
    | some c => Function.update w.sessions c.session ((w.sessions c.session).observe e)
  | _ => w.sessions

/-- Every request is remembered by the session it goes to. -/
def remember (sessions : ℕ → ExtSession) (a : ExtAction) : ℕ → ExtSession :=
  Function.update sessions a.session ((sessions a.session).remember a)

/-- The session sees the event, and then what the client asks. -/
def step (w : ExtExchange) (e : ExtEvent) : ExtExchange × List ExtAction :=
  let r := w.client.handle e
  (⟨r.1, r.2.foldl remember (w.observed e)⟩, r.2)

/-- The client as it is bound, with no session yet. -/
def bound (manager sourceManager shm pipewire : Bool) (handshakeTimeout : ℕ) : ExtExchange :=
  ⟨.bound manager sourceManager shm pipewire handshakeTimeout, fun _ => {}⟩

/-- A session gets the events it may, and captures begin under names that are free. -/
def InOrder (w : ExtExchange) : ExtEvent → Prop
  | .session node event => ∀ c ∈ w.client.captures node, (w.sessions c.session).Expects event
  | e => ∀ node ∈ w.client.starts e, w.client.captures node = none

/-- Every session is sound after the step, and every capture goes into a buffer that meets the
constraints completed last. -/
def Coherent (w : ExtExchange) (e : ExtEvent) : Prop :=
  ∀ session, ((w.step e).1.sessions session).Sound ∧
    ∀ frame buf, .capture session frame buf ∈ (w.step e).2 →
      ((w.step e).1.sessions session).Allows buf.format

end ExtExchange

/-- The exchange, with the client's requests as outputs. -/
def extExchangeMachine : Machine ExtExchange ExtEvent ExtAction where
  step := ExtExchange.step

/-! ### The condition -/

/-- A `done` that a frame follows comes while none is outstanding, and the buffer has a format of
the constraints it completes; one that no frame follows is not the answer to a failure, or there is
no answer that the client could use. A frame that another one follows leaves a buffer that meets
the constraints completed last. A buffer does not fail when newer constraints have come. -/
def ActiveExtCapture.CanContinue (c : ActiveExtCapture) (l : ExtSession) (shm : Bool) (next : ℕ) :
    SessionEvent → Prop
  | .done mapped =>
    (shm = true → c.CanAllocate next mapped → l.outstanding = [] ∧
      ∀ format, c.constraints.pickFormat = some format → format.format ∈ l.sending.formats) ∧
    (¬ (shm = true ∧ c.CanAllocate next mapped) →
      ¬ (l.recovering = true ∧ l.sending.Supported))
  | .ready _ =>
    c.screenshotReply = false → ∀ buf, c.shmBuffer = some buf → l.Allows buf.format
  | .failed _ reason =>
    (reason = 1 → ¬ l.Renewed) ∧
    (reason ≠ 1 → c.screenshotReply = false →
      ∀ buf, c.shmBuffer = some buf → l.Allows buf.format)
  | _ => True

/-- An event of a session finds a capture that can go on with it. -/
def ExtExchange.Steady (w : ExtExchange) : ExtEvent → Prop
  | .session node event => ∀ c ∈ w.client.captures node,
    c.CanContinue (w.sessions c.session) w.client.shm w.client.nextObject event
  | _ => True

/-! ### Deciding a run -/

instance (set : ConstraintSet) : Decidable set.Supported :=
  @decidable_of_iff _ (∃ size ∈ set.size, size.1 ≠ 0 ∧ size.2 ≠ 0 ∧
      ∃ format ∈ set.formats, format ∈ knownFormats)
    ⟨fun ⟨size, h⟩ => ⟨size.1, size.2, h⟩, fun ⟨width, height, h⟩ => ⟨(width, height), h⟩⟩
    (Option.decidableExistsMem set.size)

instance (l : ExtSession) (format : BufferFormatInfo) : Decidable (l.Allows format) :=
  decidable_of_iff (∃ set ∈ l.complete, set.size = some (format.width, format.height) ∧
    format.format ∈ set.formats) Iff.rfl

instance (l : ExtSession) : Decidable l.Renewed :=
  inferInstanceAs (Decidable (l.renewed = true ∧ ∃ set ∈ l.complete, set.Supported))

instance (c : ActiveExtCapture) (next : ℕ) (mapped : Except String Unit) :
    Decidable (c.CanAllocate next mapped) :=
  decidable_of_iff (∃ format ∈ c.constraints.pickFormat, c.needsNewBuffer format = true →
    (ShmFrameBuffer.new next format mapped).toOption.isSome) <|
  exists_congr fun format => and_congr_right fun _ => imp_congr_right fun _ => by
    cases ShmFrameBuffer.new next format mapped <;> simp [Except.toOption]

instance (l : ExtSession) : ∀ e, Decidable (l.Expects e)
  | .done _ => inferInstanceAs (Decidable (l.sending.size.isSome = true))
  | .ready frame => inferInstanceAs (Decidable (frame ∈ l.outstanding))
  | .failed frame _ => inferInstanceAs (Decidable (frame ∈ l.outstanding))
  | .bufferSize _ _ => isTrue trivial
  | .shmFormat _ => isTrue trivial
  | .stopped => isTrue trivial
  | .stopCapture => isTrue trivial

instance (c : ActiveExtCapture) (l : ExtSession) (shm : Bool) (next : ℕ) :
    ∀ e, Decidable (c.CanContinue l shm next e)
  | .done mapped => inferInstanceAs (Decidable (
      (shm = true → c.CanAllocate next mapped → l.outstanding = [] ∧
        ∀ format ∈ c.constraints.pickFormat, format.format ∈ l.sending.formats) ∧
      (¬ (shm = true ∧ c.CanAllocate next mapped) →
        ¬ (l.recovering = true ∧ l.sending.Supported))))
  | .ready _ => inferInstanceAs (Decidable (
      c.screenshotReply = false → ∀ buf ∈ c.shmBuffer, l.Allows buf.format))
  | .failed _ reason => inferInstanceAs (Decidable ((reason = 1 → ¬ l.Renewed) ∧
      (reason ≠ 1 → c.screenshotReply = false → ∀ buf ∈ c.shmBuffer, l.Allows buf.format)))
  | .bufferSize _ _ => isTrue trivial
  | .shmFormat _ => isTrue trivial
  | .stopped => isTrue trivial
  | .stopCapture => isTrue trivial

instance ExtExchange.decidableInOrder (w : ExtExchange) : ∀ e, Decidable (w.InOrder e)
  | .session node event => inferInstanceAs (Decidable (∀ c ∈ w.client.captures node,
      (w.sessions c.session).Expects event))
  | .startCapture node output cursor now =>
    Option.decidableForallMem (w.client.starts (.startCapture node output cursor now))
  | .startScreenshot output now =>
    Option.decidableForallMem (w.client.starts (.startScreenshot output now))
  | .checkHandshakeTimeouts walk now =>
    Option.decidableForallMem (w.client.starts (.checkHandshakeTimeouts walk now))

instance (w : ExtExchange) : ∀ e, Decidable (w.Steady e)
  | .session node event => inferInstanceAs (Decidable (∀ c ∈ w.client.captures node,
      c.CanContinue (w.sessions c.session) w.client.shm w.client.nextObject event))
  | .startCapture _ _ _ _ => isTrue trivial
  | .startScreenshot _ _ => isTrue trivial
  | .checkHandshakeTimeouts _ _ => isTrue trivial

/-! ### A capture and its session -/

section Captures

variable {c c' : ActiveExtCapture} {l : ExtSession} {shm pipewire : Bool} {next frame : ℕ}
  {node : NodeId} {mapped : Except String Unit} {buf : ShmFrameBuffer} {as : List ExtAction}

/-- What the client's state says about the session. -/
structure Follows (c : ActiveExtCapture) (l : ExtSession) : Prop where
  outstanding : l.outstanding = c.pendingFrame.toList
  buffer : ∀ frame, c.pendingFrame = some frame → ∃ buf, c.shmBuffer = some buf
  size : ∀ width height, l.sending.size = some (width, height) →
    c.constraints.width = 0 ∨ c.constraints.width = width ∧ c.constraints.height = height
  running : c.stopped = false

theorem Follows.start (output session : ℕ) (screenshot : Bool) (now : Instant) :
    Follows (.start output session screenshot now) {} where
  outstanding := rfl
  buffer _ h := by cases h
  size _ _ h := by cases h
  running := rfl

theorem Follows.eq_pendingFrame (h : Follows c l) (hframe : frame ∈ l.outstanding) :
    c.pendingFrame = some frame := by
  rw [h.outstanding] at hframe
  exact Option.mem_toList.mp hframe

/-- Replies say nothing to the compositor. -/
theorem foldl_remember_of_replies (h : ∀ a ∈ as, ∃ session result, a = .reply session result) :
    as.foldl ExtSession.remember l = l := by
  induction as with
  | nil => rfl
  | cons a as ih =>
    obtain ⟨hfirst, hrest⟩ := List.forall_mem_cons.mp h
    obtain ⟨session, result, rfl⟩ := hfirst
    exact ih hrest

theorem foldl_remember_createFrame (hbuf : c.shmBuffer = some buf) :
    (c.createFrame frame).2.foldl ExtSession.remember l =
      { l with
          outstanding := l.outstanding ++ [frame]
          renewed := false
          recovering := false } := by
  rw [ActiveExtCapture.createFrame, hbuf]
  rfl

/-- The format that is picked has the size of the constraints. -/
theorem BufferConstraints.size_of_pickFormat {constraints : BufferConstraints}
    {format : BufferFormatInfo} (h : constraints.pickFormat = some format) :
    constraints.width ≠ 0 ∧ format.width = constraints.width ∧
      format.height = constraints.height := by
  unfold pickFormat at h
  split at h
  · cases h
  · split at h
    · cases h
    · next hsize =>
      cases h
      exact ⟨fun hwidth => hsize (.inl hwidth), rfl, rfl⟩

/-- What `done` leads to: a frame in a buffer of the format that was picked, or nothing that the
compositor gets to know. -/
theorem ActiveExtCapture.allocateAndCapture_cases (hrunning : c.stopped = false) (shm : Bool)
    (next : ℕ) (mapped : Except String Unit) :
    (shm = true ∧ c.CanAllocate next mapped ∧ ∃ format buf,
      c.constraints.pickFormat = some format ∧ buf.format = format ∧
      c.allocateAndCapture shm next mapped =
        { c with shmBuffer := some buf }.createFrame (next + 1)) ∨
    (¬ (shm = true ∧ c.CanAllocate next mapped) ∧ ∃ reply as,
      c.allocateAndCapture shm next mapped = ({ c with screenshotReply := reply }, as) ∧
      ∀ a ∈ as, ∃ session result, a = .reply session result) := by
  unfold allocateAndCapture
  cases hshm : shm with
  | false => exact .inr ⟨by simp, c.screenshotReply, [], rfl, List.forall_mem_nil _⟩
  | true =>
    rw [if_neg (by simp [hrunning])]
    cases halloc : c.allocate next mapped with
    | error e =>
      refine .inr ⟨?_, false, _, rfl, forall_mem_reply.mpr fun _ => ⟨c.session, _, rfl⟩⟩
      rintro ⟨-, hcan⟩
      obtain ⟨c', hc'⟩ := allocate_isOk_iff.mpr hcan
      rw [halloc] at hc'
      cases hc'
    | ok c' =>
      obtain ⟨format, buf, hformat, hfit, rfl⟩ := allocate_eq_ok halloc
      exact .inl ⟨rfl, allocate_isOk_iff.mp ⟨_, halloc⟩, format, buf, hformat, hfit, rfl⟩

/-- What is asked of the session that an event was for. -/
def ExtSession.Coherent (l : ExtSession) (session : ℕ) (as : List ExtAction) : Prop :=
  l.Sound ∧ ∀ frame buf, .capture session frame buf ∈ as → l.Allows buf.format

/-- The event is handled well exactly if `p` holds, and then the session is followed. -/
structure Continues (l : ExtSession) (session : ℕ) (o : Option ActiveExtCapture)
    (as : List ExtAction) (p : Prop) : Prop where
  coherent : (as.foldl ExtSession.remember l).Coherent session as ↔ p
  follows : p → ∀ c', o = some c' → Follows c' (as.foldl ExtSession.remember l)

/-- A session may have one frame, in a buffer that meets the constraints. -/
theorem ExtSession.coherent_createFrame (hbuf : c.shmBuffer = some buf) :
    ((c.createFrame frame).2.foldl remember l).Coherent c.session (c.createFrame frame).2 ↔
      l.outstanding = [] ∧ l.Allows buf.format := by
  rw [foldl_remember_createFrame hbuf, ActiveExtCapture.createFrame, hbuf]
  constructor
  · rintro ⟨⟨hlength, -⟩, hallows⟩
    refine ⟨?_, hallows frame buf (by simp)⟩
    simpa using hlength
  · rintro ⟨hnone, hallows⟩
    refine ⟨⟨by simp [hnone], by simp⟩, fun frame' buf' hmem => ?_⟩
    obtain ⟨-, rfl⟩ : frame' = frame ∧ buf' = buf := by simpa using hmem
    exact hallows

/-- The frame is what the client waits for. -/
theorem Follows.createFrame (hnone : l.outstanding = []) (hbuf : c.shmBuffer = some buf)
    (hsize : ∀ width height, l.sending.size = some (width, height) →
      c.constraints.width = 0 ∨ c.constraints.width = width ∧ c.constraints.height = height)
    (hrunning : c.stopped = false) :
    Follows (c.createFrame frame).1 ((c.createFrame frame).2.foldl ExtSession.remember l) := by
  rw [foldl_remember_createFrame hbuf]
  refine ⟨?_, fun _ _ => ⟨buf, hbuf⟩, hsize, hrunning⟩
  rw [hnone]
  rfl

/-- Where nothing is captured, the session only has to be sound. -/
theorem ExtSession.coherent_iff_sound {session : ℕ}
    (h : ∀ session frame buf, .capture session frame buf ∉ as) :
    l.Coherent session as ↔ l.Sound :=
  ⟨fun hcoherent => hcoherent.1, fun hsound => ⟨hsound, fun frame buf hmem =>
    absurd hmem (h session frame buf)⟩⟩

theorem ExtSession.coherent_append {session : ℕ} {bs : List ExtAction}
    (h : ∀ session frame buf, .capture session frame buf ∉ as) :
    l.Coherent session (as ++ bs) ↔ l.Coherent session bs := by
  refine and_congr_right fun _ => forall₂_congr fun frame buf => ?_
  rw [List.mem_append, or_iff_right (h session frame buf)]

theorem Continues.append {session : ℕ} {o : Option ActiveExtCapture} {bs : List ExtAction}
    {p : Prop} (has : ∀ session frame buf, .capture session frame buf ∉ as)
    (h : Continues (as.foldl ExtSession.remember l) session o bs p) :
    Continues l session o (as ++ bs) p := by
  constructor
  · rw [ExtSession.coherent_append has, List.foldl_append]
    exact h.coherent
  · rw [List.foldl_append]
    exact h.follows

/-- A frame after which none is captured leaves the session to be sound. -/
theorem Continues.of_sound {session : ℕ} {o : Option ActiveExtCapture} {p : Prop}
    (has : ∀ session frame buf, .capture session frame buf ∉ as)
    (hsound : (as.foldl ExtSession.remember l).Sound ↔ p)
    (hfollows : ∀ c', o = some c' → Follows c' (as.foldl ExtSession.remember l)) :
    Continues l session o as p :=
  ⟨(ExtSession.coherent_iff_sound has).trans hsound, fun _ => hfollows⟩

theorem Continues.createFrame (hnone : l.outstanding = []) (hbuf : c.shmBuffer = some buf)
    (hsize : ∀ width height, l.sending.size = some (width, height) →
      c.constraints.width = 0 ∨ c.constraints.width = width ∧ c.constraints.height = height)
    (hrunning : c.stopped = false) :
    Continues l c.session (some (c.createFrame frame).1) (c.createFrame frame).2
      (l.Allows buf.format) := by
  constructor
  · rw [ExtSession.coherent_createFrame hbuf]
    exact and_iff_right hnone
  · rintro - c' ⟨⟩
    exact .createFrame hnone hbuf hsize hrunning

theorem not_capture_mem_of_replies (h : ∀ a ∈ as, ∃ session result, a = .reply session result)
    (session frame : ℕ) (buf : ShmFrameBuffer) : .capture session frame buf ∉ as := by
  intro hmem
  obtain ⟨session, result, hreply⟩ := h _ hmem
  cases hreply

/-- The buffer for a frame that follows `done` has the size just completed. -/
theorem Follows.allows_iff (h : Follows c l) (hsize : l.sending.size.isSome)
    {format : BufferFormatInfo} (hformat : c.constraints.pickFormat = some format) :
    (l.observe (.done mapped)).Allows format ↔ format.format ∈ l.sending.formats := by
  obtain ⟨⟨width, height⟩, hsome⟩ := Option.isSome_iff_exists.mp hsize
  obtain ⟨hzero, hwidth, hheight⟩ := BufferConstraints.size_of_pickFormat hformat
  obtain ⟨rfl, rfl⟩ := (h.size width height hsome).resolve_left hzero
  constructor
  · rintro ⟨set, hset, -, hmem⟩
    cases hset
    exact hmem
  · intro hmem
    refine ⟨l.sending, rfl, ?_, hmem⟩
    rw [hsome, hwidth, hheight]

theorem Follows.done (h : Follows c l) (hsound : l.Sound) (hsize : l.sending.size.isSome) :
    Continues (l.observe (.done mapped)) c.session
      (some (c.allocateAndCapture shm next mapped).1) (c.allocateAndCapture shm next mapped).2
      (c.CanContinue l shm next (.done mapped)) := by
  have hempty : ∀ width height, (l.observe (.done mapped)).sending.size = some (width, height) →
      c.constraints.width = 0 ∨ c.constraints.width = width ∧ c.constraints.height = height := by
    intro width height hnone
    cases hnone
  rcases c.allocateAndCapture_cases h.running shm next mapped with
    ⟨hshm, hcan, format, buf, hformat, hfit, hresult⟩ | ⟨hcannot, reply, as, hresult, has⟩
  · -- A frame is asked for.
    rw [hresult]
    constructor
    · rw [ExtSession.coherent_createFrame rfl, hfit, h.allows_iff hsize hformat]
      refine ⟨fun ⟨hnone, hmem⟩ => ⟨fun _ _ => ⟨hnone, fun format' hformat' => ?_⟩,
        fun hcannot => absurd ⟨hshm, hcan⟩ hcannot⟩, fun hcontinue => ?_⟩
      · rw [hformat] at hformat'
        cases hformat'
        exact hmem
      · obtain ⟨hnone, hmem⟩ := hcontinue.1 hshm hcan
        exact ⟨hnone, hmem format hformat⟩
    · rintro hcontinue c' ⟨⟩
      exact .createFrame (hcontinue.1 hshm hcan).1 rfl hempty h.running
  · -- Nothing changes but what the compositor has completed.
    rw [hresult]
    have hsame := foldl_remember_of_replies (l := l.observe (.done mapped)) has
    constructor
    · rw [hsame, ExtSession.coherent_iff_sound (not_capture_mem_of_replies has)]
      refine ⟨fun hafter => ⟨fun hshm hcan => absurd ⟨hshm, hcan⟩ hcannot, fun _ hstalled => ?_⟩,
        fun hcontinue => ⟨hsound.1, fun hstalled => ?_⟩⟩
      · exact hafter.2 ⟨hstalled.1, rfl, l.sending, rfl, hstalled.2⟩
      · obtain ⟨hrecovering, -, set, hset, hsupported⟩ := hstalled
        cases hset
        exact hcontinue.2 hcannot ⟨hrecovering, hsupported⟩
    · rintro - c' ⟨⟩
      rw [hsame]
      exact ⟨h.outstanding, h.buffer, hempty, h.running⟩

/-- The action neither creates a frame nor has one captured. -/
def ExtAction.IsHarmless : ExtAction → Prop
  | .createFrame _ _ => False
  | .capture _ _ _ => False
  | _ => True

theorem ExtSession.Sound.remember {a : ExtAction} (h : l.Sound) (ha : a.IsHarmless) :
    (l.remember a).Sound := by
  cases a with
  | createSession session node cursor output => exact ⟨Nat.zero_le 1, fun hstalled => by
      cases hstalled.1⟩
  | destroySession session => exact h
  | createFrame session frame => exact ha.elim
  | capture session frame buf => exact ha.elim
  | destroyFrame session frame => exact ⟨List.length_erase_le.trans h.1, h.2⟩
  | reply session result => exact h
  | queueBuffer session node frame => exact h

theorem ExtSession.Sound.foldl_remember (h : l.Sound) (has : ∀ a ∈ as, a.IsHarmless) :
    (as.foldl ExtSession.remember l).Sound := by
  induction as generalizing l with
  | nil => exact h
  | cons a as ih =>
    obtain ⟨hfirst, hrest⟩ := List.forall_mem_cons.mp has
    exact ih (h.remember hfirst) hrest

/-- A capture that is over and has asked for nothing leaves its session sound. -/
theorem Continues.of_harmless (h : l.Sound) {session : ℕ} (has : ∀ a ∈ as, a.IsHarmless) :
    Continues l session none as True :=
  .of_sound (fun _ _ _ hmem => has _ hmem) (iff_of_true (h.foldl_remember has) trivial)
    fun _ hsome => absurd hsome.symm (Option.some_ne_none _)

theorem isHarmless_stopCapture : ∀ a ∈ c.stopCapture.2, a.IsHarmless :=
  ActiveExtCapture.forall_mem_stopCapture.mpr ⟨fun _ _ => trivial, trivial⟩

/-- The frame that an event completes is the one the client destroys. -/
theorem Follows.destroyFrame (h : Follows c l) (hframe : frame ∈ l.outstanding) :
    c.destroyFrame = [.destroyFrame c.session frame] ∧ l.outstanding.erase frame = [] := by
  have hpending := h.eq_pendingFrame hframe
  rw [h.outstanding, ActiveExtCapture.destroyFrame, hpending]
  exact ⟨rfl, List.erase_cons_head ..⟩

/-- The next frame goes into the buffer of the last one. -/
theorem Follows.requestNextFrame (h : Follows c l) (hbuf : c.shmBuffer = some buf)
    (l' : ExtSession) (hnone : l'.outstanding = []) (hsending : l'.sending = l.sending) :
    Continues l' c.session (some ({ c with pendingFrame := none }.requestNextFrame next).1)
      ({ c with pendingFrame := none }.requestNextFrame next).2 (l'.Allows buf.format) := by
  have hrunning : ({ c with pendingFrame := none } : ActiveExtCapture).stopped = false := h.running
  rw [ActiveExtCapture.requestNextFrame, if_neg (by rw [hrunning]; decide)]
  exact .createFrame (c := { c with pendingFrame := none }) hnone hbuf
    (by rw [hsending]; exact h.size) hrunning

theorem Follows.ready (h : Follows c l) (hsound : l.Sound) (hframe : frame ∈ l.outstanding) :
    Continues (l.observe (.ready frame)) c.session (c.onFrameReady pipewire next node).1
      (c.onFrameReady pipewire next node).2 (c.CanContinue l shm next (.ready frame)) := by
  obtain ⟨hdestroy, herase⟩ := h.destroyFrame hframe
  obtain ⟨buf, hbuf⟩ := h.buffer frame (h.eq_pendingFrame hframe)
  have hlog : (l.observe (.ready frame)).remember (.destroyFrame c.session frame) =
      { l with outstanding := [] } := by
    simp [ExtSession.observe, ExtSession.remember, herase]
  simp only [ActiveExtCapture.onFrameReady, hdestroy]
  split
  · next hnone =>
    rw [hbuf] at hnone
    cases hnone
  · next buf' hbuf' =>
  rw [hbuf] at hbuf'
  cases hbuf'
  split
  · next hreply =>
    refine .of_sound (by simp) ?_ (by simp)
    simp only [List.cons_append, List.nil_append, List.foldl_cons, hlog]
    refine ⟨fun _ hnot => ?_, fun _ => ⟨Nat.zero_le 1, hsound.2⟩⟩
    rw [hreply] at hnot
    cases hnot
  · next hreply =>
    have hreply' := Bool.eq_false_of_not_eq_true hreply
    have hcondition : c.CanContinue l shm next (.ready frame) ↔ l.Allows buf.format := by
      refine ⟨fun hcontinue => hcontinue hreply' buf hbuf, fun hallows _ buf' hbuf' => ?_⟩
      rw [hbuf] at hbuf'
      cases hbuf'
      exact hallows
    rw [hcondition]
    refine .append (by cases pipewire <;> simp) ?_
    have hqueued : ∀ raw, ([ExtAction.destroyFrame c.session frame] ++
        if pipewire = true then [ExtAction.queueBuffer c.session node raw] else []).foldl
          ExtSession.remember (l.observe (.ready frame)) = { l with outstanding := [] } := by
      intro raw
      rw [← hlog]
      cases pipewire <;> rfl
    rw [hqueued]
    exact h.requestNextFrame hbuf { l with outstanding := [] } rfl rfl

/-- A failure is left at that only if no constraints have come. -/
theorem ExtSession.sound_failed (hsound : l.Sound) {reason : UInt32} :
    ({ l with outstanding := [], recovering := l.recovering || reason = 1 } : ExtSession).Sound ↔
      (reason = 1 → ¬ l.Renewed) := by
  constructor
  · rintro ⟨-, hafter⟩ hreason hrenewed
    exact hafter ⟨by simp [hreason], hrenewed⟩
  · intro hreason
    refine ⟨Nat.zero_le 1, fun ⟨hrecovering, hrenewed⟩ => ?_⟩
    rcases Bool.or_eq_true_iff.mp hrecovering with hbefore | hnow
    · exact hsound.2 ⟨hbefore, hrenewed⟩
    · exact hreason (of_decide_eq_true hnow) hrenewed

theorem Follows.failed (h : Follows c l) (hsound : l.Sound) (hframe : frame ∈ l.outstanding)
    (reason : UInt32) :
    Continues (l.observe (.failed frame reason)) c.session (c.onFrameFailed next reason).1
      (c.onFrameFailed next reason).2 (c.CanContinue l shm next (.failed frame reason)) := by
  obtain ⟨hdestroy, herase⟩ := h.destroyFrame hframe
  obtain ⟨buf, hbuf⟩ := h.buffer frame (h.eq_pendingFrame hframe)
  have hlog : (l.observe (.failed frame reason)).remember (.destroyFrame c.session frame) =
      { l with outstanding := [], recovering := l.recovering || reason = 1 } := by
    simp [ExtSession.observe, ExtSession.remember, herase]
  simp only [ActiveExtCapture.onFrameFailed, hdestroy]
  split
  · next hreply =>
    have hcondition : c.CanContinue l shm next (.failed frame reason) ↔
        (reason = 1 → ¬ l.Renewed) := by
      refine and_iff_left fun _ hnot => ?_
      rw [hreply] at hnot
      cases hnot
    rw [hcondition, ← ExtSession.sound_failed hsound, ← hlog]
    exact .of_sound (by simp) Iff.rfl (by simp)
  · next hreply =>
    have hreply' := Bool.eq_false_of_not_eq_true hreply
    split
    · next hreason =>
      have hcondition : c.CanContinue l shm next (.failed frame reason) ↔
          (reason = 1 → ¬ l.Renewed) := and_iff_left fun hnot => absurd hreason hnot
      rw [hcondition, ← ExtSession.sound_failed hsound, ← hlog]
      refine .of_sound (by simp) Iff.rfl ?_
      rintro c' ⟨⟩
      rw [List.foldl_cons, hlog]
      exact ⟨rfl, fun _ hnone => absurd hnone.symm (Option.some_ne_none _), fun _ _ _ => .inl rfl,
        h.running⟩
    · next hreason =>
      have hcondition : c.CanContinue l shm next (.failed frame reason) ↔
          l.Allows buf.format := by
        refine ⟨fun hcontinue => hcontinue.2 hreason hreply' buf hbuf, fun hallows =>
          ⟨fun hone => absurd hone hreason, fun _ _ buf' hbuf' => ?_⟩⟩
        rw [hbuf] at hbuf'
        cases hbuf'
        exact hallows
      rw [hcondition]
      refine .append (by simp) ?_
      rw [List.foldl_cons, hlog]
      exact h.requestNextFrame hbuf
        { l with outstanding := [], recovering := l.recovering || reason = 1 } rfl rfl

/-- **What a handler does to its session.** -/
theorem Follows.handle (h : Follows c l) (hsound : l.Sound) (e : SessionEvent)
    (horder : l.Expects e) :
    Continues (l.observe e) c.session (c.handle shm pipewire next node e).1
      (c.handle shm pipewire next node e).2 (c.CanContinue l shm next e) := by
  cases e with
  | bufferSize width height =>
    refine .of_sound (by simp [ActiveExtCapture.handle]) (iff_of_true hsound trivial) ?_
    rintro c' ⟨⟩
    refine ⟨h.outstanding, h.buffer, fun width' height' hsize => .inr ?_, h.running⟩
    cases hsize
    exact ⟨rfl, rfl⟩
  | shmFormat format =>
    refine .of_sound (by simp [ActiveExtCapture.handle]) (iff_of_true hsound trivial) ?_
    rintro c' ⟨⟩
    exact ⟨h.outstanding, h.buffer, h.size, h.running⟩
  | done mapped =>
    have hdone : Follows { c with constraints := { c.constraints with done := true } } l :=
      ⟨h.outstanding, h.buffer, h.size, h.running⟩
    exact hdone.done hsound horder
  | stopped =>
    exact .of_harmless hsound (List.forall_mem_append.mpr
      ⟨ActiveExtCapture.forall_mem_reply.mpr fun _ => trivial, isHarmless_stopCapture⟩)
  | ready frame => exact h.ready hsound horder
  | failed frame reason => exact h.failed hsound horder reason
  | stopCapture => exact .of_harmless hsound isHarmless_stopCapture

end Captures

/-! ### All sessions along a run -/

section Runs

variable {w : ExtExchange} {e : ExtEvent} {node : NodeId} {c : ActiveExtCapture} {session : ℕ}
  {sessions : ℕ → ExtSession} {as : List ExtAction}

/-- A session remembers what is done for it. -/
theorem foldl_remember_apply :
    as.foldl ExtExchange.remember sessions session =
      (as.filter fun a => a.session = session).foldl ExtSession.remember (sessions session) := by
  induction as generalizing sessions with
  | nil => rfl
  | cons a as ih =>
    rw [List.foldl_cons, ih, ExtExchange.remember]
    by_cases ha : a.session = session
    · subst ha
      rw [Function.update_self, List.filter_cons_of_pos (by simp), List.foldl_cons]
    · rw [Function.update_of_ne (Ne.symm ha), List.filter_cons_of_neg (by simpa using ha)]

theorem foldl_remember_of_ne (has : ∀ a ∈ as, a.session ≠ session) :
    as.foldl ExtExchange.remember sessions session = sessions session := by
  rw [foldl_remember_apply, List.filter_eq_nil_iff.mpr fun a ha => by simpa using has a ha,
    List.foldl_nil]

theorem foldl_remember_of_eq (has : ∀ a ∈ as, a.session = session) :
    as.foldl ExtExchange.remember sessions session =
      as.foldl ExtSession.remember (sessions session) := by
  rw [foldl_remember_apply, List.filter_eq_self.mpr fun a ha => decide_eq_true (has a ha)]

/-- The client's captures follow their sessions, and all sessions are sound. -/
structure Exchanged (w : ExtExchange) : Prop where
  numbered : Numbered w.client
  follows : ∀ node c, w.client.captures node = some c → Follows c (w.sessions c.session)
  sound : ∀ session, (w.sessions session).Sound

theorem Exchanged.bound (manager sourceManager shm pipewire : Bool) (handshakeTimeout : ℕ) :
    Exchanged (.bound manager sourceManager shm pipewire handshakeTimeout) where
  numbered := .bound ..
  follows _ _ hc := by cases hc
  sound _ := ⟨Nat.zero_le 1, fun hstalled => by cases hstalled.1⟩

/-- Commands and timeouts ask for no frame. -/
theorem isHarmless_handle (he : ∀ node event, e ≠ .session node event) :
    ∀ a ∈ (w.client.handle e).2, a.IsHarmless := by
  intro a ha
  cases hstarts : w.client.starts e with
  | some node =>
    obtain ⟨output, cursor, now, -, hactions⟩ := ExtCaptureState.handle_of_starts hstarts
    rw [hactions] at ha
    rw [List.mem_singleton.mp ha]
    trivial
  | none =>
  cases e with
  | startCapture node output cursor now =>
    rw [ExtCaptureState.handle, ExtCaptureState.dispatch_startCapture_of_unbound hstarts] at ha
    exact absurd ha List.not_mem_nil
  | startScreenshot output now =>
    obtain ⟨e, hunbound⟩ := ExtCaptureState.dispatch_startScreenshot_of_unbound hstarts
    rw [ExtCaptureState.handle, hunbound] at ha
    rw [List.mem_singleton.mp ha]
    trivial
  | checkHandshakeTimeouts walk now =>
    obtain ⟨-, ⟨result, hkind⟩ | ⟨frame, hkind⟩ | hkind⟩ :=
      ExtCaptureState.mem_checkHandshakeTimeouts ha
    all_goals
      rw [hkind]
      trivial
  | session node event => exact absurd rfl (he node event)

/-- A step that asks for no frame leaves every session sound. -/
theorem Exchanged.coherent_of_harmless (h : Exchanged w) (hobserved : w.observed e = w.sessions)
    (has : ∀ a ∈ (w.client.handle e).2, a.IsHarmless) : w.Coherent e := by
  intro session
  constructor
  · change ((w.client.handle e).2.foldl ExtExchange.remember (w.observed e) session).Sound
    rw [hobserved, foldl_remember_apply]
    exact (h.sound session).foldl_remember fun a ha => has a (List.mem_of_mem_filter ha)
  · intro frame buf hmem
    exact (has _ hmem).elim

section SessionEvents

variable {event : SessionEvent}

theorem session_of_mem_handle_session (hc : w.client.captures node = some c) :
    ∀ a ∈ (w.client.handle (.session node event)).2, a.session = c.session := by
  rw [(ExtCaptureState.handle_session hc).2]
  exact ActiveExtCapture.session_of_mem_handle event

/-- The session of an event remembers the event and what the client answers. -/
theorem sessions_step_self (hc : w.client.captures node = some c) :
    (w.step (.session node event)).1.sessions c.session =
      (w.client.handle (.session node event)).2.foldl ExtSession.remember
        ((w.sessions c.session).observe event) := by
  change (w.client.handle (.session node event)).2.foldl ExtExchange.remember
    (w.observed (.session node event)) c.session = _
  rw [foldl_remember_of_eq (session_of_mem_handle_session hc), ExtExchange.observed, hc]
  dsimp only
  rw [Function.update_self]

/-- The other sessions have nothing to do with it. -/
theorem sessions_step_of_ne (hc : w.client.captures node = some c) (hne : session ≠ c.session) :
    (w.step (.session node event)).1.sessions session = w.sessions session := by
  have hother : ∀ a ∈ (w.client.handle (.session node event)).2, a.session ≠ session :=
    fun a ha hsame => hne (hsame.symm.trans (session_of_mem_handle_session hc a ha))
  change (w.client.handle (.session node event)).2.foldl ExtExchange.remember
    (w.observed (.session node event)) session = _
  rw [foldl_remember_of_ne hother, ExtExchange.observed, hc]
  exact Function.update_of_ne hne ..

theorem Exchanged.continues (h : Exchanged w) (horder : w.InOrder (.session node event))
    (hc : w.client.captures node = some c) :
    Continues ((w.sessions c.session).observe event) c.session
      ((w.client.handle (.session node event)).1.captures node)
      (w.client.handle (.session node event)).2
      (c.CanContinue (w.sessions c.session) w.client.shm w.client.nextObject event) := by
  obtain ⟨hcaptures, hactions⟩ := ExtCaptureState.handle_session (e := event) hc
  rw [hcaptures, hactions, Function.update_self]
  exact (h.follows node c hc).handle (h.sound c.session) event (horder c hc)

/-- An event of a session is handled well exactly if its capture can go on. -/
theorem Exchanged.coherent_session_iff (h : Exchanged w)
    (horder : w.InOrder (.session node event)) (hc : w.client.captures node = some c) :
    w.Coherent (.session node event) ↔
      c.CanContinue (w.sessions c.session) w.client.shm w.client.nextObject event := by
  rw [← (h.continues horder hc).coherent, ← sessions_step_self hc]
  constructor
  · exact fun hcoherent => hcoherent c.session
  · intro hcoherent session
    by_cases hsession : session = c.session
    · subst hsession
      exact hcoherent
    · rw [sessions_step_of_ne hc hsession]
      refine ⟨h.sound session, fun frame buf hmem => ?_⟩
      exact absurd (session_of_mem_handle_session hc _ hmem) hsession

end SessionEvents

theorem observed_of_not_session (he : ∀ node event, e ≠ .session node event) :
    w.observed e = w.sessions := by
  cases e with
  | session node event => exact absurd rfl (he node event)
  | _ => rfl

/-- **One step.** The step is coherent exactly if it meets the condition. -/
theorem Exchanged.coherent_iff (h : Exchanged w) (horder : w.InOrder e) :
    w.Coherent e ↔ w.Steady e := by
  by_cases he : ∃ node event, e = .session node event
  · obtain ⟨node, event, rfl⟩ := he
    cases hc : w.client.captures node with
    | none =>
      refine iff_of_true (h.coherent_of_harmless ?_ ?_) ?_
      · rw [ExtExchange.observed, hc]
      · rw [(ExtCaptureState.handle_session_of_none hc).2]
        exact List.forall_mem_nil _
      · intro c hsome
        rw [hc] at hsome
        cases hsome
    | some c =>
      rw [h.coherent_session_iff horder hc]
      constructor
      · intro hcontinue c' hc'
        rw [hc] at hc'
        cases hc'
        exact hcontinue
      · exact fun hsteady => hsteady c hc
  · have he' : ∀ node event, e ≠ .session node event := fun node event heq =>
      he ⟨node, event, heq⟩
    refine iff_of_true ?_ ?_
    · exact h.coherent_of_harmless (observed_of_not_session he') (isHarmless_handle he')
    · cases e with
      | session node event => exact absurd rfl (he' node event)
      | _ => trivial

/-- A capture that nothing is done for goes on following its session. -/
theorem Exchanged.follows_of_other (h : Exchanged w) (hobserved : w.observed e = w.sessions)
    (hc : w.client.captures node = some c)
    (has : ∀ a ∈ (w.client.handle e).2, a.session ≠ c.session) :
    Follows c ((w.step e).1.sessions c.session) := by
  change Follows c ((w.client.handle e).2.foldl ExtExchange.remember (w.observed e) c.session)
  rw [foldl_remember_of_ne has, hobserved]
  exact h.follows node c hc

theorem Exchanged.follows_starts (h : Exchanged w) {first : NodeId}
    (hstarts : w.client.starts e = some first)
    (hc : (w.client.handle e).1.captures node = some c) :
    Follows c ((w.step e).1.sessions c.session) := by
  obtain ⟨output, cursor, now, hcaptures, hactions⟩ := ExtCaptureState.handle_of_starts hstarts
  have hobserved : w.observed e = w.sessions :=
    observed_of_not_session fun node event heq => by
      rw [heq] at hstarts
      cases hstarts
  rw [hcaptures] at hc
  by_cases hnode : node = first
  · subst hnode
    rw [Function.update_self] at hc
    cases hc
    change Follows _ ((w.client.handle e).2.foldl ExtExchange.remember (w.observed e)
      w.client.nextObject)
    rw [hactions, List.foldl_cons, List.foldl_nil, ExtExchange.remember]
    dsimp only [ExtAction.session]
    rw [Function.update_self]
    exact .start ..
  · rw [Function.update_of_ne hnode] at hc
    refine h.follows_of_other hobserved hc ?_
    rw [hactions]
    exact List.forall_mem_singleton.mpr (h.numbered.lt node c hc).ne'

theorem Exchanged.follows_session (h : Exchanged w) {first : NodeId} {event : SessionEvent}
    (horder : w.InOrder (.session first event)) (hsteady : w.Steady (.session first event))
    (hc : (w.client.handle (.session first event)).1.captures node = some c) :
    Follows c ((w.step (.session first event)).1.sessions c.session) := by
  cases hfirst : w.client.captures first with
  | none =>
    obtain ⟨hcaptures, hactions⟩ := ExtCaptureState.handle_session_of_none (e := event) hfirst
    rw [hcaptures] at hc
    refine h.follows_of_other (by rw [ExtExchange.observed, hfirst]) hc ?_
    rw [hactions]
    exact List.forall_mem_nil _
  | some d =>
    by_cases hnode : node = first
    · subst hnode
      have hfollows := (h.continues horder hfirst).follows (hsteady d hfirst) c hc
      rw [← sessions_step_self hfirst] at hfollows
      obtain ⟨hcaptures, -⟩ := ExtCaptureState.handle_session (e := event) hfirst
      rw [hcaptures, Function.update_self] at hc
      rw [ActiveExtCapture.session_handle hc]
      exact hfollows
    · obtain ⟨hcaptures, -⟩ := ExtCaptureState.handle_session (e := event) hfirst
      rw [hcaptures, Function.update_of_ne hnode] at hc
      have hne : c.session ≠ d.session := fun hsame =>
        hnode (h.numbered.unique node first c d hc hfirst hsame)
      rw [sessions_step_of_ne hfirst hne]
      exact h.follows node c hc

/-- The captures that are left by the check are not those it has dealt with. -/
theorem Exchanged.follows_checkHandshakeTimeouts (h : Exchanged w) {walk : Walk} {now : Instant}
    (hc : (w.client.handle (.checkHandshakeTimeouts walk now)).1.captures node = some c) :
    Follows c ((w.step (.checkHandshakeTimeouts walk now)).1.sessions c.session) := by
  change (w.client.checkHandshakeTimeouts walk now).1.captures node = some c at hc
  rw [ExtCaptureState.captures_checkHandshakeTimeouts] at hc
  split at hc
  · cases hc
  · next hnode =>
    refine h.follows_of_other rfl hc fun a ha hsession => ?_
    obtain ⟨⟨node', hnode', c', hc', hsession'⟩, -⟩ :=
      ExtCaptureState.mem_checkHandshakeTimeouts ha
    have hsame := h.numbered.unique node' node c' c hc' hc (hsession'.trans hsession)
    exact hnode (hsame ▸ hnode')

theorem Exchanged.step (h : Exchanged w) (horder : w.InOrder e) (hsteady : w.Steady e) :
    Exchanged (w.step e).1 where
  numbered := h.numbered.handle e
  follows node c' hc' := by
    cases hstarts : w.client.starts e with
    | some first => exact h.follows_starts hstarts hc'
    | none =>
    cases e with
    | startCapture first output cursor now =>
      have hunbound := ExtCaptureState.dispatch_startCapture_of_unbound hstarts
      change (w.client.handle _).1.captures node = some c' at hc'
      rw [ExtCaptureState.handle, hunbound] at hc'
      refine h.follows_of_other rfl hc' ?_
      rw [ExtCaptureState.handle, hunbound]
      exact List.forall_mem_nil _
    | startScreenshot output now =>
      obtain ⟨e, hunbound⟩ := ExtCaptureState.dispatch_startScreenshot_of_unbound hstarts
      change (w.client.handle _).1.captures node = some c' at hc'
      rw [ExtCaptureState.handle, hunbound] at hc'
      refine h.follows_of_other rfl hc' ?_
      rw [ExtCaptureState.handle, hunbound]
      exact List.forall_mem_singleton.mpr (h.numbered.lt node c' hc').ne'
    | checkHandshakeTimeouts walk now => exact h.follows_checkHandshakeTimeouts hc'
    | session first event => exact h.follows_session horder hsteady hc'
  sound session := ((h.coherent_iff horder).mpr hsteady session).1

end Runs

/-- **Renegotiation is coherent exactly along steady runs.** For every run in the order of the
protocol, with any allocation failing: after every step each session has one frame at most, every
capture goes into a buffer that meets the constraints completed last, and no failure of a buffer is
left at that when newer constraints are complete, if and only if every step meets `Steady`. -/
theorem coherent_iff_steady (manager sourceManager shm pipewire : Bool) (handshakeTimeout : ℕ)
    (events : List ExtEvent)
    (horder : extExchangeMachine.Along ExtExchange.InOrder
      (.bound manager sourceManager shm pipewire handshakeTimeout) events) :
    extExchangeMachine.Along ExtExchange.Coherent
        (.bound manager sourceManager shm pipewire handshakeTimeout) events ↔
      extExchangeMachine.Along ExtExchange.Steady
        (.bound manager sourceManager shm pipewire handshakeTimeout) events :=
  Machine.along_congr_of_invariant (I := Exchanged) (fun _ _ h horder => h.coherent_iff horder)
    (fun _ _ h horder hsteady => h.step horder hsteady) (.bound ..) horder

/-- A capture that renegotiates between two frames. -/
theorem coherent_renegotiation :
    extExchangeMachine.Along ExtExchange.Coherent (.bound true true true true 0)
      [.startCapture 7 0 false 0, .session 7 (.bufferSize 640 480), .session 7 (.shmFormat 0),
        .session 7 (.done (.ok ())), .session 7 (.failed 7 1), .session 7 (.bufferSize 800 600),
        .session 7 (.shmFormat 1), .session 7 (.done (.ok ())), .session 7 (.ready 15)] := by
  refine (coherent_iff_steady true true true true 0 _ ?_).mpr ?_
  · decide +kernel
  · decide +kernel

/-- Constraints that are sent again before the first frame is ready. -/
def resentConstraints : List ExtEvent :=
  [.startCapture 7 0 false 0, .session 7 (.bufferSize 640 480), .session 7 (.shmFormat 0),
    .session 7 (.done (.ok ())), .session 7 (.bufferSize 800 600), .session 7 (.shmFormat 0),
    .session 7 (.done (.ok ()))]

/-- They are in the order of the protocol, and leave the session with two frames. -/
theorem two_frames_of_resentConstraints :
    extExchangeMachine.Along ExtExchange.InOrder (.bound true true true true 0)
        resentConstraints ∧
      ¬ extExchangeMachine.Along ExtExchange.Coherent (.bound true true true true 0)
        resentConstraints := by
  refine ⟨by decide +kernel, ?_⟩
  rintro ⟨-, -, -, -, -, -, h, -⟩
  exact absurd (h 0).1.1 (by decide)

end Wayland

end Cheirizo
