import Cheirizo.Wayland.ExtCapture

/-!
# Screenshots are taken once

A screenshot is a capture with somebody waiting for its one frame. Whoever waits should be answered
once, the capture should leave the map in the same step, and nothing more should be asked for or
queued on its behalf. The handlers that answer with a frame, with the reason of a failure, or with
the end of the session do so. Where no buffer can be had, `allocate_and_capture` and
`on_frame_ready` answer and leave the capture in the map, where without its sender it passes for a
continuous one: the next `done` sets off a stream of frames under a name no stream owns. And a
capture that is stopped, or whose name is taken by another, is gone without an answer.

`Served` is the condition that none of this comes up, and it is exact.

## Main definitions

* `Answered` — one reply, and nothing after it
* `OneShot` — every screenshot is in the map and unanswered, or gone and answered
* `Served` — the condition on the state before the step

## Main results

* `Attended.handle` — what a handler does for a screenshot, case by case
* `oneShot_iff_served` — screenshots are taken once, exactly along the runs that meet the condition
-/

namespace Cheirizo

namespace Wayland

/-! ### What is asked -/

/-- The screenshot of the session is answered. -/
def ExtAction.IsReply (session : ℕ) : ExtAction → Prop
  | .reply replied _ => replied = session
  | _ => False

/-- The action asks for a frame of the session, or passes one on to PipeWire. -/
def ExtAction.IsRequest (session : ℕ) : ExtAction → Prop
  | .createFrame created _ => created = session
  | .capture captured _ _ => captured = session
  | .queueBuffer queued _ _ => queued = session
  | _ => False

/-- Nothing is sent to whoever waits for the session. -/
def Unanswered (session : ℕ) (log : List ExtAction) : Prop :=
  ∀ a ∈ log, ¬ a.IsReply session

/-- Nothing is sent to whoever waits for the session, and nothing is asked for. -/
def Idle (session : ℕ) (log : List ExtAction) : Prop :=
  ∀ a ∈ log, ¬ a.IsReply session ∧ ¬ a.IsRequest session

/-- There is one reply, and nothing is asked for after it. -/
def Answered (session : ℕ) (log : List ExtAction) : Prop :=
  ∃ before result after, log = before ++ .reply session result :: after ∧
    Unanswered session before ∧ Idle session after

/-- The client, with the sessions that were begun for screenshots and all that it has done. -/
structure ExtCapture where
  client : ExtCaptureState
  screenshots : List ℕ
  log : List ExtAction

/-- A screenshot is in the map and unanswered, or it is gone and answered. -/
def OneShot (w : ExtCapture) : Prop :=
  ∀ session ∈ w.screenshots,
    w.client.Live session ∧ Unanswered session w.log ∨
      ¬ w.client.Live session ∧ Answered session w.log

namespace ExtCapture

/-- The session that an event begins for a screenshot. -/
def begun (w : ExtCapture) (e : ExtEvent) : List ℕ :=
  if (w.client.starts e).isSome && ExtCaptureState.isScreenshot e then [w.client.nextObject]
  else []

/-- A session that begins as a screenshot is noted, and every request is logged. -/
def step (w : ExtCapture) (e : ExtEvent) : ExtCapture × List ExtAction :=
  let r := w.client.handle e
  (⟨r.1, w.begun e ++ w.screenshots, w.log ++ r.2⟩, r.2)

/-- The client as it is bound, with nothing asked or logged yet. -/
def bound (manager sourceManager shm pipewire : Bool) (handshakeTimeout : ℕ) : ExtCapture :=
  ⟨.bound manager sourceManager shm pipewire handshakeTimeout, [], []⟩

end ExtCapture

/-- The client with its log. -/
def extCaptureMachine : Machine ExtCapture ExtEvent ExtAction where
  step := ExtCapture.step

/-! ### The condition -/

/-- Somebody waits for the capture of the node. -/
def ExtCaptureState.Awaited (s : ExtCaptureState) (node : NodeId) : Prop :=
  ∃ c, s.captures node = some c ∧ c.screenshotReply = true

/-- No buffer is missing when it is needed, and the capture is not stopped. -/
def ActiveExtCapture.CanServe (c : ActiveExtCapture) (shm : Bool) (next : ℕ) : SessionEvent → Prop
  | .done mapped => shm = true → c.stopped = false → c.CanAllocate next mapped
  | .ready _ => c.shmBuffer.isSome
  | .stopCapture => False
  | _ => True

/-- No buffer is missing for a screenshot, and none is stopped or loses its name. -/
def Served (w : ExtCapture) (e : ExtEvent) : Prop :=
  (∀ node, w.client.starts e = some node → ¬ w.client.Awaited node) ∧
    ∀ node event c, e = .session node event → w.client.captures node = some c →
      c.screenshotReply = true → c.CanServe w.client.shm w.client.nextObject event

/-! ### Logs -/

section Logs

variable {session : ℕ} {log log' : List ExtAction}

theorem Idle.unanswered (h : Idle session log) : Unanswered session log :=
  fun a ha => (h a ha).1

theorem Unanswered.append (h : Unanswered session log) (h' : Unanswered session log') :
    Unanswered session (log ++ log') :=
  List.forall_mem_append.mpr ⟨h, h'⟩

theorem Idle.append (h : Idle session log) (h' : Idle session log') : Idle session (log ++ log') :=
  List.forall_mem_append.mpr ⟨h, h'⟩

theorem Answered.append (h : Answered session log) (h' : Idle session log') :
    Answered session (log ++ log') := by
  obtain ⟨before, result, after, rfl, hbefore, hafter⟩ := h
  exact ⟨before, result, after ++ log', by simp, hbefore, hafter.append h'⟩

theorem Answered.prepend (h' : Answered session log') (h : Unanswered session log) :
    Answered session (log ++ log') := by
  obtain ⟨before, result, after, rfl, hbefore, hafter⟩ := h'
  exact ⟨log ++ before, result, after, by simp, h.append hbefore, hafter⟩

/-- What is done for other sessions leaves this one idle. -/
theorem Idle.of_session_ne (h : ∀ a ∈ log, a.session ≠ session) : Idle session log := by
  intro a ha
  have hne := h a ha
  cases a <;> simp_all [ExtAction.IsReply, ExtAction.IsRequest, ExtAction.session]

theorem Answered.not_unanswered (h : Answered session log) : ¬ Unanswered session log := by
  obtain ⟨before, result, after, rfl, -, -⟩ := h
  intro hnone
  exact hnone (.reply session result) (by simp) rfl

end Logs

/-! ### Handlers -/

section Handlers

variable {c c' : ActiveExtCapture} {o : Option ActiveExtCapture} {as : List ExtAction}
  {shm pipewire : Bool} {next : ℕ} {node : NodeId} {mapped : Except String Unit}
  {s : ExtCaptureState} {now : Instant} {nodes : List NodeId} {session : ℕ}

/-- Whoever waits goes on waiting, or has been answered and the capture is over. -/
structure Attended (c : ActiveExtCapture) (o : Option ActiveExtCapture) (as : List ExtAction) :
    Prop where
  kept : ∀ c', o = some c' →
    c'.screenshotReply = c.screenshotReply ∧ Unanswered c.session as
  ended : o = none → c.screenshotReply = true → Answered c.session as

theorem Attended.of_kept (hreply : c'.screenshotReply = c.screenshotReply)
    (h : Unanswered c.session as) : Attended c (some c') as where
  kept := by
    rintro _ ⟨⟩
    exact ⟨hreply, h⟩
  ended hnone := absurd hnone (Option.some_ne_none _)

theorem Attended.of_ended (h : c.screenshotReply = true → Answered c.session as) :
    Attended c none as where
  kept _ hkept := absurd hkept (Option.some_ne_none _).symm
  ended _ := h

/-- A capture that nobody waits for sends nothing. -/
theorem unanswered_reply {result : Except String RawFrame} (h : c.screenshotReply = false) :
    Unanswered session (c.reply result) :=
  ActiveExtCapture.forall_mem_reply.mpr fun hreply => absurd hreply (by rw [h]; decide)

theorem idle_destroyFrame : Idle session c.destroyFrame :=
  ActiveExtCapture.forall_mem_destroyFrame.mpr fun _ _ => ⟨id, id⟩

theorem idle_stopCapture : Idle session c.stopCapture.2 :=
  ActiveExtCapture.forall_mem_stopCapture.mpr ⟨fun _ _ => ⟨id, id⟩, id, id⟩

theorem unanswered_requestNextFrame {frame : ℕ} :
    Unanswered session (c.requestNextFrame frame).2 :=
  ActiveExtCapture.forall_mem_requestNextFrame.mpr fun _ => ⟨id, fun _ _ => id⟩

theorem screenshotReply_requestNextFrame {frame : ℕ} :
    (c.requestNextFrame frame).1.screenshotReply = c.screenshotReply := by
  unfold ActiveExtCapture.requestNextFrame
  split <;> rfl

/-- A reply that is followed by the end of the session is the only one. -/
theorem answered_reply {result : Except String RawFrame} (hbefore : Unanswered c.session as) :
    Answered c.session (as ++ [.reply c.session result, .destroySession c.session]) :=
  ⟨as, result, [.destroySession c.session], rfl, hbefore,
    List.forall_mem_singleton.mpr ⟨id, id⟩⟩

/-- For want of a format or a buffer, whoever waits is told. -/
theorem ActiveExtCapture.reply_mem_allocateAndCapture (hreply : c.screenshotReply = true)
    (hshm : shm = true) (hstopped : c.stopped = false) (h : ¬ c.CanAllocate next mapped) :
    ∃ result, .reply c.session result ∈ (c.allocateAndCapture shm next mapped).2 := by
  cases halloc : c.allocate next mapped with
  | ok c' => exact absurd (allocate_isOk_iff.mp ⟨c', halloc⟩) h
  | error e =>
    refine ⟨.error e, ?_⟩
    rw [allocateAndCapture, halloc, if_neg (by simp [hshm, hstopped])]
    simp [reply, hreply]

theorem Attended.allocateAndCapture (h : c.screenshotReply = true → shm = true →
    c.stopped = false → c.CanAllocate next mapped) :
    Attended c (some (c.allocateAndCapture shm next mapped).1)
      (c.allocateAndCapture shm next mapped).2 := by
  unfold ActiveExtCapture.allocateAndCapture
  split
  · exact .of_kept rfl (List.forall_mem_nil _)
  · next hready =>
    obtain ⟨hshm, hstopped⟩ : shm = true ∧ c.stopped = false := by simpa using hready
    split
    · next e halloc =>
      -- Somebody waiting would have had a buffer.
      have hreply : c.screenshotReply = false := by
        by_contra hreply
        obtain ⟨c', hc'⟩ := ActiveExtCapture.allocate_isOk_iff.mpr
          (h (Bool.eq_true_of_not_eq_false hreply) hshm hstopped)
        rw [hc'] at halloc
        cases halloc
      exact .of_kept hreply.symm (unanswered_reply hreply)
    · next c' halloc =>
      obtain ⟨format, buf, -, -, rfl⟩ := ActiveExtCapture.allocate_eq_ok halloc
      exact .of_kept rfl (ActiveExtCapture.forall_mem_createFrame.mpr ⟨id, fun _ _ => id⟩)

theorem Attended.onFrameReady (h : c.screenshotReply = true → c.shmBuffer.isSome) :
    Attended c (c.onFrameReady pipewire next node).1 (c.onFrameReady pipewire next node).2 := by
  simp only [ActiveExtCapture.onFrameReady]
  split
  · next hbuf =>
    have hreply : c.screenshotReply = false := by
      by_contra hreply
      have hsome := h (Bool.eq_true_of_not_eq_false hreply)
      rw [hbuf] at hsome
      cases hsome
    exact .of_kept hreply.symm (idle_destroyFrame.unanswered.append (unanswered_reply hreply))
  · split
    · exact .of_ended fun _ => answered_reply idle_destroyFrame.unanswered
    · have hqueued : ∀ frame, Unanswered c.session
          (if pipewire = true then [.queueBuffer c.session node frame] else []) := by
        intro frame
        split
        · exact List.forall_mem_singleton.mpr id
        · exact List.forall_mem_nil _
      exact .of_kept screenshotReply_requestNextFrame
        ((idle_destroyFrame.unanswered.append (hqueued _)).append unanswered_requestNextFrame)

theorem Attended.onFrameFailed (reason : UInt32) :
    Attended c (c.onFrameFailed next reason).1 (c.onFrameFailed next reason).2 := by
  simp only [ActiveExtCapture.onFrameFailed]
  split
  · exact .of_ended fun _ => answered_reply idle_destroyFrame.unanswered
  · split
    · exact .of_kept rfl idle_destroyFrame.unanswered
    · exact .of_kept screenshotReply_requestNextFrame
        (idle_destroyFrame.unanswered.append unanswered_requestNextFrame)

theorem Attended.onSessionStopped : Attended c c.onSessionStopped.1 c.onSessionStopped.2 := by
  refine .of_ended fun hreply => ?_
  have hstop : Idle c.session
      ({ c with stopped := true, screenshotReply := false } : ActiveExtCapture).stopCapture.2 :=
    idle_stopCapture
  refine ⟨[], .error "Capture session stopped by compositor", _, ?_, List.forall_mem_nil _, hstop⟩
  rw [ActiveExtCapture.onSessionStopped, ActiveExtCapture.reply, if_pos hreply]
  rfl

/-- What a handler does for a screenshot, if it has the buffers it needs. -/
theorem Attended.handle {e : SessionEvent}
    (h : c.screenshotReply = true → c.CanServe shm next e) :
    Attended c (c.handle shm pipewire next node e).1 (c.handle shm pipewire next node e).2 := by
  cases e with
  | bufferSize width height => exact .of_kept rfl (List.forall_mem_nil _)
  | shmFormat format => exact .of_kept rfl (List.forall_mem_nil _)
  | done mapped =>
    have hdone := Attended.allocateAndCapture
      (c := { c with constraints := { c.constraints with done := true } }) h
    exact ⟨hdone.kept, hdone.ended⟩
  | stopped => exact .onSessionStopped
  | ready frame => exact .onFrameReady h
  | failed frame reason => exact .onFrameFailed reason
  | stopCapture => exact .of_ended fun hreply => absurd (h hreply) id

/-- Without the buffers it needs, a handler answers and leaves the capture in the map, or takes it
out and does not answer. -/
theorem ActiveExtCapture.handle_of_not_canServe {e : SessionEvent}
    (hreply : c.screenshotReply = true) (h : ¬ c.CanServe shm next e) :
    (∃ c' result, (c.handle shm pipewire next node e).1 = some c' ∧
        .reply c.session result ∈ (c.handle shm pipewire next node e).2) ∨
      (c.handle shm pipewire next node e).1 = none ∧
        Unanswered c.session (c.handle shm pipewire next node e).2 := by
  cases e with
  | bufferSize width height => exact absurd trivial h
  | shmFormat format => exact absurd trivial h
  | done mapped =>
    simp only [CanServe, Classical.not_imp] at h
    obtain ⟨hshm, hstopped, hno⟩ := h
    obtain ⟨result, hresult⟩ := reply_mem_allocateAndCapture
      (c := { c with constraints := { c.constraints with done := true } }) hreply hshm hstopped hno
    exact .inl ⟨_, result, rfl, hresult⟩
  | stopped => exact absurd trivial h
  | ready frame =>
    left
    have hbuf : c.shmBuffer = none := Option.not_isSome_iff_eq_none.mp h
    simp only [handle, onFrameReady, hbuf, reply, hreply, if_true]
    exact ⟨_, _, rfl, List.mem_append_right _ (List.mem_singleton_self _)⟩
  | failed frame reason => exact absurd trivial h
  | stopCapture => exact .inr ⟨rfl, idle_stopCapture.unanswered⟩

end Handlers

/-! ### Screenshots along a run -/

section Runs

variable {w : ExtCapture} {e : ExtEvent} {node : NodeId} {c : ActiveExtCapture} {session : ℕ}

/-- Captures that somebody waits for are the screenshots, and these are taken once. -/
structure Accounted (w : ExtCapture) : Prop where
  numbered : Numbered w.client
  awaited : ∀ node c, w.client.captures node = some c →
    (c.screenshotReply = true ↔ c.session ∈ w.screenshots)
  begun : ∀ session ∈ w.screenshots, session < w.client.nextObject
  logged : ∀ a ∈ w.log, a.session < w.client.nextObject
  oneShot : OneShot w

theorem Accounted.bound (manager sourceManager shm pipewire : Bool) (handshakeTimeout : ℕ) :
    Accounted (.bound manager sourceManager shm pipewire handshakeTimeout) where
  numbered := .bound ..
  awaited _ _ hc := by cases hc
  begun := List.forall_mem_nil _
  logged := List.forall_mem_nil _
  oneShot := List.forall_mem_nil _

/-- What a step does for a screenshot that is in the map. -/
def Settles (w : ExtCapture) (e : ExtEvent) (session : ℕ) : Prop :=
  (w.client.handle e).1.Live session ∧ Unanswered session (w.client.handle e).2 ∨
    ¬ (w.client.handle e).1.Live session ∧ Answered session (w.client.handle e).2

/-- A capture stays, and nothing is done for it, where a step is about other sessions. -/
theorem Settles.of_other (hc : (w.client.handle e).1.captures node = some c)
    (h : ∀ a ∈ (w.client.handle e).2, a.session ≠ c.session) : Settles w e c.session :=
  .inl ⟨⟨node, c, hc, rfl⟩, (Idle.of_session_ne h).unanswered⟩

/-- A session is out of the map if its capture is. -/
theorem Accounted.not_live (h : Accounted w) (hc : w.client.captures node = some c)
    (hout : ∀ c', (w.client.handle e).1.captures node = some c' → c'.session ≠ c.session) :
    ¬ (w.client.handle e).1.Live c.session := by
  rintro ⟨node', c', hc', hsession⟩
  rcases ExtCaptureState.captures_handle hc' with ⟨d, hd, hd'⟩ | ⟨-, hnew⟩
  · have hnode := h.numbered.unique node' node d c hd hc (hd'.symm.trans hsession)
    subst hnode
    exact hout c' hc' hsession
  · have := h.numbered.lt node c hc
    omega

/-- The check tells those who wait for the captures it finds, and nobody else. -/
theorem Accounted.idle_reportTimeouts (h : Accounted w) {nodes : List NodeId} {now : Instant}
    (hc : w.client.captures node = some c) (hnodup : nodes.Nodup) (hnode : node ∉ nodes) :
    Idle c.session (w.client.reportTimeouts now nodes).2 := by
  refine Idle.of_session_ne fun a ha hsession => ?_
  obtain ⟨node', hnode', c', result, hc', rfl⟩ := ExtCaptureState.mem_reportTimeouts hnodup ha
  have hsame := h.numbered.unique node' node c' c hc' hc hsession
  exact hnode (hsame ▸ hnode')

theorem idle_stopCaptures {s : ExtCaptureState} {nodes : List NodeId} :
    Idle session (s.stopCaptures nodes).2 := by
  intro a ha
  obtain ⟨-, ⟨frame, hkind⟩ | hkind⟩ := ExtCaptureState.mem_stopCaptures ha
  · rw [hkind]
    exact ⟨id, id⟩
  · rw [hkind]
    exact ⟨id, id⟩

/-- Whoever waits for a capture that is overdue is told once. -/
theorem Accounted.answered_reportTimeouts (h : Accounted w) {nodes : List NodeId} {now : Instant}
    (hc : w.client.captures node = some c) (hreply : c.screenshotReply = true)
    (hnodup : nodes.Nodup) (hnode : node ∈ nodes) :
    Answered c.session (w.client.reportTimeouts now nodes).2 := by
  obtain ⟨before, after, rfl⟩ := List.append_of_mem hnode
  obtain ⟨hbefore, hafter, hdisjoint⟩ := List.nodup_append.mp hnodup
  obtain ⟨hnot, hafter⟩ := List.nodup_cons.mp hafter
  have hnot' : node ∉ before := fun hmem => hdisjoint node hmem node (List.mem_cons_self ..) rfl
  have hidle : Idle c.session (w.client.reportTimeouts now before).2 :=
    h.idle_reportTimeouts hc hbefore hnot'
  have hidle' : Idle c.session (w.client.reportTimeouts now after).2 :=
    h.idle_reportTimeouts hc hafter hnot
  obtain ⟨result, hresult⟩ : ∃ result, (c.reportTimeout now).2 = [.reply c.session result] :=
    ⟨_, if_pos hreply⟩
  rw [ExtCaptureState.reportTimeouts_actions hbefore] at hidle
  rw [ExtCaptureState.reportTimeouts_actions hafter] at hidle'
  rw [ExtCaptureState.reportTimeouts_actions hnodup, List.flatMap_append, List.flatMap_cons, hc,
    Option.elim_some, hresult]
  exact ⟨_, result, _, rfl, hidle.unanswered, hidle'⟩

/-- A timeout answers whoever waits, and takes the capture out of the map. -/
theorem Accounted.settles_checkHandshakeTimeouts (h : Accounted w) {walk : Walk} {now : Instant}
    (hc : w.client.captures node = some c) (hreply : c.screenshotReply = true) :
    Settles w (.checkHandshakeTimeouts walk now) c.session := by
  have hnodup : (w.client.overdue walk now).Nodup := ExtCaptureState.overdue_nodup walk
  have hcaptures : (w.client.handle (.checkHandshakeTimeouts walk now)).1.captures node = _ :=
    ExtCaptureState.captures_checkHandshakeTimeouts walk
  by_cases hnode : node ∈ w.client.overdue walk now
  · rw [if_pos hnode] at hcaptures
    right
    constructor
    · refine h.not_live hc fun c' hc' => ?_
      rw [hcaptures] at hc'
      cases hc'
    · exact (h.answered_reportTimeouts hc hreply hnodup hnode).append idle_stopCaptures
  · rw [if_neg hnode, hc] at hcaptures
    exact .inl ⟨⟨node, c, hcaptures, rfl⟩,
      ((h.idle_reportTimeouts hc hnodup hnode).append idle_stopCaptures).unanswered⟩

/-- The events of a screenshot's own session. -/
theorem Accounted.settles_session (h : Accounted w) {event : SessionEvent}
    (hc : w.client.captures node = some c) (hreply : c.screenshotReply = true)
    (hserve : c.CanServe w.client.shm w.client.nextObject event) :
    Settles w (.session node event) c.session := by
  obtain ⟨hcaptures, hactions⟩ := ExtCaptureState.handle_session hc
  have hattended : Attended c (c.handle w.client.shm w.client.pipewire w.client.nextObject node
      event).1 _ := .handle fun _ => hserve
  rw [← hactions] at hattended
  have hself := congrFun hcaptures node
  rw [Function.update_self] at hself
  cases hnext : (c.handle w.client.shm w.client.pipewire w.client.nextObject node event).1 with
  | some c' =>
    exact .inl ⟨⟨node, c', hself.trans hnext, ActiveExtCapture.session_handle hnext⟩,
      (hattended.kept c' hnext).2⟩
  | none =>
    refine .inr ⟨h.not_live hc fun c' hc' => ?_, hattended.ended hnext hreply⟩
    rw [hself, hnext] at hc'
    cases hc'

/-- Every step either leaves a screenshot in the map and unanswered, or ends it with an answer. -/
theorem Accounted.settles (h : Accounted w) (hserved : Served w e)
    (hc : w.client.captures node = some c) (hreply : c.screenshotReply = true) :
    Settles w e c.session := by
  have hlt := h.numbered.lt node c hc
  cases hstarts : w.client.starts e with
  | some first =>
    obtain ⟨output, cursor, now, hcaptures, hactions⟩ := ExtCaptureState.handle_of_starts hstarts
    have hne : node ≠ first := by
      rintro rfl
      exact hserved.1 node hstarts ⟨c, hc, hreply⟩
    refine .of_other (by rw [hcaptures, Function.update_of_ne hne, hc]) ?_
    rw [hactions]
    exact List.forall_mem_singleton.mpr hlt.ne'
  | none =>
  cases e with
  | startCapture first output cursor now =>
    have hunbound := ExtCaptureState.dispatch_startCapture_of_unbound hstarts
    refine .of_other (by rw [ExtCaptureState.handle, hunbound]; exact hc) ?_
    rw [ExtCaptureState.handle, hunbound]
    exact List.forall_mem_nil _
  | startScreenshot output now =>
    obtain ⟨e, hunbound⟩ := ExtCaptureState.dispatch_startScreenshot_of_unbound hstarts
    refine .of_other (by rw [ExtCaptureState.handle, hunbound]; exact hc) ?_
    rw [ExtCaptureState.handle, hunbound]
    exact List.forall_mem_singleton.mpr hlt.ne'
  | checkHandshakeTimeouts walk now => exact h.settles_checkHandshakeTimeouts hc hreply
  | session first event =>
    cases hfirst : w.client.captures first with
    | none =>
      obtain ⟨hcaptures, hactions⟩ := ExtCaptureState.handle_session_of_none hfirst
      refine .of_other (by rw [hcaptures, hc]) ?_
      rw [hactions]
      exact List.forall_mem_nil _
    | some d =>
      obtain ⟨hcaptures, hactions⟩ := ExtCaptureState.handle_session hfirst
      by_cases hnode : node = first
      · subst hnode
        rw [hc] at hfirst
        cases hfirst
        exact h.settles_session hc hreply (hserved.2 node event c rfl hc hreply)
      · refine .of_other (by rw [hcaptures, Function.update_of_ne hnode, hc]) ?_
        rw [hactions]
        intro a ha hsession
        have hd := ActiveExtCapture.session_of_mem_handle event a ha
        exact hnode (h.numbered.unique node first c d hc hfirst (hsession.symm.trans hd))

/-- A screenshot that is over stays over. -/
theorem Accounted.idle_of_not_live (h : Accounted w) (hmem : session ∈ w.screenshots)
    (hout : ¬ w.client.Live session) :
    ¬ (w.client.handle e).1.Live session ∧ Idle session (w.client.handle e).2 := by
  have hlt := h.begun session hmem
  constructor
  · intro hlive
    rcases ExtCaptureState.live_handle hlive with hlive | hnew
    · exact hout hlive
    · omega
  · refine Idle.of_session_ne fun a ha hsession => ?_
    rcases ExtCaptureState.session_of_mem_handle e a ha with hlive | hnew
    · exact hout (hsession ▸ hlive)
    · omega

theorem Accounted.oneShot_step (h : Accounted w) (hserved : Served w e) :
    OneShot (w.step e).1 := by
  intro session hmem
  rcases List.mem_append.mp hmem with hnew | hold
  · -- A screenshot that has just begun is in the map, and its number is new to the log.
    unfold ExtCapture.begun at hnew
    split at hnew
    · next hbegun =>
      obtain ⟨hsome, -⟩ := Bool.and_eq_true_iff.mp hbegun
      obtain ⟨node, hstarts⟩ := Option.isSome_iff_exists.mp hsome
      obtain ⟨output, cursor, now, hcaptures, hactions⟩ := ExtCaptureState.handle_of_starts hstarts
      have hsession := List.mem_singleton.mp hnew
      subst hsession
      refine .inl ⟨⟨node, _, by rw [ExtCapture.step, hcaptures, Function.update_self], rfl⟩, ?_⟩
      refine (Idle.of_session_ne fun a ha => (h.logged a ha).ne).unanswered.append ?_
      rw [hactions]
      exact List.forall_mem_singleton.mpr id
    · exact absurd hnew List.not_mem_nil
  · rcases h.oneShot session hold with ⟨⟨node, c, hc, rfl⟩, hlog⟩ | ⟨hout, hlog⟩
    · have hreply := (h.awaited node c hc).mpr hold
      rcases h.settles hserved hc hreply with ⟨hlive, has⟩ | ⟨hdead, has⟩
      · exact .inl ⟨hlive, hlog.append has⟩
      · exact .inr ⟨hdead, has.prepend hlog⟩
    · obtain ⟨hdead, has⟩ := h.idle_of_not_live (e := e) hold hout
      exact .inr ⟨hdead, hlog.append has⟩

theorem mem_begun {w : ExtCapture} {e : ExtEvent} {session : ℕ} (h : session ∈ w.begun e) :
    session = w.client.nextObject := by
  unfold ExtCapture.begun at h
  split at h
  · exact List.mem_singleton.mp h
  · exact absurd h List.not_mem_nil

/-- No step but the first of a capture changes whether somebody waits for it. -/
theorem screenshotReply_handle (hserved : Served w e) (hstarts : w.client.starts e = none)
    {c' : ActiveExtCapture} (hc' : (w.client.handle e).1.captures node = some c') :
    ∃ c, w.client.captures node = some c ∧ c'.session = c.session ∧
      c'.screenshotReply = c.screenshotReply := by
  cases e with
  | startCapture first output cursor now =>
    rw [ExtCaptureState.handle, ExtCaptureState.dispatch_startCapture_of_unbound hstarts] at hc'
    exact ⟨c', hc', rfl, rfl⟩
  | startScreenshot output now =>
    obtain ⟨e, hunbound⟩ := ExtCaptureState.dispatch_startScreenshot_of_unbound hstarts
    rw [ExtCaptureState.handle, hunbound] at hc'
    exact ⟨c', hc', rfl, rfl⟩
  | checkHandshakeTimeouts walk now =>
    change (w.client.checkHandshakeTimeouts walk now).1.captures node = some c' at hc'
    rw [ExtCaptureState.captures_checkHandshakeTimeouts] at hc'
    split at hc'
    · cases hc'
    · exact ⟨c', hc', rfl, rfl⟩
  | session first event =>
    cases hfirst : w.client.captures first with
    | none =>
      rw [(ExtCaptureState.handle_session_of_none hfirst).1] at hc'
      exact ⟨c', hc', rfl, rfl⟩
    | some c =>
      rw [(ExtCaptureState.handle_session hfirst).1] at hc'
      by_cases hnode : node = first
      · subst hnode
        rw [Function.update_self] at hc'
        have hattended : Attended c
            (c.handle w.client.shm w.client.pipewire w.client.nextObject node event).1 _ :=
          .handle fun hreply => hserved.2 node event c rfl hfirst hreply
        exact ⟨c, hfirst, ActiveExtCapture.session_handle hc', (hattended.kept c' hc').1⟩
      · rw [Function.update_of_ne hnode] at hc'
        exact ⟨c', hc', rfl, rfl⟩

/-- After a step the captures that somebody waits for are still the screenshots. -/
theorem Accounted.awaited_step (h : Accounted w) (hserved : Served w e) {c' : ActiveExtCapture}
    (hc' : (w.step e).1.client.captures node = some c') :
    c'.screenshotReply = true ↔ c'.session ∈ w.begun e ++ w.screenshots := by
  cases hstarts : w.client.starts e with
  | none =>
    obtain ⟨c, hc, hsession, hreply⟩ := screenshotReply_handle hserved hstarts hc'
    rw [ExtCapture.begun, hstarts, hsession, hreply]
    exact h.awaited node c hc
  | some first =>
    obtain ⟨output, cursor, now, hcaptures, -⟩ := ExtCaptureState.handle_of_starts hstarts
    rw [ExtCapture.step, hcaptures] at hc'
    by_cases hnode : node = first
    · subst hnode
      rw [Function.update_self] at hc'
      cases hc'
      have hfresh : w.client.nextObject ∉ w.screenshots := fun hmem =>
        (h.begun _ hmem).ne rfl
      rw [ExtCapture.begun, hstarts]
      cases hkind : ExtCaptureState.isScreenshot e <;>
        simp [ActiveExtCapture.start, hfresh]
    · rw [Function.update_of_ne hnode] at hc'
      have hlt := h.numbered.lt node c' hc'
      rw [h.awaited node c' hc', List.mem_append]
      exact ⟨.inr, fun hmem => hmem.resolve_left fun hnew => hlt.ne (mem_begun hnew)⟩

theorem Accounted.step (h : Accounted w) (hserved : Served w e) : Accounted (w.step e).1 where
  numbered := h.numbered.handle e
  awaited _ _ := h.awaited_step hserved
  begun session hmem := by
    change session < w.client.nextObject + 2
    rcases List.mem_append.mp hmem with hnew | hold
    · have := mem_begun hnew
      omega
    · have := h.begun session hold
      omega
  logged a ha := by
    change a.session < w.client.nextObject + 2
    rcases List.mem_append.mp ha with ha | ha
    · have := h.logged a ha
      omega
    · rcases ExtCaptureState.session_of_mem_handle e a ha with ⟨node, c, hc, hsession⟩ | hnew
      · have := h.numbered.lt node c hc
        omega
      · omega
  oneShot := h.oneShot_step hserved

/-- A screenshot that has been answered and is in the map has not been taken once. -/
theorem not_oneShot_of_lingers {result : Except String RawFrame}
    (hmem : session ∈ w.screenshots) (hlive : w.client.Live session)
    (hreply : .reply session result ∈ w.log) : ¬ OneShot w := by
  intro h
  rcases h session hmem with ⟨-, hlog⟩ | ⟨hdead, -⟩
  · exact hlog _ hreply rfl
  · exact hdead hlive

/-- Nor has one that is gone and was not answered. -/
theorem not_oneShot_of_dropped (hmem : session ∈ w.screenshots)
    (hdead : ¬ w.client.Live session) (hlog : Unanswered session w.log) : ¬ OneShot w := by
  intro h
  rcases h session hmem with ⟨hlive, -⟩ | ⟨-, hanswered⟩
  · exact hdead hlive
  · exact hanswered.not_unanswered hlog

/-- The log says nothing to whoever waits for a capture that is in the map. -/
theorem Accounted.unanswered (h : Accounted w) (hc : w.client.captures node = some c)
    (hmem : c.session ∈ w.screenshots) : Unanswered c.session w.log := by
  rcases h.oneShot c.session hmem with ⟨-, hlog⟩ | ⟨hdead, -⟩
  · exact hlog
  · exact absurd ⟨node, c, hc, rfl⟩ hdead

/-- A capture that takes the name of a screenshot leaves it without an answer. -/
theorem Accounted.not_oneShot_of_starts (h : Accounted w) (hstarts : w.client.starts e = some node)
    (hc : w.client.captures node = some c) (hreply : c.screenshotReply = true) :
    ¬ OneShot (w.step e).1 := by
  obtain ⟨output, cursor, now, hcaptures, hactions⟩ := ExtCaptureState.handle_of_starts hstarts
  have hmem := (h.awaited node c hc).mp hreply
  have hlt := h.numbered.lt node c hc
  refine not_oneShot_of_dropped (List.mem_append_right _ hmem) (h.not_live hc ?_)
    ((h.unanswered hc hmem).append ?_)
  · intro c' hc'
    rw [hcaptures, Function.update_self] at hc'
    cases hc'
    exact hlt.ne'
  · rw [hactions]
    exact List.forall_mem_singleton.mpr id

/-- Nor is a screenshot taken once if a buffer is missing for it, or if it is stopped. -/
theorem Accounted.not_oneShot_of_not_canServe (h : Accounted w) {event : SessionEvent}
    (hc : w.client.captures node = some c) (hreply : c.screenshotReply = true)
    (hserve : ¬ c.CanServe w.client.shm w.client.nextObject event) :
    ¬ OneShot (w.step (.session node event)).1 := by
  obtain ⟨hcaptures, hactions⟩ := ExtCaptureState.handle_session hc
  have hmem := (h.awaited node c hc).mp hreply
  have hself := congrFun hcaptures node
  rw [Function.update_self] at hself
  rcases c.handle_of_not_canServe hreply hserve with ⟨c', result, hc', hresult⟩ | ⟨hnone, has⟩
  · rw [← hactions] at hresult
    exact not_oneShot_of_lingers (List.mem_append_right _ hmem)
      ⟨node, c', hself.trans hc', ActiveExtCapture.session_handle hc'⟩
      (List.mem_append_right _ hresult)
  · refine not_oneShot_of_dropped (List.mem_append_right _ hmem) (h.not_live hc ?_)
      ((h.unanswered hc hmem).append ?_)
    · intro c' hc'
      rw [hself, hnone] at hc'
      cases hc'
    · rw [hactions]
      exact has

theorem Accounted.not_oneShot (h : Accounted w) (hserved : ¬ Served w e) :
    ¬ OneShot (w.step e).1 := by
  rcases not_and_or.mp hserved with hserved | hserved
  · simp only [not_forall, not_not] at hserved
    obtain ⟨node, hstarts, c, hc, hreply⟩ := hserved
    exact h.not_oneShot_of_starts hstarts hc hreply
  · simp only [not_forall] at hserved
    obtain ⟨node, event, c, rfl, hc, hreply, hserve⟩ := hserved
    exact h.not_oneShot_of_not_canServe hc hreply hserve

end Runs

/-- **Screenshots are taken once, exactly while none of them wants for a buffer, is stopped, or
loses its name.** In every state of every run each screenshot is either in the map and unanswered,
or gone and answered, once and with nothing asked for afterwards, if and only if every step of the
run meets `Served`. -/
theorem oneShot_iff_served (manager sourceManager shm pipewire : Bool) (handshakeTimeout : ℕ)
    (events : List ExtEvent) :
    extCaptureMachine.Always OneShot
        (.bound manager sourceManager shm pipewire handshakeTimeout) events ↔
      extCaptureMachine.Along Served
        (.bound manager sourceManager shm pipewire handshakeTimeout) events :=
  Machine.always_iff_along (I := Accounted) (fun _ _ h hserved => h.step hserved)
    (fun _ h => h.oneShot) (fun _ _ h hserved => h.not_oneShot hserved) (.bound ..)

/-- A screenshot of an output with no format in shared memory: whoever waits is told so, and the
capture stays. -/
theorem screenshot_lingers :
    ¬ extCaptureMachine.Always OneShot (.bound true true true true 0)
      [.startScreenshot 0 0, .session 0xA0000000 (.bufferSize 640 480),
        .session 0xA0000000 (.done (.ok ()))] := by
  rintro ⟨-, -, -, h⟩
  have htold : ExtAction.reply 0 (.error "No suitable SHM format") ∈
      (extCaptureMachine.exec (.bound true true true true 0)
        [.startScreenshot 0 0, .session 0xA0000000 (.bufferSize 640 480),
          .session 0xA0000000 (.done (.ok ()))]).log := by decide
  exact not_oneShot_of_lingers (by decide) ⟨0xA0000000, _, rfl, rfl⟩ htold h

end Wayland

end Cheirizo
