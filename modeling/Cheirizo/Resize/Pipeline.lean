import Cheirizo.Resize.Coordinator

/-!
# The coordinator between compositor and client

The display pipeline drops every captured frame whose geometry differs from the one advertised to
the client, so a coordinator at rest must leave the compositor at the advertised size, and it must
not forget what the client asked for last. Neither quantity is a field of `ResizeCoordinator`:
this module runs the coordinator next to the compositor it drives and the client it serves, and
asks along which runs the two laws hold.

## Where the laws break

Both break at a `request` for the size that is already advertised.

* `take_ready` treats such a request as nothing to do, although the command it supersedes may have
  switched the compositor already; and `request` clears the retry of a failed transaction for it.
* `request` compares with `applied` while a *different* size is committing, and so drops it.

## Main results

* `agreement_iff` — at rest the compositor stands at the advertised size, throughout a run, exactly
  when no step of it throws away the last thing scheduled while the two differ
* `agreement_of_no_recall` — no request for the advertised size that finds the compositor switched
  is enough for it
* `disagreement_of_recall` — such a request can always be followed into a disagreement at rest
* `latest_request_wins_iff` — the newest size is kept throughout a run exactly when no request for
  the advertised size arrives during a commit
-/

namespace Cheirizo

/-- The coordinator together with what it is about: the size the compositor was last switched to
and the size the client asked for last. -/
structure DisplayPipeline where
  resize : ResizeCoordinator
  compositor : ResizeRequest
  requested : ResizeRequest
  deriving DecidableEq, Repr

/-- The compositor switches to every size `take_ready` hands out, and to no other. -/
def switchedTo (current : ResizeRequest) : ResizeOp → ResizeResult → ResizeRequest
  | .takeReady, .size (some r) => r
  | _, _ => current

/-- The client's last word. -/
def lastRequested (current : ResizeRequest) : ResizeOp → ResizeRequest
  | .request r => r
  | _ => current

namespace DisplayPipeline

/-- Everyone stands at the initial size. -/
def new (width height : UInt16) : DisplayPipeline where
  resize := .new width height
  compositor := ⟨width, height⟩
  requested := ⟨width, height⟩

/-- The operation is carried out, and the other two take notice of it. -/
def step (p : DisplayPipeline) (e : ResizeOp × Instant) : DisplayPipeline :=
  { resize := (p.resize.apply e.2 e.1).2
    compositor := switchedTo p.compositor e.1 (p.resize.apply e.2 e.1).1
    requested := lastRequested p.requested e.1 }

end DisplayPipeline

/-- Timed operations as inputs, results as outputs. -/
def displayMachine : Machine DisplayPipeline (ResizeOp × Instant) ResizeResult where
  step p e := (p.step e, [(p.resize.apply e.2 e.1).1])

@[simp] theorem displayMachine_step (p : DisplayPipeline) (e : ResizeOp × Instant) :
    (displayMachine.step p e).1 = p.step e := rfl

/-- The operations are called at non-decreasing times. -/
def ClockMonotone (es : List (ResizeOp × Instant)) : Prop :=
  (es.map Prod.snd).Pairwise (· ≤ ·)

instance (es : List (ResizeOp × Instant)) : Decidable (ClockMonotone es) :=
  inferInstanceAs (Decidable (List.Pairwise _ _))

namespace DisplayPipeline

variable {p : DisplayPipeline} {e : ResizeOp × Instant}

/-! ### Compositor and client agree at rest -/

/-- No transaction is scheduled or under way. -/
def Quiescent (p : DisplayPipeline) : Prop :=
  p.resize.pending = none ∧ p.resize.inFlight = none ∧ p.resize.committing = none

instance (p : DisplayPipeline) : Decidable p.Quiescent := inferInstanceAs (Decidable (_ ∧ _))

/-- The step throws away the last thing that is scheduled while the compositor stands at another
size than the advertised one: a request for the advertised size with nothing in flight, or a
`take_ready` past the retry guard that finds the advertised size pending. -/
def Abandons (p : DisplayPipeline) (e : ResizeOp × Instant) : Prop :=
  p.compositor ≠ p.resize.applied ∧ p.resize.committing = none ∧
    ((e.1 = .request p.resize.applied ∧ p.resize.inFlight = none) ∨
      (e.1 = .takeReady ∧ p.resize.pending = some p.resize.applied ∧
        p.resize.held e.2 = false))

instance (p : DisplayPipeline) (e : ResizeOp × Instant) : Decidable (p.Abandons e) :=
  inferInstanceAs (Decidable (_ ∧ _))

/-- The invariant of runs in which nothing is abandoned: whatever is in flight or committing is
where the compositor stands, and a compositor away from the advertised size has a transaction to
show for it. -/
structure Excused (p : DisplayPipeline) : Prop where
  wellFormed : p.resize.WellFormed
  inFlight : ∀ r, p.resize.inFlight = some r → p.compositor = r
  committing : ∀ r, p.resize.committing = some r → p.compositor = r
  scheduled : p.compositor ≠ p.resize.applied → ¬ p.Quiescent

theorem excused_new (width height : UInt16) : (new width height).Excused where
  wellFormed := ResizeCoordinator.wellFormed_new width height
  inFlight := by simp [new, ResizeCoordinator.new]
  committing := by simp [new, ResizeCoordinator.new]
  scheduled h := absurd rfl h

theorem switchedTo_of_no_size {s : ResizeRequest} {op : ResizeOp} {res : ResizeResult}
    (h : ∀ r, res ≠ .size (some r)) : switchedTo s op res = s := by
  unfold switchedTo
  split
  · exact absurd rfl (h _)
  · rfl

theorem switchedTo_of_ne_takeReady {s : ResizeRequest} {op : ResizeOp} {res : ResizeResult}
    (h : op ≠ .takeReady) : switchedTo s op res = s := by
  unfold switchedTo
  split
  · exact absurd rfl h
  · rfl

open ResizeCoordinator (Transition)

theorem Excused.transition {now : Instant} {op : ResizeOp} {c c' : ResizeCoordinator}
    {s q : ResizeRequest} {res : ResizeResult} (h : Excused ⟨c, s, q⟩)
    (he : ¬ Abandons ⟨c, s, q⟩ (op, now)) (ht : Transition now op c res c') :
    Excused ⟨c', switchedTo s op res, lastRequested q op⟩ := by
  obtain ⟨hwf, hf, hc, hs⟩ := h
  have hwf' := hwf.transition ht
  simp only [Quiescent, Abandons] at hf hc hs he
  cases ht with
  | idle hop hres =>
    rw [switchedTo_of_no_size hres]
    exact ⟨hwf', hf, hc, hs⟩
  | requestActive h =>
    refine ⟨hwf', hf, hc, fun _ => ?_⟩
    simp only [Quiescent]
    grind
  | requestApplied hf' ha hc' =>
    refine ⟨hwf', hf, hc, fun hne hrest => ?_⟩
    exact he ⟨hne, hrest.2.2, .inl ⟨by rw [ha], hf'⟩⟩
  | requestPending => exact ⟨hwf', hf, hc, fun _ => by simp [Quiescent]⟩
  | dropHeld hc' hf' hp' hg => exact ⟨hwf', by simp, hc, fun _ => by simp [Quiescent, hp']⟩
  | discard hc' hp' hg hf'' hp'' hcm ha =>
    refine ⟨hwf', by simp [hf''], by simp [hcm], fun hne _ => ?_⟩
    exact he ⟨fun heq => hne (heq.trans ha.symm), hc', .inr ⟨rfl, hp', hg⟩⟩
  | handOut hc' hp' ha hg =>
    exact ⟨hwf', by simp [switchedTo], by simp [hc'], fun _ => by simp [Quiescent]⟩
  | commandSucceeded => exact ⟨hwf', hf, hc, hs⟩
  | failSuperseded hop hf' hp' =>
    rw [switchedTo_of_ne_takeReady (by grind)]
    exact ⟨hwf', by simp, hc, fun _ => by simp [Quiescent, hp']⟩
  | failRetry hop hf' hp' =>
    rw [switchedTo_of_ne_takeReady (by grind)]
    exact ⟨hwf', by simp, hc, fun _ => by simp [Quiescent]⟩
  | commitBegun hf' hp' =>
    exact ⟨hwf', by simp, by simpa [switchedTo] using hf _ hf', fun _ => by simp [Quiescent]⟩
  | commitSuperseded hc' hp' =>
    exact ⟨hwf', hf, by simp, fun _ => by simp [Quiescent, hp']⟩
  | commitRetry hc' hp' =>
    exact ⟨hwf', hf, by simp, fun _ => by simp [Quiescent]⟩
  | committed hc' =>
    have hfree : c.inFlight = none := hwf.exclusive (by simp [hc'])
    exact ⟨hwf', by simp [hfree], by simp, fun hne => absurd (hc _ hc') hne⟩

theorem Excused.step (h : p.Excused) (he : ¬ p.Abandons e) : (p.step e).Excused :=
  h.transition he (ResizeCoordinator.transition_apply p.resize e.2 e.1)

/-- What is thrown away was the last thing scheduled. -/
theorem Abandons.disagrees (he : p.Abandons e) :
    (p.step e).Quiescent ∧ (p.step e).compositor ≠ (p.step e).resize.applied := by
  obtain ⟨c, s, q⟩ := p
  obtain ⟨op, now⟩ := e
  obtain ⟨hne, hc, ⟨hop, hf⟩ | ⟨hop, hp, hg⟩⟩ := he
  · obtain rfl : op = .request c.applied := hop
    have hf : c.inFlight = none := hf
    have hc : c.committing = none := hc
    have hreq : c.request c.applied = { c with pending := none } := by
      simp [ResizeCoordinator.request, hf, hc]
    simpa [Quiescent, step, ResizeCoordinator.apply, switchedTo, hreq, hf, hc] using hne
  · obtain rfl : op = .takeReady := hop
    have hc : c.committing = none := hc
    have hp : c.pending = some c.applied := hp
    have hg : c.retryNotBefore.any (fun d => decide (now < d)) = false := hg
    suffices hrest : ∃ x, c.takeReady now =
        (none, { c with pending := none, inFlight := none, realizationDeadline := x }) by
      obtain ⟨x, hx⟩ := hrest
      simpa [Quiescent, step, ResizeCoordinator.apply, switchedTo, hx, hc] using hne
    cases hf : c.inFlight with
    | none =>
      exact ⟨c.realizationDeadline, by
        simp [ResizeCoordinator.takeReady, ResizeCoordinator.takePending, ResizeCoordinator.held,
          hf, hc, hp, hg]⟩
    | some x =>
      exact ⟨none, by
        simp [ResizeCoordinator.takeReady, ResizeCoordinator.takePending, ResizeCoordinator.held,
          hf, hc, hp, hg]⟩

/-- **Agreement, exactly.** The compositor stands at the advertised size whenever the coordinator is
at rest during a run if and only if no step of the run abandons a compositor that stands at
another one. -/
theorem agreement_iff (width height : UInt16) (es : List (ResizeOp × Instant)) :
    displayMachine.Always (fun p => p.Quiescent → p.compositor = p.resize.applied)
        (new width height) es ↔
      displayMachine.Along (fun p e => ¬ p.Abandons e) (new width height) es := by
  refine Machine.always_iff_along (I := Excused) (fun _ _ h he => h.step he) ?_ ?_
    (excused_new width height)
  · intro p h hrest
    by_contra hne
    exact h.scheduled hne hrest
  · intro p e _ he hagree
    obtain ⟨hrest, hne⟩ := (not_not.mp he).disagrees
    exact hne (hagree hrest)

/-! ### Requests for the advertised size -/

/-- The step asks for the advertised size while the compositor stands at another one and no commit
is about to make that other one the advertised size. -/
def Recalls (p : DisplayPipeline) (e : ResizeOp × Instant) : Prop :=
  e.1 = .request p.resize.applied ∧ p.resize.committing = none ∧
    p.compositor ≠ p.resize.applied

instance (p : DisplayPipeline) (e : ResizeOp × Instant) : Decidable (p.Recalls e) :=
  inferInstanceAs (Decidable (_ ∧ _))

/-- The invariant of runs without recalls: the advertised size is never scheduled. -/
structure Tracked (p : DisplayPipeline) : Prop extends Excused p where
  pending_ne : p.resize.pending ≠ some p.resize.applied

theorem tracked_new (width height : UInt16) : (new width height).Tracked where
  toExcused := excused_new width height
  pending_ne := by simp [new, ResizeCoordinator.new]

/-- Only a recall can throw away what is scheduled, for nothing else schedules the advertised
size. -/
theorem Tracked.not_abandons (h : p.Tracked) (he : ¬ p.Recalls e) : ¬ p.Abandons e := by
  rintro ⟨hne, hc, ⟨hop, -⟩ | ⟨-, hp, -⟩⟩
  · exact he ⟨hop, hc, hne⟩
  · exact h.pending_ne hp

theorem Tracked.pending_transition {now : Instant} {op : ResizeOp} {c c' : ResizeCoordinator}
    {s q : ResizeRequest} {res : ResizeResult} (h : Tracked ⟨c, s, q⟩)
    (he : ¬ Recalls ⟨c, s, q⟩ (op, now)) (ht : Transition now op c res c') :
    c'.pending ≠ some c'.applied := by
  obtain ⟨⟨hwf, hf, -, -⟩, hp⟩ := h
  simp only [Recalls] at hf hp he
  cases ht with
  | idle | dropHeld | commandSucceeded | failSuperseded | commitSuperseded => exact hp
  | requestActive | requestApplied | handOut => simp
  | discard hc' hp' => exact absurd hp' hp
  | commitBegun hf' hp' => simp [hp']
  | @requestPending _ r hf' hc' ha =>
    intro heq
    -- Asking for the advertised size with a command in flight is the recall excluded above.
    have hr : r = c.applied := Option.some.inj heq
    subst hr
    obtain ⟨x, hx⟩ := Option.ne_none_iff_exists'.mp fun hn => ha hn rfl
    have hcn : c.committing = none := by
      by_contra hcn
      exact absurd (hwf.exclusive hcn) (by simp [hx])
    exact he ⟨rfl, hcn, hf x hx ▸ hwf.inFlight_ne x hx⟩
  | failRetry hop hf' hp' => simpa using hwf.inFlight_ne _ hf'
  | commitRetry hc' hp' => simpa using hwf.committing_ne _ hc'
  | committed hc' => simpa using hwf.pending_ne _ hc'

theorem Tracked.step (h : p.Tracked) (he : ¬ p.Recalls e) : (p.step e).Tracked :=
  have ht := ResizeCoordinator.transition_apply p.resize e.2 e.1
  ⟨h.toExcused.transition (h.not_abandons he) ht, h.pending_transition he ht⟩

/-- **Agreement.** In every run in which no request recalls the advertised size from a switched
compositor, the compositor stands at the advertised size whenever the coordinator is at rest. -/
theorem agreement_of_no_recall (width height : UInt16) (es : List (ResizeOp × Instant))
    (hes : displayMachine.Along (fun p e => ¬ p.Recalls e) (new width height) es)
    (hq : (displayMachine.exec (new width height) es).Quiescent) :
    (displayMachine.exec (new width height) es).compositor =
      (displayMachine.exec (new width height) es).resize.applied := by
  have ht : (displayMachine.exec (new width height) es).Tracked :=
    Machine.exec_invariant (fun _ _ h he => h.step he) (tracked_new width height) hes
  by_contra hne
  exact ht.scheduled hne hq

/-- The client asks for a new size, the compositor is switched to it and confirmed. -/
example :
    (displayMachine.exec (new 1280 720)
        [(.request ⟨864, 634⟩, 0), (.takeReady, 0), (.markCommandSucceeded ⟨864, 634⟩, 1),
          (.beginCommit ⟨864, 634⟩, 2), (.markApplied ⟨864, 634⟩, 3)]).compositor =
      (displayMachine.exec (new 1280 720)
        [(.request ⟨864, 634⟩, 0), (.takeReady, 0), (.markCommandSucceeded ⟨864, 634⟩, 1),
          (.beginCommit ⟨864, 634⟩, 2), (.markApplied ⟨864, 634⟩, 3)]).resize.applied :=
  agreement_of_no_recall 1280 720 _ (by decide) (by decide)

/-- The client asks for a new size, and for the old one again before the first is realized: the
second request is discarded, and the compositor stays where the first one put it. -/
theorem agreement_fails_after_recall :
    ¬ ∀ (width height : UInt16) (es : List (ResizeOp × Instant)), ClockMonotone es →
      (displayMachine.exec (new width height) es).Quiescent →
      (displayMachine.exec (new width height) es).compositor =
        (displayMachine.exec (new width height) es).resize.applied := by
  intro h
  have := h 1280 720
    [(.request ⟨864, 634⟩, 0), (.takeReady, 0), (.markCommandSucceeded ⟨864, 634⟩, 1),
      (.request ⟨1280, 720⟩, 2), (.takeReady, 3)] (by decide) (by decide)
  exact absurd this (by decide)

/-- The exclusion is not generous: from a tracked pipeline whose guard is open, a recall followed
by `take_ready` ends at rest and in disagreement. -/
theorem disagreement_of_recall (h : p.Tracked) (he : p.Recalls e) {now : Instant}
    (hg : p.resize.held now = false) :
    (displayMachine.exec p [e, (.takeReady, now)]).Quiescent ∧
      (displayMachine.exec p [e, (.takeReady, now)]).compositor ≠
        (displayMachine.exec p [e, (.takeReady, now)]).resize.applied := by
  obtain ⟨c, s, q⟩ := p
  obtain ⟨op, t⟩ := e
  obtain ⟨rfl, hc, hne⟩ : op = .request c.applied ∧ c.committing = none ∧ s ≠ c.applied := he
  have hg : c.retryNotBefore.any (fun d => decide (now < d)) = false := hg
  suffices hrest : ∃ x, (c.request c.applied).takeReady now =
      (none, { c with pending := none, inFlight := none, realizationDeadline := x }) by
    obtain ⟨x, hx⟩ := hrest
    simp [Quiescent, step, ResizeCoordinator.apply, switchedTo, hx, hc, hne]
  cases hf : c.inFlight with
  | none =>
    refine ⟨c.realizationDeadline, ?_⟩
    simp [ResizeCoordinator.request, ResizeCoordinator.takeReady, ResizeCoordinator.takePending,
      ResizeCoordinator.held, hf, hc, hg]
  | some x =>
    have hx : x ≠ c.applied := h.wellFormed.inFlight_ne x hf
    refine ⟨none, ?_⟩
    simp [ResizeCoordinator.request, ResizeCoordinator.takeReady, ResizeCoordinator.takePending,
      ResizeCoordinator.held, hf, hc, hg, hx]

/-! ### The latest request wins -/

/-- The newest size the coordinator still knows: `pending`, else `in_flight`, else `committing`,
else `applied`. -/
def newest (p : DisplayPipeline) : ResizeRequest :=
  (((p.resize.pending.or p.resize.inFlight).or p.resize.committing).getD p.resize.applied)

/-- The step asks for the advertised size while another size is being committed. -/
def OverlooksCommit (p : DisplayPipeline) (e : ResizeOp × Instant) : Prop :=
  e.1 = .request p.resize.applied ∧ p.resize.committing ≠ none

instance (p : DisplayPipeline) (e : ResizeOp × Instant) : Decidable (p.OverlooksCommit e) :=
  inferInstanceAs (Decidable (_ ∧ _))

/-- A well-formed coordinator whose newest size is the client's last word. -/
structure Remembers (p : DisplayPipeline) : Prop where
  wellFormed : p.resize.WellFormed
  newest_eq : p.newest = p.requested

theorem remembers_new (width height : UInt16) : (new width height).Remembers :=
  ⟨ResizeCoordinator.wellFormed_new width height, rfl⟩

theorem Remembers.transition {now : Instant} {op : ResizeOp} {c c' : ResizeCoordinator}
    {s s' q : ResizeRequest} {res : ResizeResult} (h : Remembers ⟨c, s, q⟩)
    (he : ¬ OverlooksCommit ⟨c, s, q⟩ (op, now)) (ht : Transition now op c res c') :
    Remembers ⟨c', s', lastRequested q op⟩ := by
  obtain ⟨hwf, hn⟩ := h
  refine ⟨hwf.transition ht, ?_⟩
  simp only [newest] at hn ⊢
  cases ht with
  | idle hop =>
    rw [hn]
    cases op <;> first | rfl | exact absurd rfl (hop _)
  | requestActive h =>
    rcases h with h | h
    · simp [h, lastRequested]
    · have hf : c.inFlight = none := hwf.exclusive (by simp [h])
      simp [h, hf, lastRequested]
  | requestApplied hf ha hc =>
    have hcn : c.committing = none := by
      by_contra hcn
      exact he ⟨by rw [ha], hcn⟩
    simp [hf, hcn, ha, lastRequested]
  | requestPending => simp [lastRequested]
  | dropHeld hc hf hp =>
    obtain ⟨r, hr⟩ := Option.ne_none_iff_exists'.mp hp
    simpa [hr, lastRequested] using hn
  | discard hc hp hg hf' hp' hc' ha => simpa [hp, hp', hf', hc', ha, lastRequested] using hn
  | handOut hc hp => simpa [hp, lastRequested] using hn
  | commandSucceeded => simpa [lastRequested] using hn
  | failSuperseded hop hf hp =>
    obtain ⟨r, hr⟩ := Option.ne_none_iff_exists'.mp hp
    rcases hop with rfl | rfl <;> simpa [hr, lastRequested] using hn
  | failRetry hop hf hp =>
    rcases hop with rfl | rfl <;> simpa [hf, hp, lastRequested] using hn
  | commitBegun hf hp => simpa [hf, hp, lastRequested] using hn
  | commitSuperseded hc hp =>
    obtain ⟨r, hr⟩ := Option.ne_none_iff_exists'.mp hp
    simpa [hr, lastRequested] using hn
  | commitRetry hc hp =>
    have hf : c.inFlight = none := hwf.exclusive (by simp [hc])
    simpa [hc, hp, hf, lastRequested] using hn
  | committed hc =>
    have hf : c.inFlight = none := hwf.exclusive (by simp [hc])
    cases hp : c.pending <;> simpa [hc, hf, hp, lastRequested] using hn

theorem Remembers.step (h : p.Remembers) (he : ¬ p.OverlooksCommit e) : (p.step e).Remembers :=
  h.transition he (ResizeCoordinator.transition_apply p.resize e.2 e.1)

/-- During a commit the client's recall is compared with the size it replaces, and dropped. -/
theorem newest_ne_of_overlooksCommit (h : p.Remembers) (he : p.OverlooksCommit e) :
    (p.step e).newest ≠ (p.step e).requested := by
  obtain ⟨c, s, q⟩ := p
  obtain ⟨op, now⟩ := e
  obtain ⟨rfl, hc⟩ : op = .request c.applied ∧ c.committing ≠ none := he
  obtain ⟨r, hr⟩ := Option.ne_none_iff_exists'.mp hc
  have hne : r ≠ c.applied := h.wellFormed.committing_ne r hr
  have hf : c.inFlight = none := h.wellFormed.exclusive hc
  have hreq : c.request c.applied = { c with pending := none } := by
    simp [ResizeCoordinator.request, hf]
  simpa [step, newest, lastRequested, ResizeCoordinator.apply, hreq, hf, hr] using hne

/-- **Latest request wins, exactly.** The newest size the coordinator knows is the client's last
word in every state of a run if and only if no step of the run asks for the advertised size while
another size is being committed. -/
theorem latest_request_wins_iff (width height : UInt16) (es : List (ResizeOp × Instant)) :
    displayMachine.Always (fun p => p.newest = p.requested) (new width height) es ↔
      displayMachine.Along (fun p e => ¬ p.OverlooksCommit e) (new width height) es :=
  Machine.always_iff_along (I := Remembers) (fun _ _ h he => h.step he)
    (fun _ h => h.newest_eq)
    (fun _ _ h he => newest_ne_of_overlooksCommit h (not_not.mp he)) (remembers_new width height)

/-- The client asks for the old size again while the new one is being committed: the request is
forgotten. -/
theorem latest_request_lost_during_commit :
    ¬ ∀ (width height : UInt16) (es : List (ResizeOp × Instant)),
      (displayMachine.exec (new width height) es).newest =
        (displayMachine.exec (new width height) es).requested := by
  intro h
  have := h 1280 720
    [(.request ⟨864, 634⟩, 0), (.takeReady, 0), (.markCommandSucceeded ⟨864, 634⟩, 1),
      (.beginCommit ⟨864, 634⟩, 2), (.request ⟨1280, 720⟩, 3)]
  exact absurd this (by decide)

end DisplayPipeline

end Cheirizo
