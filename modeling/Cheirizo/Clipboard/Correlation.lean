import Cheirizo.Clipboard.Exchange

/-!
# Which answer belongs to which paste

Answers are matched with the queue in order, and with nothing else. Two results say how far that
carries. The first is about transfers: an application gets the answer to *its* request as long as
the queue is the pastes on their way followed by the transfers still to be sent, and every move that
keeps it so is listed. The second is about eager fetches: what is published was fetched for the
selection that is current, as long as enough of the queue stands between a stale answer and the
next eager fetch.

## Main definitions

* `Aligned`, `Orderly`, `Correlated` — for transfers: the invariant, the condition, the property
* `Shielded`, `Covered`, `PublishesCurrent` — the same for eager fetches

## Main results

* `answers_correlated` — along orderly moves every completed transfer gets its own answer
* `publications_current` — along covered moves no superseded answer is published
-/

namespace Cheirizo

namespace Clipboard

variable {lib : Libraries} {x : Exchange} {m : Move}

/-! ### Transfers -/

/-- The queue is the unanswered pastes, then the transfers that have not been sent. -/
structure Aligned (x : Exchange) : Prop where
  queue : x.orch.pendingPortalRequests = x.outstanding.map Paste.entry ++ x.requested
  content : x.orch.sync.ClientContent

/-- A successful completion hands over the answer to the paste sent for the same serial and type.
Completions that hand over received files are not answers to a paste. -/
def Correlated (lib : Libraries) (x : Exchange) (m : Move) : Prop :=
  ∀ serial mime bytes, .completeTransfer serial mime bytes true ∈ (x.step lib m).2 →
    (∃ env streamId data isError,
      m = .aside env (.rdpFileContentsResponse streamId data isError)) ∨
    ∃ env data paste rest, m = .answer env data ∧ x.outstanding = paste :: rest ∧
      paste.serial = serial ∧ paste.mime = mime ∧ toPortalData lib.codec mime data = .ok bytes

/-- The moves that keep the queue aligned. -/
def Orderly (lib : Libraries) (x : Exchange) : Move → Prop
  | .transfer .. => True
  -- A transfer that cannot be sent stays in the queue without a paste.
  | .serve env => ∀ entry ∈ x.requested.head?,
      (requestedFormat x.orch.currentRdpFormats entry.2).isSome ∧ env.sender = .registered
  -- An eager fetch overtakes the transfers still to be sent, or takes all others like it back.
  | .offer env formats => fetches lib x.orch env formats →
      if env.sender = .registered then x.requested = []
      else ∀ r ∈ x.orch.pendingPortalRequests, r.1 ≠ eagerFetchSerial
  -- A delivery forgets whatever else is in the queue; a failed one, whatever has its serial.
  | .answer env data => ∀ paste rest, x.outstanding = paste :: rest →
      ∃ provider, env.provider = some provider ∧
        (delivers lib data paste.entry →
          if provider.completeTransfer paste.serial paste.mime then
            rest = [] ∧ x.requested = [] ∧ env.arrivals = []
          else ∀ r ∈ rest.map Paste.entry ++ x.requested ++ env.arrivals, r.1 ≠ paste.serial)
  -- An error forgets the whole queue.
  | .refuse env => ∀ paste rest, x.outstanding = paste :: rest →
      rest = [] ∧ x.requested = [] ∧ env.arrivals = []
  | .aside .. => True

theorem aligned_start (config : OrchestratorConfig) (downloadDir : String) :
    Aligned (.start config downloadDir) :=
  ⟨rfl, SyncManager.clientContent_withConfig _⟩

theorem respond_clientContent {o : Orchestrator} (h : o.sync.ClientContent) (i : Input) :
    (respond lib o i).orch.sync.ClientContent :=
  (respond_keeps o i).clientContent h

theorem Aligned.transfer (h : Aligned x) (serial : UInt32) (mime : String) :
    Aligned (x.step lib (.transfer serial mime)).1 := by
  obtain ⟨hpending, hforward⟩ := transfer_pending lib x.orch serial mime
  refine ⟨?_, respond_clientContent h.content _⟩
  simp only [Exchange.step]
  rw [hpending, hforward, h.queue, List.append_assoc]

theorem Aligned.serve {env : Env} (h : Aligned x) (hm : Orderly lib x (.serve env)) :
    Aligned (x.step lib (.serve env)).1 := by
  rcases hreq : x.requested with _ | ⟨⟨serial, mime⟩, rest⟩
  · simp only [Exchange.step, hreq]
    exact h
  · have hsent := hm (serial, mime) (by rw [hreq]; rfl)
    refine ⟨?_, ?_⟩
    · simp only [Exchange.step, hreq, serve_pastes]
      rw [(respond_keeps _ _).pending (by simp [Input.touches]), h.queue, hreq, if_pos hsent]
      simp [Paste.entry]
    · simp only [Exchange.step, hreq]
      exact respond_clientContent h.content _

theorem Aligned.offer {env : Env} {formats : List ClipboardFormat} (h : Aligned x)
    (hm : Orderly lib x (.offer env formats)) : Aligned (x.step lib (.offer env formats)).1 := by
  obtain ⟨hpending, hpastes⟩ := offer_pending lib x.orch env formats
  refine ⟨?_, respond_clientContent h.content _⟩
  have hbefore : (if retires lib x.orch env formats then x.outstanding.map Paste.supersede
      else x.outstanding).map Paste.entry = x.outstanding.map Paste.entry := by
    split
    · rw [List.map_map]
      rfl
    · rfl
  simp only [Exchange.step]
  rw [hpending, hpastes, List.map_append, hbefore, queueAfterOffer]
  by_cases hfetch : fetches lib x.orch env formats
  · have hcond := hm hfetch
    by_cases hreg : env.sender = .registered
    · rw [if_pos hreg] at hcond
      simp [hfetch, hreg, h.queue, hcond, Paste.entry]
    · rw [if_neg hreg] at hcond
      have hkeep : x.orch.pendingPortalRequests.filter (fun r => r.1 ≠ eagerFetchSerial) =
          x.orch.pendingPortalRequests :=
        List.filter_eq_self.mpr fun r hr => decide_eq_true (hcond r hr)
      rw [if_pos hfetch, if_neg hreg, hkeep, h.queue]
      simp [hreg]
  · simp [hfetch, h.queue]

theorem Aligned.answer {env : Env} {data : List UInt8} (h : Aligned x)
    (hm : Orderly lib x (.answer env data)) : Aligned (x.step lib (.answer env data)).1 := by
  rcases hout : x.outstanding with _ | ⟨paste, rest⟩
  · simp only [Exchange.step, hout]
    exact h
  · obtain ⟨provider, hp, hdelivers⟩ := hm paste rest hout
    have hq : x.orch.pendingPortalRequests =
        paste.entry :: (rest.map Paste.entry ++ x.requested) := by
      rw [h.queue, hout]
      rfl
    obtain ⟨hpending, hforward⟩ := answer_pending lib data h.content hp hq
    refine ⟨?_, ?_⟩
    · simp only [Exchange.step, hout]
      rw [hpending, hforward, queueAfterAnswer]
      by_cases hd : delivers lib data paste.entry
      · have hcond := hdelivers hd
        rw [if_pos hd, if_pos hd, Paste.entry_fst, Paste.entry_snd]
        by_cases hc : provider.completeTransfer paste.serial paste.mime
        · rw [if_pos hc] at hcond
          obtain ⟨hrest, hreq, harrivals⟩ := hcond
          rw [if_pos hc, hrest, hreq, harrivals]
          rfl
        · rw [if_neg hc] at hcond
          rw [if_neg hc, ← List.append_assoc]
          exact List.filter_eq_self.mpr fun r hr => decide_eq_true (hcond r hr)
      · rw [if_neg hd, if_neg hd, List.append_nil]
    · simp only [Exchange.step, hout]
      exact respond_clientContent h.content _

theorem Aligned.refuse {env : Env} (h : Aligned x) (hm : Orderly lib x (.refuse env)) :
    Aligned (x.step lib (.refuse env)).1 := by
  rcases hout : x.outstanding with _ | ⟨paste, rest⟩
  · simp only [Exchange.step, hout]
    exact h
  · obtain ⟨hrest, hreq, harrivals⟩ := hm paste rest hout
    obtain ⟨hpending, hforward⟩ := refuse_pending lib x.orch env
    refine ⟨?_, ?_⟩
    · simp only [Exchange.step, hout]
      rw [hpending, hforward, hrest, hreq, harrivals]
      rfl
    · simp only [Exchange.step, hout]
      exact respond_clientContent h.content _

theorem Aligned.aside {env : Env} {e : ClipboardEvent} (h : Aligned x) :
    Aligned (x.step lib (.aside env e)).1 := by
  by_cases he : e.isMove
  · simp only [Exchange.step, he]
    exact h
  · simp only [Exchange.step, he]
    exact ⟨((respond_keeps _ _).pending (pending_not_mem_touches he)).trans h.queue,
      respond_clientContent h.content _⟩

/-- **One orderly move keeps the queue aligned.** -/
theorem Aligned.step (h : Aligned x) (hm : Orderly lib x m) : Aligned (x.step lib m).1 := by
  cases m with
  | transfer serial mime => exact h.transfer serial mime
  | serve env => exact h.serve hm
  | offer env formats => exact h.offer hm
  | answer env data => exact h.answer hm
  | refuse env => exact h.refuse hm
  | aside env e => exact h.aside

/-- **With an aligned queue, an answer completes the transfer its paste was sent for.** -/
theorem Aligned.correlated (h : Aligned x) : Correlated lib x m := by
  intro serial mime bytes hmem
  obtain ⟨i, hi, hout⟩ := Exchange.step_out hmem
  rcases complete_mem_emits (respond_topic hout) with
    ⟨env, data, rfl⟩ | ⟨env, rfl⟩ | ⟨env, streamId, data, isError, rfl⟩
  · obtain ⟨rfl, paste, rest, hrest⟩ := Exchange.input_eq_rdpDataResponse hi
    obtain ⟨hhead, hconv⟩ := answer_completion hout
    rw [h.queue, hrest] at hhead
    cases hhead
    exact Or.inr ⟨env, data, paste, rest, rfl, hrest, rfl, rfl, hconv⟩
  · cases refuse_completion hout
  · exact Or.inl ⟨env, streamId, data, isError, Exchange.input_eq_event hi rfl⟩

/-- **Along orderly moves every completed transfer gets the answer to its own paste.** -/
theorem answers_correlated (lib : Libraries) (config : OrchestratorConfig) (downloadDir : String)
    (moves : List Move)
    (h : (exchange lib).Along (Orderly lib) (.start config downloadDir) moves) :
    (exchange lib).Along (Correlated lib) (.start config downloadDir) moves :=
  Machine.Along.of_invariant (fun _ _ hx hm => hx.step hm) (fun _ _ hx _ => hx.correlated)
    (aligned_start config downloadDir) h

/-- A fresh exchange. -/
def sampleExchange : Exchange := .start sampleConfig "/home/user/Downloads"

/-- One paste at a time. -/
def singlePaste : List Move :=
  [.transfer 1 "text/plain", .serve sampleEnv, .answer sampleEnv [0x41, 0x00]]

/-- A paste on its own gets its answer. -/
theorem single_paste_correlated :
    (exchange sampleLibraries).Along (Correlated sampleLibraries) sampleExchange singlePaste ∧
      .completeTransfer 1 "text/plain" [0x41] true ∈
        (exchange sampleLibraries).trace sampleExchange singlePaste := by
  refine ⟨answers_correlated _ _ _ _ ⟨trivial, ?_, ?_, trivial⟩, by decide⟩
  · intro entry hentry
    obtain rfl : (1, "text/plain") = entry := Option.some.inj hentry
    exact ⟨by decide, rfl⟩
  · rintro paste rest hout
    obtain ⟨rfl, rfl⟩ : ⟨1, "text/plain", false⟩ = paste ∧ [] = rest := List.cons.inj hout
    exact ⟨sampleProvider, rfl, fun _ => ⟨rfl, rfl, rfl⟩⟩

/-- Two pastes at once, and a third after the first answer. -/
def overlappingPastes : List Move :=
  [.transfer 1 "text/plain", .transfer 2 "text/plain", .serve sampleEnv, .serve sampleEnv,
    .answer sampleEnv [0x41, 0x00], .transfer 3 "text/plain", .serve sampleEnv,
    .answer sampleEnv [0x42, 0x00]]

/-- The first answer cancels the second transfer but not the paste sent for it, so the second
answer is handed to the third transfer. -/
theorem overlapping_pastes_not_correlated :
    ¬ (exchange sampleLibraries).Along (Correlated sampleLibraries) sampleExchange
      overlappingPastes := by
  intro h
  have hlast := h.2.2.2.2.2.2.2.1 3 "text/plain" [0x42] (by decide)
  rcases hlast with ⟨env, streamId, data, isError, hmove⟩ |
    ⟨env, data, paste, rest, -, hout, hserial, -⟩
  · cases hmove
  · obtain ⟨rfl, -⟩ : ⟨2, "text/plain", false⟩ = paste ∧ [⟨3, "text/plain", false⟩] = rest :=
      List.cons.inj hout
    exact absurd hserial (by decide)

/-! ### Eager fetches -/

/-- The entries before the first eager fetch. -/
def front (pending : List (UInt32 × String)) : List (UInt32 × String) :=
  pending.takeWhile fun r => r.1 ≠ eagerFetchSerial

/-- If an eager fetch is in the queue, at least `n` entries come before it. -/
def Guards (n : ℕ) (pending : List (UInt32 × String)) : Prop :=
  (∃ r ∈ pending, r.1 = eagerFetchSerial) → n ≤ (front pending).length

theorem guards_of_none {n : ℕ} {pending : List (UInt32 × String)}
    (h : ∀ r ∈ pending, r.1 ≠ eagerFetchSerial) : Guards n pending := by
  rintro ⟨r, hr, heq⟩
  exact absurd heq (h r hr)

theorem guards_nil (n : ℕ) : Guards n [] := guards_of_none (by simp)

theorem Guards.mono {n n' : ℕ} {pending : List (UInt32 × String)} (h : Guards n pending)
    (hn : n' ≤ n) : Guards n' pending :=
  fun he => hn.trans (h he)

theorem Guards.eq_zero {n : ℕ} {entry : UInt32 × String} {rest : List (UInt32 × String)}
    (h : Guards n (entry :: rest)) (he : entry.1 = eagerFetchSerial) : n = 0 := by
  have hlen := h ⟨entry, List.mem_cons_self .., he⟩
  simpa [front, he] using hlen

/-- An answer takes one entry and one paste. -/
theorem Guards.tail {n : ℕ} {entry : UInt32 × String} {rest : List (UInt32 × String)}
    (h : Guards n (entry :: rest)) : Guards (n - 1) rest := by
  rintro ⟨r, hr, heq⟩
  by_cases he : entry.1 = eagerFetchSerial
  · rw [h.eq_zero he]
    exact Nat.zero_le _
  · have hlen := h ⟨r, List.mem_cons_of_mem _ hr, heq⟩
    have hfront : (front (entry :: rest)).length = (front rest).length + 1 := by
      simp [front, he]
    omega

/-- Ordinary transfers at the end do not shorten the front. -/
theorem Guards.append {n : ℕ} {pending entries : List (UInt32 × String)} (h : Guards n pending)
    (he : ∀ r ∈ entries, r.1 ≠ eagerFetchSerial) : Guards n (pending ++ entries) := by
  rintro ⟨r, hr, heq⟩
  rcases List.mem_append.mp hr with hr | hr
  · refine (h ⟨r, hr, heq⟩).trans ?_
    rw [front, front, List.takeWhile_append]
    split
    · simp_all
    · exact Nat.le_refl _
  · exact absurd heq (he r hr)

theorem front_append_eagerFetch (pending : List (UInt32 × String)) (mime : String) :
    (front (pending ++ [(eagerFetchSerial, mime)])).length = (front pending).length := by
  rw [front, front, List.takeWhile_append]
  split
  · simp_all
  · rfl

/-- The pastes that were superseded come first, and every eager fetch in the queue has at least as
many entries before it. -/
structure Shielded (x : Exchange) : Prop where
  split : ∃ stale current, x.outstanding = stale ++ current ∧
    (∀ p ∈ stale, p.superseded = true) ∧ (∀ p ∈ current, p.superseded = false) ∧
    Guards stale.length x.orch.pendingPortalRequests
  content : x.orch.sync.ClientContent

/-- Nothing but an answer provides data, and an answer to a superseded paste publishes nothing. -/
def PublishesCurrent (lib : Libraries) (x : Exchange) (m : Move) : Prop :=
  (∀ mime bytes, .provideData mime bytes ∈ (x.step lib m).2 → ∃ env data, m = .answer env data) ∧
    ∀ env data paste rest, m = .answer env data → x.outstanding = paste :: rest →
      paste.superseded = true →
      ∀ output ∈ (x.step lib m).2, output.topic ≠ .provide ∧ output.topic ≠ .announce

/-- The moves that keep stale answers away from eager fetches. -/
def Covered (lib : Libraries) (x : Exchange) : Move → Prop
  -- Serials of the compositor are small numbers; the sentinel is none of them.
  | .transfer serial _ => serial ≠ eagerFetchSerial
  -- The pastes an accepted offer supersedes must be used up before an eager fetch is reached.
  | .offer env formats => retires lib x.orch env formats →
      (if fetches lib x.orch env formats then env.sender = .registered
        else ∃ r ∈ x.orch.pendingPortalRequests, r.1 = eagerFetchSerial) →
      x.outstanding.length ≤ (front x.orch.pendingPortalRequests).length
  -- A failed delivery forgets every entry of its serial, also those in front of an eager fetch.
  | .answer env data => x.outstanding ≠ [] → ∀ provider entry rest,
      env.provider = some provider → x.orch.pendingPortalRequests = entry :: rest →
      delivers lib data entry → provider.completeTransfer entry.1 entry.2 = false →
      (∀ r ∈ rest, r.1 ≠ entry.1) ∧ ∀ r ∈ env.arrivals, r.1 ≠ eagerFetchSerial
  | .serve _ => True
  | .refuse _ => True
  | .aside .. => True

theorem shielded_start (config : OrchestratorConfig) (downloadDir : String) :
    Shielded (.start config downloadDir) :=
  ⟨⟨[], [], rfl, by simp, by simp, guards_of_none fun _ h => nomatch h⟩,
    SyncManager.clientContent_withConfig _⟩

theorem Shielded.transfer {serial : UInt32} {mime : String} (h : Shielded x)
    (hm : Covered lib x (.transfer serial mime)) :
    Shielded (x.step lib (.transfer serial mime)).1 := by
  obtain ⟨stale, current, hsplit, hstale, hcurrent, hguard⟩ := h.split
  refine ⟨⟨stale, current, hsplit, hstale, hcurrent, ?_⟩, respond_clientContent h.content _⟩
  simp only [Exchange.step, (transfer_pending lib x.orch serial mime).1]
  refine hguard.append fun r hr => ?_
  rw [List.mem_singleton.mp hr]
  exact hm

/-- A paste just sent is not superseded. -/
theorem Shielded.serve {env : Env} (h : Shielded x) : Shielded (x.step lib (.serve env)).1 := by
  rcases hreq : x.requested with _ | ⟨⟨serial, mime⟩, rest⟩
  · simp only [Exchange.step, hreq]
    exact h
  · obtain ⟨stale, current, hsplit, hstale, hcurrent, hguard⟩ := h.split
    simp only [Exchange.step, hreq]
    refine ⟨⟨stale, current ++ List.replicate _ _, by rw [hsplit, List.append_assoc], hstale, ?_,
      ?_⟩, respond_clientContent h.content _⟩
    · intro p hp
      rcases List.mem_append.mp hp with hp | hp
      · exact hcurrent p hp
      · rw [List.eq_of_mem_replicate hp]
    · rw [(respond_keeps _ _).pending (by simp [Input.touches])]
      exact hguard

theorem Shielded.offer {env : Env} {formats : List ClipboardFormat} (h : Shielded x)
    (hm : Covered lib x (.offer env formats)) :
    Shielded (x.step lib (.offer env formats)).1 := by
  obtain ⟨hpending, hpastes⟩ := offer_pending lib x.orch env formats
  by_cases hretire : retires lib x.orch env formats
  · have hcond := hm hretire
    simp only [Exchange.step, hretire, if_true]
    refine ⟨⟨_, _, rfl, ?_, ?_, ?_⟩, respond_clientContent h.content _⟩
    · intro p hp
      obtain ⟨q, -, rfl⟩ := List.mem_map.mp hp
      rfl
    · intro p hp
      rw [List.eq_of_mem_replicate hp]
    · rw [hpending, queueAfterOffer, List.length_map]
      by_cases hfetch : fetches lib x.orch env formats
      · rw [if_pos hfetch] at hcond ⊢
        by_cases hreg : env.sender = .registered
        · intro _
          rw [if_pos hreg, front_append_eagerFetch]
          exact hcond hreg
        · rw [if_neg hreg]
          exact guards_of_none fun r hr => of_decide_eq_true (List.mem_filter.mp hr).2
      · rw [if_neg hfetch] at hcond ⊢
        exact hcond
  · have hfetch : fetches lib x.orch env formats = false := by
      simp [fetches, hretire]
    obtain ⟨stale, current, hsplit, hstale, hcurrent, hguard⟩ := h.split
    refine ⟨⟨stale, current, ?_, hstale, hcurrent, ?_⟩, respond_clientContent h.content _⟩
    · simp only [Exchange.step]
      rw [hpastes]
      simpa [hretire, hfetch] using hsplit
    · simp only [Exchange.step]
      rw [hpending, queueAfterOffer, hfetch]
      exact hguard

/-- The oldest paste is gone, superseded or not. -/
theorem Shielded.pop {o : Orchestrator} {requested : List (UInt32 × String)} {paste : Paste}
    {rest : List Paste} (h : Shielded x) (hout : x.outstanding = paste :: rest)
    (hcontent : o.sync.ClientContent)
    (hguard : ∀ n, Guards n x.orch.pendingPortalRequests →
      Guards (n - 1) o.pendingPortalRequests) : Shielded ⟨o, requested, rest⟩ := by
  obtain ⟨stale, current, hsplit, hstale, hcurrent, hg⟩ := h.split
  rw [hout] at hsplit
  refine ⟨?_, hcontent⟩
  rcases stale with _ | ⟨p, stale⟩
  · refine ⟨[], rest, rfl, hstale, fun q hq => hcurrent q ?_, hguard 0 hg⟩
    rw [List.nil_append] at hsplit
    rw [← hsplit]
    exact List.mem_cons_of_mem _ hq
  · obtain ⟨-, rfl⟩ := List.cons.inj hsplit
    exact ⟨stale, current, rfl, fun q hq => hstale q (List.mem_cons_of_mem _ hq), hcurrent,
      hguard _ hg⟩

theorem Shielded.answer {env : Env} {data : List UInt8} (h : Shielded x)
    (hm : Covered lib x (.answer env data)) : Shielded (x.step lib (.answer env data)).1 := by
  rcases hout : x.outstanding with _ | ⟨paste, rest⟩
  · simp only [Exchange.step, hout]
    exact h
  · have hne : x.outstanding ≠ [] := by rw [hout]; exact List.cons_ne_nil _ _
    simp only [Exchange.step, hout]
    refine h.pop hout (respond_clientContent h.content _) fun n hguard => ?_
    rcases hp : env.provider with _ | provider
    · rw [(answer_ignored lib data (Or.inl hp)).1]
      exact hguard.mono (Nat.sub_le _ _)
    · rcases hq : x.orch.pendingPortalRequests with _ | ⟨entry, queue⟩
      · rw [(answer_ignored lib data (Or.inr hq)).1, hq]
        exact guards_nil _
      · rw [(answer_pending lib data h.content hp hq).1, queueAfterAnswer]
        rw [hq] at hguard
        by_cases hd : delivers lib data entry
        · rw [if_pos hd]
          cases hc : provider.completeTransfer entry.1 entry.2 with
          | true => exact guards_nil _
          | false =>
            obtain ⟨hserial, harrivals⟩ := hm hne provider entry queue hp hq hd hc
            have hkeep : queue.filter (fun r => r.1 ≠ entry.1) = queue :=
              List.filter_eq_self.mpr fun r hr => decide_eq_true (hserial r hr)
            rw [if_neg Bool.false_ne_true, List.filter_append, hkeep]
            exact hguard.tail.append fun r hr => harrivals r (List.mem_filter.mp hr).1
        · rw [if_neg hd]
          exact hguard.tail

theorem Shielded.refuse {env : Env} (h : Shielded x) : Shielded (x.step lib (.refuse env)).1 := by
  rcases hout : x.outstanding with _ | ⟨paste, rest⟩
  · simp only [Exchange.step, hout]
    exact h
  · simp only [Exchange.step, hout]
    refine h.pop hout (respond_clientContent h.content _) fun n _ => ?_
    rw [(refuse_pending lib x.orch env).1]
    exact guards_nil _

theorem Shielded.aside {env : Env} {e : ClipboardEvent} (h : Shielded x) :
    Shielded (x.step lib (.aside env e)).1 := by
  by_cases he : e.isMove
  · simp only [Exchange.step, he]
    exact h
  · obtain ⟨stale, current, hsplit, hstale, hcurrent, hguard⟩ := h.split
    simp only [Exchange.step, he]
    refine ⟨⟨stale, current, hsplit, hstale, hcurrent, ?_⟩, respond_clientContent h.content _⟩
    show Guards _ (respond lib x.orch (.event env e)).orch.pendingPortalRequests
    rw [(respond_keeps _ _).pending (pending_not_mem_touches he)]
    exact hguard

/-- **One covered move keeps the eager fetches shielded.** -/
theorem Shielded.step (h : Shielded x) (hm : Covered lib x m) : Shielded (x.step lib m).1 := by
  cases m with
  | transfer serial mime => exact h.transfer hm
  | serve env => exact h.serve
  | offer env formats => exact h.offer hm
  | answer env data => exact h.answer hm
  | refuse env => exact h.refuse
  | aside env e => exact h.aside

/-- **With shielded eager fetches, only an answer to a current paste is published.** -/
theorem Shielded.publishesCurrent (h : Shielded x) : PublishesCurrent lib x m := by
  constructor
  · intro mime bytes hmem
    obtain ⟨i, hi, hout⟩ := Exchange.step_out hmem
    obtain ⟨env, data, rfl⟩ := provide_mem_emits (respond_topic hout)
    exact ⟨env, data, (Exchange.input_eq_rdpDataResponse hi).1⟩
  · rintro env data paste rest rfl hout hsuper output hmem
    obtain ⟨i, hi, hmem⟩ := Exchange.step_out hmem
    obtain ⟨_, -, rfl⟩ := Option.map_eq_some_iff.mp hi
    obtain ⟨stale, current, hsplit, -, hcurrent, hguard⟩ := h.split
    by_contra hpub
    rw [← not_or, not_not] at hpub
    obtain ⟨entry, queue, hq, heager⟩ := answer_publication hmem hpub
    -- The head of the queue is an eager fetch, so nothing shields it: no paste can be stale.
    rw [hq] at hguard
    rw [List.length_eq_zero_iff.mp (hguard.eq_zero heager), List.nil_append, hout] at hsplit
    have hfresh := hcurrent paste (hsplit ▸ List.mem_cons_self ..)
    rw [hsuper] at hfresh
    cases hfresh

/-- **Along covered moves no answer to a superseded paste is published.** -/
theorem publications_current (lib : Libraries) (config : OrchestratorConfig)
    (downloadDir : String) (moves : List Move)
    (h : (exchange lib).Along (Covered lib) (.start config downloadDir) moves) :
    (exchange lib).Along (PublishesCurrent lib) (.start config downloadDir) moves :=
  Machine.Along.of_invariant (fun _ _ hx hm => hx.step hm) (fun _ _ hx _ => hx.publishesCurrent)
    (shielded_start config downloadDir) h

/-- A provider that needs its data upfront. -/
def upfrontEnv : Env :=
  { sampleEnv with provider := some { sampleProvider with requiresUpfrontData := true } }

/-- Two selections, each fetched before the next. -/
def fetchedInTurn : List Move :=
  [.offer upfrontEnv [.new 13], .answer upfrontEnv [0x41, 0x00],
    .offer upfrontEnv [.new 13, .new 1], .answer upfrontEnv [0x42, 0x00]]

/-- Each selection is published as it was fetched. -/
theorem fetched_in_turn_current :
    (exchange sampleLibraries).Along (PublishesCurrent sampleLibraries) sampleExchange
        fetchedInTurn ∧
      .provideData "text/plain" [0x42] ∈
        (exchange sampleLibraries).trace sampleExchange fetchedInTurn := by
  have hanswer : ∀ x : Exchange, x.orch.pendingPortalRequests = [(eagerFetchSerial, "text/plain")] →
      ∀ data, Covered sampleLibraries x (.answer upfrontEnv data) := by
    intro x hx data _ provider entry rest _ hq hd
    rw [hx] at hq
    cases hq
    cases hd
  exact ⟨publications_current _ _ _ _ ⟨fun _ _ => by decide, hanswer _ rfl _,
    fun _ _ => by decide, hanswer _ rfl _, trivial⟩, by decide⟩

/-- A second selection while the first is being fetched. -/
def fetchedTooLate : List Move :=
  [.offer upfrontEnv [.new 13], .offer upfrontEnv [.new 13, .new 1],
    .answer upfrontEnv [0x41, 0x00]]

/-- The answer for the first selection is published although the second was accepted. -/
theorem superseded_selection_published :
    ¬ (exchange sampleLibraries).Along (PublishesCurrent sampleLibraries) sampleExchange
      fetchedTooLate := by
  intro h
  have hlast := h.2.2.1.2 upfrontEnv [0x41, 0x00] ⟨eagerFetchSerial, "text/plain", true⟩
    [⟨eagerFetchSerial, "text/plain", false⟩] rfl rfl rfl (.provideData "text/plain" [0x41])
    (by decide)
  exact hlast.1 rfl

end Clipboard

end Cheirizo
