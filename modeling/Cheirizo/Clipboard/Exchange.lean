import Cheirizo.Clipboard.Answers

/-!
# The exchange with the client

The orchestrator together with what is on its way: transfers that the forwarder has queued and
whose data request the event loop has not reached yet, and pastes the client has not answered yet.
The client answers every paste exactly once and in order; the protocol carries nothing that would
say which paste an answer is for, so which paste it *is* for is known to this model only.

## Main definitions

* `Paste` — a request sent to the client: what it was sent for, and whether it was superseded
* `Exchange`, `Move`, `exchange` — the machine
* `retires`, `fetches`, `delivers` — when an offer retires the selection, when it is fetched
  eagerly, and when an answer is delivered

## Main results

* `offer_pending`, `answer_pending`, `refuse_pending` — what each move makes of the queue
* `answer_completion` — an answer completes the entry at the head of the queue, or none
* `answer_publication` — an answer is published only for an eager fetch at the head of the queue
-/

namespace Cheirizo

namespace Clipboard

/-- A request sent to the client. -/
structure Paste where
  serial : UInt32
  mime : String
  /-- A newer selection has been accepted since it was sent. -/
  superseded : Bool
  deriving DecidableEq, Repr

/-- The queue entry a paste was sent for. -/
def Paste.entry (p : Paste) : UInt32 × String := (p.serial, p.mime)

@[simp] theorem Paste.entry_fst (p : Paste) : p.entry.1 = p.serial := rfl

@[simp] theorem Paste.entry_snd (p : Paste) : p.entry.2 = p.mime := rfl

/-- The client has copied something else since. -/
def Paste.supersede (p : Paste) : Paste := { p with superseded := true }

/-- The orchestrator, with what it has been asked and what it has asked. -/
structure Exchange where
  orch : Orchestrator
  /-- Forwarded transfers the event loop has not reached, oldest first. -/
  requested : List (UInt32 × String)
  /-- Pastes the client has not answered, oldest first. -/
  outstanding : List Paste
  deriving DecidableEq, Repr

/-- Nothing was asked. -/
def Exchange.start (config : OrchestratorConfig) (downloadDir : String) : Exchange :=
  ⟨.new config downloadDir, [], []⟩

/-- What happens next. -/
inductive Move where
  | transfer (serial : UInt32) (mime : String)
  /-- The event loop reaches the oldest forwarded transfer. -/
  | serve (env : Env)
  /-- The client offers a selection. -/
  | offer (env : Env) (formats : List ClipboardFormat)
  /-- The client answers the oldest paste with data. -/
  | answer (env : Env) (data : List UInt8)
  /-- The client answers the oldest paste with an error. -/
  | refuse (env : Env)
  /-- Any other event. -/
  | aside (env : Env) (event : ClipboardEvent)

/-- The event has a move of its own. -/
def ClipboardEvent.isMove : ClipboardEvent → Bool
  | rdpFormatList _ | rdpDataResponse _ | rdpDataError | portalDataRequest _ => true
  | _ => false

/-- The transfers forwarded among some outputs. -/
def forwards (out : List Output) : List (UInt32 × String) :=
  out.filterMap fun
    | .forward serial mime => some (serial, mime)
    | _ => none

/-- The number of pastes sent among some outputs. -/
def pastes (out : List Output) : ℕ :=
  out.countP fun
    | .toClient (.sendInitiatePaste _) => true
    | _ => false

/-- The ownership policy accepts the offer and the selection of a provider that needs its data
upfront is retired for it. -/
def retires (lib : Libraries) (o : Orchestrator) (env : Env) (formats : List ClipboardFormat) :
    Bool :=
  (o.sync.handleRdpFormats lib.sha256 env.now formats).1 &&
    !(rdpFormatsToMimes formats).isEmpty &&
    env.provider.any fun provider =>
      provider.requiresUpfrontData && (provider.announceFormats []).toOption.isSome

/-- The offer has text that is fetched right away. -/
def fetches (lib : Libraries) (o : Orchestrator) (env : Env) (formats : List ClipboardFormat) :
    Bool :=
  retires lib o env formats && (rdpFormatsToMimes formats).any (startsWith "text/plain") &&
    hasId formats 13

/-- The answer completes the transfer of this entry. -/
def delivers (lib : Libraries) (data : List UInt8) (entry : UInt32 × String) : Bool :=
  entry.1 ≠ eagerFetchSerial &&
    !(isFileMime entry.2 && (FileDescriptor.parseList data).toOption.isSome) &&
    (toPortalData lib.codec entry.2 data).toOption.isSome

/-- One move, with the outputs of the orchestrator. Without anything to serve or to answer there is
no such move, and nothing happens. -/
def Exchange.step (lib : Libraries) (x : Exchange) : Move → Exchange × List Output
  | .transfer serial mime =>
    let r := respond lib x.orch (.transfer serial mime)
    ({ x with orch := r.orch, requested := x.requested ++ forwards r.out }, r.out)
  | .serve env =>
    match x.requested with
    | [] => (x, [])
    | (serial, mime) :: rest =>
      let r := respond lib x.orch (.event env (.portalDataRequest mime))
      ({ orch := r.orch
         requested := rest
         outstanding := x.outstanding ++ List.replicate (pastes r.out) ⟨serial, mime, false⟩ },
        r.out)
  | .offer env formats =>
    let r := respond lib x.orch (.event env (.rdpFormatList formats))
    let before := if retires lib x.orch env formats then x.outstanding.map Paste.supersede
      else x.outstanding
    ({ x with
       orch := r.orch
       outstanding :=
         before ++ List.replicate (pastes r.out) ⟨eagerFetchSerial, "text/plain", false⟩
     }, r.out)
  | .answer env data =>
    match x.outstanding with
    | [] => (x, [])
    | _ :: rest =>
      let r := respond lib x.orch (.event env (.rdpDataResponse data))
      ({ orch := r.orch, requested := x.requested ++ forwards r.out, outstanding := rest }, r.out)
  | .refuse env =>
    match x.outstanding with
    | [] => (x, [])
    | _ :: rest =>
      let r := respond lib x.orch (.event env .rdpDataError)
      ({ orch := r.orch, requested := x.requested ++ forwards r.out, outstanding := rest }, r.out)
  | .aside env e =>
    if e.isMove then (x, [])
    else
      let r := respond lib x.orch (.event env e)
      ({ x with orch := r.orch }, r.out)

/-- What a move makes the orchestrator react to. -/
def Exchange.input (x : Exchange) : Move → Option Input
  | .transfer serial mime => some (.transfer serial mime)
  | .serve env => x.requested.head?.map fun r => .event env (.portalDataRequest r.2)
  | .offer env formats => some (.event env (.rdpFormatList formats))
  | .answer env data => x.outstanding.head?.map fun _ => .event env (.rdpDataResponse data)
  | .refuse env => x.outstanding.head?.map fun _ => .event env .rdpDataError
  | .aside env e => if e.isMove then none else some (.event env e)

/-- Only an answer hands over data, and then a paste is on its way. -/
theorem Exchange.input_eq_rdpDataResponse {x : Exchange} {m : Move} {env : Env} {data : List UInt8}
    (h : x.input m = some (.event env (.rdpDataResponse data))) :
    m = .answer env data ∧ ∃ paste rest, x.outstanding = paste :: rest := by
  cases m with
  | answer env' data' =>
    obtain ⟨paste, hpaste, heq⟩ := Option.map_eq_some_iff.mp h
    obtain ⟨rest, hrest⟩ := List.head?_eq_some_iff.mp hpaste
    cases heq
    exact ⟨rfl, paste, rest, hrest⟩
  | aside env' e =>
    simp only [Exchange.input, Option.ite_none_left_eq_some] at h
    obtain ⟨he, h⟩ := h
    cases h
    exact absurd rfl he
  | _ => simp [Exchange.input] at h

/-- What is no move of its own happens on the side. -/
theorem Exchange.input_eq_event {x : Exchange} {m : Move} {env : Env} {e : ClipboardEvent}
    (h : x.input m = some (.event env e)) (he : e.isMove = false) : m = .aside env e := by
  cases m with
  | aside env' e' =>
    obtain ⟨-, h⟩ := Option.ite_none_left_eq_some.mp h
    cases h
    rfl
  | transfer serial mime => cases h
  | offer env' formats =>
    cases h
    cases he
  | _ =>
    obtain ⟨r, -, h⟩ := Option.map_eq_some_iff.mp h
    cases h
    cases he

/-- What is no move of its own leaves the queue alone. -/
theorem pending_not_mem_touches {env : Env} {e : ClipboardEvent} (he : ¬ e.isMove) :
    Field.pending ∉ (Input.event env e).touches := by
  cases e <;> simp_all [Input.touches, ClipboardEvent.isMove]

/-- Whatever comes out of a move, the orchestrator's reaction brought it out. -/
theorem Exchange.step_out {lib : Libraries} {x : Exchange} {m : Move} {output : Output}
    (h : output ∈ (x.step lib m).2) :
    ∃ i, x.input m = some i ∧ output ∈ (respond lib x.orch i).out := by
  cases m with
  | transfer serial mime => exact ⟨_, rfl, h⟩
  | offer env formats => exact ⟨_, rfl, h⟩
  | serve env =>
    rcases hreq : x.requested with _ | ⟨⟨serial, mime⟩, rest⟩
    · simp [Exchange.step, hreq] at h
    · simp only [Exchange.step, hreq] at h
      exact ⟨_, by simp [Exchange.input, hreq], h⟩
  | answer env data =>
    rcases hout : x.outstanding with _ | ⟨paste, rest⟩
    · simp [Exchange.step, hout] at h
    · simp only [Exchange.step, hout] at h
      exact ⟨_, by simp [Exchange.input, hout], h⟩
  | refuse env =>
    rcases hout : x.outstanding with _ | ⟨paste, rest⟩
    · simp [Exchange.step, hout] at h
    · simp only [Exchange.step, hout] at h
      exact ⟨_, by simp [Exchange.input, hout], h⟩
  | aside env e =>
    by_cases he : e.isMove
    · simp [Exchange.step, he] at h
    · simp only [Exchange.step, he] at h
      exact ⟨_, by simp [Exchange.input, he], h⟩

/-- The exchange as a machine. -/
def exchange (lib : Libraries) : Machine Exchange Move Output := ⟨Exchange.step lib⟩

/-! ### Reading outputs -/

@[simp] theorem forwards_append (out out' : List Output) :
    forwards (out ++ out') = forwards out ++ forwards out' :=
  List.filterMap_append ..

@[simp] theorem forwards_forwarded (entries : List (UInt32 × String)) :
    forwards (forwarded entries) = entries := by
  simp [forwards, forwarded, List.filterMap_map]

@[simp] theorem forwards_cancelled (entries : List (UInt32 × String)) :
    forwards (cancelled entries) = [] := by
  simp [forwards, cancelled, List.filterMap_map]

@[simp] theorem forwards_completeTransfer_cons (serial : UInt32) (mime : String)
    (data : List UInt8) (success : Bool) (out : List Output) :
    forwards (.completeTransfer serial mime data success :: out) = forwards out := rfl

theorem forwards_eq_nil {out : List Output} (h : ∀ o ∈ out, o.topic ≠ .forward) :
    forwards out = [] := by
  refine List.filterMap_eq_nil_iff.mpr fun o ho => ?_
  cases o with
  | forward serial mime => exact absurd rfl (h _ ho)
  | _ => rfl

/-! ### Offers -/

variable {lib : Libraries} {env : Env} {o : Orchestrator}

/-- The queue after an offer. -/
def queueAfterOffer (lib : Libraries) (o : Orchestrator) (env : Env)
    (formats : List ClipboardFormat) : List (UInt32 × String) :=
  if fetches lib o env formats then
    if env.sender = .registered then o.pendingPortalRequests ++ [(eagerFetchSerial, "text/plain")]
    else o.pendingPortalRequests.filter fun r => r.1 ≠ eagerFetchSerial
  else o.pendingPortalRequests

theorem run_eagerFetch (s : Session) :
    ((eagerFetch env).run s).2 =
      if env.sender = .registered then {
        orch := { s.orch with pendingPortalRequests :=
          s.orch.pendingPortalRequests ++ [(eagerFetchSerial, "text/plain")] }
        out := s.out ++ [.toClient (.sendInitiatePaste 13)] }
      else { s with orch := { s.orch with pendingPortalRequests :=
        s.orch.pendingPortalRequests.filter fun r => r.1 ≠ eagerFetchSerial } } := by
  by_cases h : env.sender = .registered <;> simp [eagerFetch, Prog.run_bind, h]

/-- The part of an offer that concerns the provider, in terms of the session it starts from. -/
theorem announceToProvider_queue (env : Env) (formats : List ClipboardFormat)
    (mimeTypes : List String) (s : Session) (hs : pastes s.out = 0) :
    let s' := ((announceToProvider env formats mimeTypes).run s).2
    let eager := (env.provider.any fun provider =>
        provider.requiresUpfrontData && (provider.announceFormats []).toOption.isSome) &&
      mimeTypes.any (startsWith "text/plain") && hasId formats 13
    s'.orch.pendingPortalRequests =
        (if eager then
          if env.sender = .registered then
            s.orch.pendingPortalRequests ++ [(eagerFetchSerial, "text/plain")]
          else s.orch.pendingPortalRequests.filter fun r => r.1 ≠ eagerFetchSerial
        else s.orch.pendingPortalRequests) ∧
      pastes s'.out = if eager ∧ env.sender = .registered then 1 else 0 := by
  have hpastes : ∀ m, pastes (s.out ++ [.announceFormats m]) = 0 := by
    intro m
    simpa [pastes, List.countP_append] using hs
  have hpaste : pastes (s.out ++ [.announceFormats [], .toClient (.sendInitiatePaste 13)]) = 1 := by
    simpa [pastes, List.countP_append] using hs
  rw [announceToProvider]
  rcases env.provider with _ | provider
  · simpa using hs
  · by_cases hup : provider.requiresUpfrontData
    · rcases ha : provider.announceFormats [] with e | _
      · simp [hup, ha, retireAndFetch, Prog.run_bind, hpastes, Except.toOption]
      · by_cases htext : (mimeTypes.any (startsWith "text/plain") && hasId formats 13) = true
        · by_cases hreg : env.sender = .registered
          · simp [hup, ha, htext, hreg, retireAndFetch, Prog.run_bind, run_eagerFetch, hpaste,
              Except.toOption]
          · simp [hup, ha, htext, hreg, retireAndFetch, Prog.run_bind, run_eagerFetch, hpastes,
              Except.toOption]
        · simp [hup, ha, htext, retireAndFetch, Prog.run_bind, hpastes, Except.toOption]
    · rcases ha : provider.announceFormats mimeTypes with e | _ <;>
        simp [hup, ha, Prog.run_bind, hpastes]

/-- **What an offer makes of the queue**, and whether it sends a paste. -/
theorem offer_pending (lib : Libraries) (o : Orchestrator) (env : Env)
    (formats : List ClipboardFormat) :
    (respond lib o (.event env (.rdpFormatList formats))).orch.pendingPortalRequests =
        queueAfterOffer lib o env formats ∧
      pastes (respond lib o (.event env (.rdpFormatList formats))).out =
        if fetches lib o env formats ∧ env.sender = .registered then 1 else 0 := by
  rw [queueAfterOffer, fetches, retires]
  simp only [respond, react, handleEvent, handleRdpFormatList, Prog.run_bind, run_modifyOrch,
    run_withSync, Prog.run_ite, Prog.run_pure]
  cases (o.sync.handleRdpFormats lib.sha256 env.now formats).1 with
  | false => simp [pastes]
  | true =>
    cases hempty : (rdpFormatsToMimes formats).isEmpty with
    | true => simp [pastes]
    | false =>
      simp only [if_true, Bool.false_eq_true, if_false, Bool.not_false, Bool.and_true,
        Bool.true_and]
      exact announceToProvider_queue env formats (rdpFormatsToMimes formats) _ rfl

/-! ### Answers -/

variable {provider : Provider} {data : List UInt8}

/-- The queue after an answer was used for `entry`, with `rest` left in it. -/
def queueAfterAnswer (lib : Libraries) (env : Env) (provider : Provider) (data : List UInt8)
    (entry : UInt32 × String) (rest : List (UInt32 × String)) : List (UInt32 × String) :=
  if delivers lib data entry then
    if provider.completeTransfer entry.1 entry.2 then []
    else (rest ++ env.arrivals).filter fun r => r.1 ≠ entry.1
  else rest

/-- An eager fetch or a file list leaves the rest of the queue alone, and forwards nothing. -/
theorem effect_queue {topics : List Topic} {s s' : Session} (h : Effect [] topics s s')
    (ht : Topic.forward ∉ topics) (hout : s.out = []) :
    s'.orch.pendingPortalRequests = s.orch.pendingPortalRequests ∧ forwards s'.out = [] := by
  refine ⟨h.1.pending (by decide), forwards_eq_nil fun o ho heq => ht ?_⟩
  exact heq ▸ h.topic_mem hout ho

/-- The three ways an answer is used. -/
theorem settle_cases (lib : Libraries) (env : Env) (provider : Provider) (data : List UInt8)
    (entry : UInt32 × String) :
    (entry.1 = eagerFetchSerial ∧ delivers lib data entry = false ∧
      settle lib env provider entry.1 entry.2 data = publishEagerFetch provider data) ∨
    (entry.1 ≠ eagerFetchSerial ∧ delivers lib data entry = false ∧
      ∃ descriptors, settle lib env provider entry.1 entry.2 data =
        startFileTransfer env entry.1 entry.2 descriptors) ∨
    (entry.1 ≠ eagerFetchSerial ∧
      delivers lib data entry = (toPortalData lib.codec entry.2 data).toOption.isSome ∧
      settle lib env provider entry.1 entry.2 data =
        deliver lib env provider entry.1 entry.2 data) := by
  rw [settle, delivers]
  by_cases hserial : entry.1 = eagerFetchSerial
  · exact Or.inl ⟨hserial, by simp [hserial], by simp [hserial]⟩
  · refine Or.inr ?_
    cases hfile : isFileMime entry.2 with
    | false => exact Or.inr ⟨hserial, by simp [hserial], by simp [hserial]⟩
    | true =>
      rcases hlist : FileDescriptor.parseList data with e | descriptors
      · exact Or.inr ⟨hserial, by simp [hserial, Except.toOption], by simp [hserial]⟩
      · exact Or.inl ⟨hserial, by simp [Except.toOption], descriptors, by simp [hserial]⟩

/-- **What using an answer makes of the queue**, and which arrivals it saw. -/
theorem settle_queue (entry : UInt32 × String) (s : Session) (hout : s.out = []) :
    let s' := ((settle lib env provider entry.1 entry.2 data).run s).2
    s'.orch.pendingPortalRequests =
        queueAfterAnswer lib env provider data entry s.orch.pendingPortalRequests ∧
      forwards s'.out = if delivers lib data entry then env.arrivals else [] := by
  rw [queueAfterAnswer]
  rcases settle_cases lib env provider data entry with
    ⟨-, hd, heq⟩ | ⟨-, hd, descriptors, heq⟩ | ⟨-, hd, heq⟩
  · rw [heq, hd]
    have heffect : Effects [] [.provide, .announce] (publishEagerFetch provider data) :=
      effects_publishEagerFetch provider data (by decide) (by decide)
    exact effect_queue (heffect s) (by decide) hout
  · rw [heq, hd]
    have heffect : Effects [] [.complete, .disk, .contentsRequest]
        (startFileTransfer env entry.1 entry.2 descriptors) :=
      effects_startFileTransfer _ _ _ (by decide) (by decide) (by decide)
    exact effect_queue (heffect s) (by decide) hout
  · rw [heq, hd]
    rcases hconv : toPortalData lib.codec entry.2 data with e | bytes
    · rw [run_deliver_error hconv]
      simp [Except.toOption, hout, forwards]
    · cases hc : provider.completeTransfer entry.1 entry.2 with
      | true =>
        rw [run_deliver_success hconv hc]
        simp [Except.toOption, hout]
      | false =>
        rw [run_deliver_failure hconv hc]
        simp [Except.toOption, hout]

/-- A successful completion by an answer is that of the entry it was used for. -/
theorem settle_completion {entry : UInt32 × String} {s : Session} (hout : s.out = [])
    {serial : UInt32} {mime : String} {bytes : List UInt8}
    (h : .completeTransfer serial mime bytes true ∈
      ((settle lib env provider entry.1 entry.2 data).run s).2.out) :
    (serial, mime) = entry ∧ toPortalData lib.codec mime data = .ok bytes := by
  rcases settle_cases lib env provider data entry with
    ⟨-, -, heq⟩ | ⟨-, -, descriptors, heq⟩ | ⟨-, -, heq⟩
  · have heffect : Effects [] [.provide, .announce] (publishEagerFetch provider data) :=
      effects_publishEagerFetch provider data (by decide) (by decide)
    rw [heq] at h
    exact absurd ((heffect s).topic_mem hout h) (by simp [Output.topic])
  · rw [heq] at h
    cases startFileTransfer_completion hout h
  · rw [heq] at h
    rcases hconv : toPortalData lib.codec entry.2 data with e | bytes'
    · rw [run_deliver_error hconv, hout] at h
      cases h
    · have hfirst : Output.completeTransfer serial mime bytes true =
          .completeTransfer entry.1 entry.2 bytes' true := by
        cases hc : provider.completeTransfer entry.1 entry.2 with
        | true =>
          rw [run_deliver_success hconv hc, hout] at h
          simpa using h
        | false =>
          rw [run_deliver_failure hconv hc, hout] at h
          simpa using h
      cases hfirst
      exact ⟨rfl, hconv⟩

/-- Only an eager fetch publishes anything. -/
theorem settle_publication {entry : UInt32 × String} {s : Session} (hout : s.out = [])
    {output : Output}
    (h : output ∈ ((settle lib env provider entry.1 entry.2 data).run s).2.out)
    (htopic : output.topic = .provide ∨ output.topic = .announce) :
    entry.1 = eagerFetchSerial := by
  rcases settle_cases lib env provider data entry with
    ⟨hserial, -, -⟩ | ⟨-, -, descriptors, heq⟩ | ⟨-, -, heq⟩
  · exact hserial
  · have heffect : Effects [] [.complete, .disk, .contentsRequest]
        (startFileTransfer env entry.1 entry.2 descriptors) :=
      effects_startFileTransfer _ _ _ (by decide) (by decide) (by decide)
    rw [heq] at h
    have hmem := (heffect s).topic_mem hout h
    rcases htopic with ht | ht <;> simp [ht] at hmem
  · have heffect : Effects [.pending] [.complete, .forward]
        (deliver lib env provider entry.1 entry.2 data) :=
      effects_deliver _ _ _ _ (by decide) (by decide) (by decide)
    rw [heq] at h
    have hmem := (heffect s).topic_mem hout h
    rcases htopic with ht | ht <;> simp [ht] at hmem

/-! ### The moves -/

/-- The answer is matched with the head of the queue and is never taken for a loop. -/
theorem answer_pending (lib : Libraries) (data : List UInt8) (hc : o.sync.ClientContent)
    (hp : env.provider = some provider) {entry : UInt32 × String} {rest : List (UInt32 × String)}
    (hq : o.pendingPortalRequests = entry :: rest) :
    let s' := respond lib o (.event env (.rdpDataResponse data))
    s'.orch.pendingPortalRequests = queueAfterAnswer lib env provider data entry rest ∧
      forwards s'.out = if delivers lib data entry then env.arrivals else [] := by
  rw [respond_rdpDataResponse_cons (SyncManager.checkContent_of_clientContent hc data) hp hq]
  exact settle_queue entry (answerNoted lib o env data rest) rfl

/-- Without a provider, or with nothing to match it with, an answer does nothing to the queue. -/
theorem answer_ignored (lib : Libraries) (data : List UInt8)
    (h : env.provider = none ∨ o.pendingPortalRequests = []) :
    let s' := respond lib o (.event env (.rdpDataResponse data))
    s'.orch.pendingPortalRequests = o.pendingPortalRequests ∧ s'.out = [] := by
  simp only [respond, react, handleEvent, handleRdpDataResponse, Prog.run_bind, run_withSync,
    Prog.run_ite, Prog.run_pure]
  split
  · rcases hp : env.provider with _ | provider
    · exact ⟨rfl, rfl⟩
    · have hq := h.resolve_left (by simp [hp])
      simp [hq, Prog.run_bind]
  · exact ⟨rfl, rfl⟩

theorem refuse_pending (lib : Libraries) (o : Orchestrator) (env : Env) :
    let s' := respond lib o (.event env .rdpDataError)
    s'.orch.pendingPortalRequests = [] ∧ forwards s'.out = env.arrivals := by
  by_cases hp : env.provider.isSome <;>
    simp [respond, react, handleEvent, handleRdpDataError, Prog.run_bind, whenProvider, hp,
      run_cancelAll, run_arrive]

theorem transfer_pending (lib : Libraries) (o : Orchestrator) (serial : UInt32)
    (mime : String) :
    let s' := respond lib o (.transfer serial mime)
    s'.orch.pendingPortalRequests = o.pendingPortalRequests ++ [(serial, mime)] ∧
      forwards s'.out = [(serial, mime)] :=
  ⟨rfl, rfl⟩

/-- A data request is passed on to the client if its type is known and the client is there. -/
theorem serve_pastes (mime : String) :
    pastes (respond lib o (.event env (.portalDataRequest mime))).out =
      if (requestedFormat o.currentRdpFormats mime).isSome ∧ env.sender = .registered then 1
      else 0 := by
  rcases hf : requestedFormat o.currentRdpFormats mime with _ | formatId
  · simp [respond, react, handleEvent, handlePortalDataRequest, Prog.run_bind, hf, pastes]
  · by_cases hr : env.sender = .registered <;>
      simp [respond, react, handleEvent, handlePortalDataRequest, Prog.run_bind, hf, pastes, hr]

/-- Whatever an answer leads to comes from settling the head of the queue. -/
theorem mem_answer {output : Output}
    (h : output ∈ (respond lib o (.event env (.rdpDataResponse data))).out) :
    ∃ provider entry rest, o.pendingPortalRequests = entry :: rest ∧
      output ∈ ((settle lib env provider entry.1 entry.2 data).run
        (answerNoted lib o env data rest)).2.out := by
  rcases hp : env.provider with _ | provider
  · rw [(answer_ignored lib data (Or.inl hp)).2] at h
    cases h
  · rcases hq : o.pendingPortalRequests with _ | ⟨entry, rest⟩
    · rw [(answer_ignored lib data (Or.inr hq)).2] at h
      cases h
    · cases hcheck : (o.sync.checkContent lib.sha256 env.now data true).1 with
      | false =>
        rw [respond_rdpDataResponse_loop hcheck] at h
        cases h
      | true =>
        rw [respond_rdpDataResponse_cons hcheck hp hq] at h
        exact ⟨provider, entry, rest, rfl, h⟩

/-- A successful completion by an answer is that of the head of the queue. -/
theorem answer_completion {serial : UInt32} {mime : String} {bytes : List UInt8}
    (h : .completeTransfer serial mime bytes true ∈
      (respond lib o (.event env (.rdpDataResponse data))).out) :
    o.pendingPortalRequests.head? = some (serial, mime) ∧
      toPortalData lib.codec mime data = .ok bytes := by
  obtain ⟨provider, entry, rest, hq, hout⟩ := mem_answer h
  obtain ⟨rfl, hconv⟩ := settle_completion rfl hout
  rw [hq]
  exact ⟨rfl, hconv⟩

/-- An error completes nothing with success. -/
theorem refuse_completion {serial : UInt32} {mime : String} {bytes : List UInt8} {success : Bool}
    (h : .completeTransfer serial mime bytes success ∈
      (respond lib o (.event env .rdpDataError)).out) : success = false := by
  by_cases hp : env.provider.isSome
  · have hentry : (serial, mime) ∈ o.pendingPortalRequests ∧ bytes = [] ∧ success = false := by
      simpa [respond, react, handleEvent, handleRdpDataError, Prog.run_bind, whenProvider, hp,
        run_cancelAll, run_arrive] using h
    exact hentry.2.2
  · simp [respond, react, handleEvent, handleRdpDataError, Prog.run_bind, whenProvider, hp,
      run_arrive] at h

/-- An answer publishes only if the head of the queue is an eager fetch. -/
theorem answer_publication {output : Output}
    (h : output ∈ (respond lib o (.event env (.rdpDataResponse data))).out)
    (htopic : output.topic = .provide ∨ output.topic = .announce) :
    ∃ entry rest, o.pendingPortalRequests = entry :: rest ∧ entry.1 = eagerFetchSerial := by
  obtain ⟨provider, entry, rest, hq, hout⟩ := mem_answer h
  exact ⟨entry, rest, hq, settle_publication rfl hout htopic⟩

end Clipboard

end Cheirizo
