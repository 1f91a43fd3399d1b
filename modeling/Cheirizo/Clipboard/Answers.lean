import Cheirizo.Clipboard.Effects

/-!
# Every request is answered

Two questions about single events. Does an answer of the client settle the paste it is matched
with, so that the application waiting for it is told something? And does a request of the client get
exactly one answer? Both handlers leave by many doors, and some of them forget the answer; the
results say exactly when.

## Main definitions

* `Settled` — a paste is completed, published, or waits for files that are being received
* `AnswerHandled`, `AnswerUsable` — what an answer should do to the queue, and when it does
* `AnswersData`, `AnswersContents` — exactly one answer to a request

## Main results

* `answerHandled_iff` — an answer settles what it removes exactly if it is usable
* `answers_iff` — a request is answered exactly once, unless a conversion or the index fails
-/

namespace Cheirizo

namespace Clipboard

variable {lib : Libraries} {env : Env} {o : Orchestrator}

/-! ### Delivering an answer -/

theorem run_deliver_error {provider : Provider} {serial : UInt32} {mime : String}
    {data : List UInt8} {e : CoreError} (h : toPortalData lib.codec mime data = .error e)
    (s : Session) :
    (deliver lib env provider serial mime data).run s = (.error (.core e), s) := by
  simp [deliver, h]

/-- A successful delivery empties the queue and cancels what was left in it. -/
theorem run_deliver_success {provider : Provider} {serial : UInt32} {mime : String}
    {data bytes : List UInt8} (h : toPortalData lib.codec mime data = .ok bytes)
    (hc : provider.completeTransfer serial mime = true) (s : Session) :
    (deliver lib env provider serial mime data).run s =
      (.ok ⟨⟩, {
        orch := { s.orch with pendingPortalRequests := [] }
        out := s.out ++ .completeTransfer serial mime bytes true :: forwarded env.arrivals ++
          cancelled ((s.orch.pendingPortalRequests ++ env.arrivals).filter fun r => r.1 ≠ serial)
        }) := by
  simp [deliver, h, hc, Prog.run_bind, run_arrive, run_cancelAll]

/-- A delivery the provider refuses forgets every entry of its serial. -/
theorem run_deliver_failure {provider : Provider} {serial : UInt32} {mime : String}
    {data bytes : List UInt8} (h : toPortalData lib.codec mime data = .ok bytes)
    (hc : provider.completeTransfer serial mime = false) (s : Session) :
    (deliver lib env provider serial mime data).run s =
      (.ok ⟨⟩, {
        orch := { s.orch with pendingPortalRequests :=
          (s.orch.pendingPortalRequests ++ env.arrivals).filter fun r => r.1 ≠ serial }
        out := s.out ++ .completeTransfer serial mime bytes true :: forwarded env.arrivals }) := by
  simp [deliver, h, hc, Prog.run_bind, run_arrive]

/-! ### Starting a file transfer -/

/-- The `i`-th described file can be opened for receiving. -/
def opensFile (disk : Disk) (files : FileTransferState) (i : ℕ) (descriptor : FileDescriptor) :
    Bool :=
  disk.createsDownloadDir &&
    disk.createsFile (files.tempPath (sanitizeFilenameForLinux descriptor.name)
      (files.nextStreamId + UInt32.ofNat i))

/-- Some described file can be opened for receiving. -/
def OpensSome (disk : Disk) (files : FileTransferState) (descriptors : List FileDescriptor) :
    Prop :=
  ∃ i d, descriptors[i]? = some d ∧ opensFile disk files i d

theorem opensSome_cons {disk : Disk} {files : FileTransferState} {d : FileDescriptor}
    {rest : List FileDescriptor} :
    OpensSome disk files (d :: rest) ↔
      opensFile disk files 0 d ∨ ∃ i d', rest[i]? = some d' ∧ opensFile disk files (i + 1) d' := by
  constructor
  · rintro ⟨_ | i, d', hd, h⟩
    · obtain rfl : d = d' := by simpa using hd
      exact Or.inl h
    · exact Or.inr ⟨i, d', by simpa using hd, h⟩
  · rintro (h | ⟨i, d', hd, h⟩)
    · exact ⟨0, d, rfl, h⟩
    · exact ⟨i + 1, d', by simpa using hd, h⟩

/-- Preparing a file takes a stream, and opens a file for it if that is possible. -/
theorem requestFile_files (env : Env) (index : ℕ) (descriptor : FileDescriptor) (s : Session) :
    ∃ file, ((requestFile env index descriptor).run s).2.orch.files =
      if opensFile env.disk s.orch.files 0 descriptor then
        s.orch.files.allocateStreamId.2.insertIncoming s.orch.files.nextStreamId file
      else s.orch.files.allocateStreamId.2 := by
  have hopens : opensFile env.disk s.orch.files 0 descriptor =
      (env.disk.createsDownloadDir && env.disk.createsFile
        (s.orch.files.allocateStreamId.2.tempPath (sanitizeFilenameForLinux descriptor.name)
          s.orch.files.allocateStreamId.1)) := by
    simp [opensFile, FileTransferState.tempPath, FileTransferState.allocateStreamId]
  rw [hopens]
  simp only [requestFile, Prog.run_bind, Prog.run_gets, run_modifyFiles, Prog.run_ite, run_emit,
    run_send, Prog.run_pure]
  split
  · split <;> exact ⟨_, rfl⟩
  · exact ⟨⟨"", none, false, 0, "", [], 0, 0⟩, rfl⟩

theorem requestFile_ok (index : ℕ) (descriptor : FileDescriptor) (s : Session) :
    ((requestFile env index descriptor).run s).1 = .ok ⟨⟩ := by
  simp only [requestFile, Prog.run_bind, Prog.run_gets, run_modifyFiles, Prog.run_ite, run_emit,
    run_send, Prog.run_pure]
  split <;> rfl

theorem run_requestFiles_cons (index : ℕ) (descriptor : FileDescriptor)
    (rest : List FileDescriptor) (s : Session) :
    (requestFiles env index (descriptor :: rest)).run s =
      (requestFiles env (index + 1) rest).run ((requestFile env index descriptor).run s).2 :=
  Prog.run_bind_of_ok (requestFile_ok index descriptor s)

/-- **A transfer has files exactly if one of them could be opened.** The serial it is for is not
touched on the way. -/
theorem requestFiles_files (env : Env) (descriptors : List FileDescriptor) (index : ℕ)
    (s : Session) :
    ((requestFiles env index descriptors).run s).2.orch.files.portalSerial =
        s.orch.files.portalSerial ∧
      (((requestFiles env index descriptors).run s).2.orch.files.incomingFiles ≠ [] ↔
        s.orch.files.incomingFiles ≠ [] ∨ OpensSome env.disk s.orch.files descriptors) := by
  induction descriptors generalizing index s with
  | nil => simp [requestFiles, OpensSome]
  | cons d rest ih =>
    obtain ⟨file, hfiles⟩ := requestFile_files env index d s
    -- Streams are numbered consecutively, whether or not their files could be opened.
    have hshift : ∀ files', files' = ((requestFile env index d).run s).2.orch.files →
        ∀ i d', opensFile env.disk files' i d' = opensFile env.disk s.orch.files (i + 1) d' := by
      intro files' h' i d'
      rw [h', hfiles]
      have hid : s.orch.files.nextStreamId + 1 + UInt32.ofNat i =
          s.orch.files.nextStreamId + UInt32.ofNat (i + 1) := by
        rw [UInt32.ofNat_add, UInt32.add_assoc, UInt32.add_comm 1]
        rfl
      split <;> simp [opensFile, FileTransferState.tempPath, FileTransferState.insertIncoming,
        FileTransferState.allocateStreamId, hid]
    rw [run_requestFiles_cons]
    obtain ⟨hserial, hincoming⟩ := ih (index + 1) ((requestFile env index d).run s).2
    refine ⟨hserial.trans ?_, hincoming.trans ?_⟩
    · rw [hfiles]
      split <;> rfl
    · rw [opensSome_cons]
      simp only [OpensSome, hshift _ rfl]
      rw [hfiles]
      by_cases hopen : opensFile env.disk s.orch.files 0 d
      · simp [hopen, FileTransferState.insertIncoming]
      · simp [hopen, FileTransferState.allocateStreamId]

theorem run_startFileTransfer_busy {serial : UInt32} {mime : String}
    {descriptors : List FileDescriptor} {s : Session}
    (h : s.orch.files.incomingFiles ≠ [] ∨ env.sender = .unregistered) :
    (startFileTransfer env serial mime descriptors).run s =
      (.ok ⟨⟩, { s with out := s.out ++ [.completeTransfer serial mime [] false] }) := by
  rcases h with h | h <;> simp [startFileTransfer, Prog.run_bind, h]

/-- The session from which the files of a new transfer are requested. -/
def beginTransfer (s : Session) (serial : UInt32) (descriptors : List FileDescriptor) :
    Session where
  orch := { s.orch with
    files := { s.orch.files.clearIncoming.setPendingDescriptors descriptors with
      portalSerial := some serial } }
  out := s.out ++ s.orch.files.tempPaths.map .removeFile

theorem run_startFileTransfer_idle {serial : UInt32} {mime : String}
    {descriptors : List FileDescriptor} {s : Session} (hidle : s.orch.files.incomingFiles = [])
    (hsender : env.sender ≠ .unregistered) :
    (startFileTransfer env serial mime descriptors).run s =
      (requestFiles env 0 descriptors).run (beginTransfer s serial descriptors) := by
  simp [startFileTransfer, Prog.run_bind, hidle, hsender, run_clearIncomingFiles, beginTransfer]

/-- A transfer that starts is for the serial of its paste, and completes nothing yet. -/
theorem startFileTransfer_idle {serial : UInt32} {mime : String}
    {descriptors : List FileDescriptor} {s : Session} (hidle : s.orch.files.incomingFiles = [])
    (hsender : env.sender ≠ .unregistered) :
    let s' := ((startFileTransfer env serial mime descriptors).run s).2
    Effect [] [.disk, .contentsRequest] s s' ∧ s'.orch.files.portalSerial = some serial ∧
      (s'.orch.files.incomingFiles ≠ [] ↔ OpensSome env.disk s.orch.files descriptors) := by
  have hrequest : Effects [] [.disk, .contentsRequest] (requestFiles env 0 descriptors) :=
    effects_requestFiles (by decide) (by decide) 0 descriptors
  have hbegin : Effect [] [.disk, .contentsRequest] s (beginTransfer s serial descriptors) := by
    refine ⟨{ Keeps.refl [] s.orch with }, _, rfl, ?_⟩
    intro o ho
    obtain ⟨path, -, rfl⟩ := List.mem_map.mp ho
    exact List.mem_cons_self ..
  obtain ⟨hserial, hincoming⟩ :=
    requestFiles_files env descriptors 0 (beginTransfer s serial descriptors)
  rw [run_startFileTransfer_idle hidle hsender]
  refine ⟨IsTrans.trans _ _ _ hbegin (hrequest _), hserial, hincoming.trans ?_⟩
  exact ⟨fun h => h.resolve_left fun hn => hn rfl, Or.inr⟩

/-- No transfer is completed with success by starting one. -/
theorem startFileTransfer_completion {serial : UInt32} {mime : String}
    {descriptors : List FileDescriptor} {s : Session} (hout : s.out = []) {serial' : UInt32}
    {mime' : String} {bytes : List UInt8} {success : Bool}
    (h : .completeTransfer serial' mime' bytes success ∈
      ((startFileTransfer env serial mime descriptors).run s).2.out) : success = false := by
  by_cases hbusy : s.orch.files.incomingFiles ≠ [] ∨ env.sender = .unregistered
  · rw [run_startFileTransfer_busy hbusy, hout] at h
    simp only [List.nil_append, List.mem_singleton, Output.completeTransfer.injEq] at h
    exact h.2.2.2
  · obtain ⟨hidle, hsender⟩ := not_or.mp hbusy
    have htopic := (startFileTransfer_idle (not_not.mp hidle) hsender).1.topic_mem hout h
    simp [Output.topic] at htopic

/-! ### Settling -/

/-- The provider was told about this serial. -/
def Completed (out : List Output) (serial : UInt32) : Prop :=
  ∃ mime data success, Output.completeTransfer serial mime data success ∈ out

/-- The paste with this serial is completed, published as an eager fetch, or waits for a file
transfer that was started for it and has a file to receive. -/
def Settled (o : Orchestrator) (s' : Session) (serial : UInt32) : Prop :=
  Completed s'.out serial ∨
    (serial = eagerFetchSerial ∧ ∃ mime data, Output.provideData mime data ∈ s'.out) ∨
    (o.files.incomingFiles = [] ∧ s'.orch.files.portalSerial = some serial ∧
      s'.orch.files.incomingFiles ≠ [])

/-- An answer of the client leaves the queue as it is, or settles the entry it removes and drops no
other entry, old or new, without completing its serial. -/
def AnswerHandled (lib : Libraries) (o : Orchestrator) (env : Env) (data : List UInt8) : Prop :=
  let s' := respond lib o (.event env (.rdpDataResponse data))
  s'.orch.pendingPortalRequests = o.pendingPortalRequests ∨
    ∃ serial mime rest, o.pendingPortalRequests = (serial, mime) :: rest ∧ Settled o s' serial ∧
      ∀ r, (r ∈ rest ∨ Output.forward r.1 r.2 ∈ s'.out) →
        r ∈ s'.orch.pendingPortalRequests ∨ Completed s'.out r.1

/-- The answer can be used for an entry: an eager fetch needs a character, a file list a transfer
that is refused or has a file that can be opened, anything else a conversion that succeeds. -/
def UsableFor (lib : Libraries) (o : Orchestrator) (env : Env) (data : List UInt8)
    (serial : UInt32) (mime : String) : Prop :=
  if serial = eagerFetchSerial then 2 ≤ data.length
  else
    match isFileMime mime, FileDescriptor.parseList data with
    | true, .ok descriptors =>
      o.files.incomingFiles ≠ [] ∨ env.sender = .unregistered ∨
        OpensSome env.disk o.files descriptors
    | _, _ => ∃ bytes, toPortalData lib.codec mime data = .ok bytes

/-- The answer is taken for a loop, or there is nothing to match it with, or it can be used. -/
def AnswerUsable (lib : Libraries) (o : Orchestrator) (env : Env) (data : List UInt8) : Prop :=
  (o.sync.checkContent lib.sha256 env.now data true).1 = false ∨
    ∀ serial mime rest, o.pendingPortalRequests = (serial, mime) :: rest →
      UsableFor lib o env data serial mime

/-- What using an answer for an entry does, in terms of whether it can be used. -/
structure Settles (o : Orchestrator) (s s' : Session) (serial : UInt32) (usable : Prop) : Prop where
  settled : Settled o s' serial ↔ usable
  kept : ∀ r, (r ∈ s.orch.pendingPortalRequests ∨ Output.forward r.1 r.2 ∈ s'.out) →
    r ∈ s'.orch.pendingPortalRequests ∨ Completed s'.out r.1
  changed : ∀ mime, s'.orch.pendingPortalRequests ≠ (serial, mime) :: s.orch.pendingPortalRequests

/-- The session right after an entry was removed from the queue. -/
structure Popped (o : Orchestrator) (s : Session) : Prop where
  files : s.orch.files = o.files
  out : s.out = []

variable {s : Session} {provider : Provider} {serial : UInt32} {mime : String} {data : List UInt8}

/-- Nothing happened: the entry is gone and its serial is not settled. -/
theorem Popped.settles_false (h : Popped o s) : Settles o s s serial False where
  settled := by
    simp only [Settled, Completed, h.out, h.files]
    simp only [List.not_mem_nil, exists_false, and_false, false_or, iff_false]
    rintro ⟨hempty, -, hne⟩
    exact hne hempty
  kept r hr := by
    rw [h.out] at hr
    exact Or.inl (hr.resolve_right List.not_mem_nil)
  changed mime heq := by simpa using congrArg List.length heq

theorem run_publishEagerFetch (hlen : 2 ≤ data.length) (s : Session) :
    ((publishEagerFetch provider data).run s).2 =
      { s with out := s.out ++ [.provideData "text/plain" (clientText data),
          .provideData "text/plain;charset=utf-8" (clientText data)] ++
        if provider.requiresUpfrontData then
          [.announceFormats ["text/plain", "text/plain;charset=utf-8"]] else [] } := by
  by_cases hup : provider.requiresUpfrontData <;>
    simp [publishEagerFetch, hlen, Prog.run_bind, hup]

theorem Popped.settles_publish (h : Popped o s) :
    Settles o s ((publishEagerFetch provider data).run s).2 eagerFetchSerial
      (2 ≤ data.length) := by
  by_cases hlen : 2 ≤ data.length
  · rw [run_publishEagerFetch hlen]
    refine ⟨⟨fun _ => hlen, fun _ => Or.inr (Or.inl ⟨rfl, "text/plain", clientText data, ?_⟩)⟩,
      fun r hr => Or.inl (hr.resolve_right ?_), fun mime heq => ?_⟩
    · simp
    · rw [h.out]
      split <;> simp
    · simpa using congrArg List.length heq
  · have hrun : ((publishEagerFetch provider data).run s).2 = s := by
      simp [publishEagerFetch, hlen]
    rw [hrun, show (2 ≤ data.length) = False from eq_false hlen]
    exact h.settles_false

theorem Popped.settles_start (h : Popped o s) (descriptors : List FileDescriptor) :
    Settles o s ((startFileTransfer env serial mime descriptors).run s).2 serial
      (o.files.incomingFiles ≠ [] ∨ env.sender = .unregistered ∨
        OpensSome env.disk o.files descriptors) := by
  by_cases hbusy : o.files.incomingFiles ≠ [] ∨ env.sender = .unregistered
  · have hcompleted : Completed (s.out ++ [Output.completeTransfer serial mime [] false]) serial :=
      ⟨mime, [], false, by simp⟩
    rw [run_startFileTransfer_busy (by rwa [h.files])]
    refine ⟨⟨fun _ => ?_, fun _ => Or.inl hcompleted⟩,
      fun r hr => Or.inl (hr.resolve_right ?_), fun mime heq => ?_⟩
    · rwa [← or_assoc, or_iff_left_of_imp fun _ => hbusy]
    · simp [h.out]
    · simpa using congrArg List.length heq
  · obtain ⟨hidle, hsender⟩ := not_or.mp hbusy
    rw [not_not] at hidle
    obtain ⟨heffect, hserial, hincoming⟩ := startFileTransfer_idle (by rwa [h.files]) hsender
    rw [h.files] at hincoming
    -- Nothing is completed or published on the way, so the serial hangs on the files alone.
    refine ⟨?_, fun r hr => Or.inl ?_, fun mime heq => ?_⟩
    · rw [or_iff_right (not_not.mpr hidle), or_iff_right hsender, ← hincoming]
      constructor
      · rintro (⟨m, d, b, hmem⟩ | ⟨-, m, d, hmem⟩ | ⟨-, -, hne⟩)
        · exact absurd (heffect.topic_mem h.out hmem) (by simp [Output.topic])
        · exact absurd (heffect.topic_mem h.out hmem) (by simp [Output.topic])
        · exact hne
      · exact fun hne => Or.inr (Or.inr ⟨hidle, hserial, hne⟩)
    · rw [heffect.1.pending (by decide)]
      refine hr.resolve_right fun hmem => ?_
      exact absurd (heffect.topic_mem h.out hmem) (by simp [Output.topic])
    · rw [heffect.1.pending (by decide)] at heq
      simpa using congrArg List.length heq

theorem Popped.settles_deliver (h : Popped o s) :
    Settles o s ((deliver lib env provider serial mime data).run s).2 serial
      (∃ bytes, toPortalData lib.codec mime data = .ok bytes) := by
  rcases hconv : toPortalData lib.codec mime data with e | bytes
  · rw [run_deliver_error hconv]
    simpa using h.settles_false
  · cases hc : provider.completeTransfer serial mime with
    | true =>
      rw [run_deliver_success hconv hc]
      have hcompleted : Completed (s.out ++ .completeTransfer serial mime bytes true ::
          forwarded env.arrivals ++ cancelled ((s.orch.pendingPortalRequests ++
            env.arrivals).filter fun r => r.1 ≠ serial)) serial :=
        ⟨mime, bytes, true, by simp⟩
      refine ⟨⟨fun _ => ⟨bytes, rfl⟩, fun _ => Or.inl hcompleted⟩, fun r hr => Or.inr ?_, by simp⟩
      by_cases hserial : r.1 = serial
      · rwa [hserial]
      · have hmem : r ∈ s.orch.pendingPortalRequests ∨ r ∈ env.arrivals := by
          simpa [h.out] using hr
        exact ⟨r.2, [], false, by simpa [h.out, hserial] using hmem⟩
    | false =>
      rw [run_deliver_failure hconv hc]
      have hcompleted : Completed (s.out ++ .completeTransfer serial mime bytes true ::
          forwarded env.arrivals) serial :=
        ⟨mime, bytes, true, by simp⟩
      refine ⟨⟨fun _ => ⟨bytes, rfl⟩, fun _ => Or.inl hcompleted⟩, fun r hr => ?_,
        fun mime' heq => ?_⟩
      · by_cases hserial : r.1 = serial
        · rw [hserial]
          exact Or.inr hcompleted
        · have hmem : r ∈ s.orch.pendingPortalRequests ∨ r ∈ env.arrivals := by
            simpa [h.out] using hr
          exact Or.inl (by simpa [hserial] using hmem)
      · have hmem : (serial, mime') ∈ (s.orch.pendingPortalRequests ++ env.arrivals).filter
            fun r => r.1 ≠ serial := by
          rw [show List.filter _ _ = _ from heq]
          exact List.mem_cons_self ..
        simp at hmem

/-- **Using an answer settles its entry exactly if it can be used for it.** -/
theorem Popped.settles (h : Popped o s) (lib : Libraries) (env : Env) (provider : Provider)
    (serial : UInt32) (mime : String) (data : List UInt8) :
    Settles o s ((settle lib env provider serial mime data).run s).2 serial
      (UsableFor lib o env data serial mime) := by
  unfold settle UsableFor
  by_cases hserial : serial = eagerFetchSerial
  · simp only [hserial, if_true]
    exact h.settles_publish
  · simp only [hserial, if_false]
    cases hfile : isFileMime mime with
    | false => exact h.settles_deliver
    | true =>
      rcases hlist : FileDescriptor.parseList data with e | descriptors
      · exact h.settles_deliver
      · exact h.settles_start descriptors

/-- The session in which an answer has been noted and the given entries are left in the queue. -/
def answerNoted (lib : Libraries) (o : Orchestrator) (env : Env) (data : List UInt8)
    (pending : List (UInt32 × String)) : Session where
  orch := { o with
    sync := (o.sync.checkContent lib.sha256 env.now data true).2
    pendingPortalRequests := pending }
  out := []

theorem respond_rdpDataResponse_loop
    (hcheck : (o.sync.checkContent lib.sha256 env.now data true).1 = false) :
    respond lib o (.event env (.rdpDataResponse data)) =
      answerNoted lib o env data o.pendingPortalRequests := by
  simp [respond, react, handleEvent, handleRdpDataResponse, Prog.run_bind, hcheck, answerNoted]

theorem respond_rdpDataResponse_nil (hp : env.provider = some provider)
    (hq : o.pendingPortalRequests = []) :
    respond lib o (.event env (.rdpDataResponse data)) = answerNoted lib o env data [] := by
  simp [respond, react, handleEvent, handleRdpDataResponse, Prog.run_bind, hp, hq, answerNoted]

/-- The answer as the handler meets it, once the entry it is matched with has been removed. -/
theorem respond_rdpDataResponse_cons {rest : List (UInt32 × String)}
    (hcheck : (o.sync.checkContent lib.sha256 env.now data true).1 = true)
    (hp : env.provider = some provider) (hq : o.pendingPortalRequests = (serial, mime) :: rest) :
    respond lib o (.event env (.rdpDataResponse data)) =
      ((settle lib env provider serial mime data).run (answerNoted lib o env data rest)).2 := by
  simp [respond, react, handleEvent, handleRdpDataResponse, Prog.run_bind, hcheck, hp, hq,
    answerNoted]

/-- **An answer settles what it removes exactly if it is usable.** -/
theorem answerHandled_iff (lib : Libraries) (o : Orchestrator) (env : Env) (provider : Provider)
    (data : List UInt8) :
    AnswerHandled lib o { env with provider := some provider } data ↔
      AnswerUsable lib o { env with provider := some provider } data := by
  generalize henv : { env with provider := some provider } = env'
  have hp : env'.provider = some provider := by rw [← henv]
  rw [AnswerHandled, AnswerUsable]
  cases hcheck : (o.sync.checkContent lib.sha256 env'.now data true).1 with
  | false =>
    rw [respond_rdpDataResponse_loop hcheck]
    exact ⟨fun _ => Or.inl rfl, fun _ => Or.inl rfl⟩
  | true =>
    rcases hq : o.pendingPortalRequests with _ | ⟨⟨serial, mime⟩, rest⟩
    · rw [respond_rdpDataResponse_nil hp hq]
      exact ⟨fun _ => Or.inr fun _ _ _ h => (List.cons_ne_nil _ _ h.symm).elim, fun _ => Or.inl rfl⟩
    · have hpopped : Popped o (answerNoted lib o env' data rest) := ⟨rfl, rfl⟩
      obtain ⟨hsettled, hkept, hchanged⟩ := hpopped.settles lib env' provider serial mime data
      rw [respond_rdpDataResponse_cons hcheck hp hq]
      constructor
      · rintro (hsame | ⟨serial', mime', rest', heq, hdone, -⟩)
        · exact absurd hsame (hchanged mime)
        · refine Or.inr fun serial'' mime'' rest'' heq' => ?_
          cases heq
          cases heq'
          exact hsettled.mp hdone
      · rintro (hfalse | husable)
        · cases hfalse
        · exact Or.inr ⟨serial, mime, rest, rfl, hsettled.mpr (husable serial mime rest rfl), hkept⟩

/-- Digests of the payloads used in the examples below and downstream. -/
def sampleDigests : List (List UInt8 × String) :=
  [([0x28, 0x00], "e4ab5012eff32a5171b3672b59d29950fe8b3dcb4d2dadf971ebbcbc2fbb0d41"),
    ([0x41, 0x00], "e61c21ca716b3b1aefb7d1198f83679c4ca4d596e5792275dd6203b49216237d"),
    ([0x42, 0x00], "f6c6e57cc3dac1d6a2349701056ff5a3e48134efe4496a8c0f5cb9fc9e6dfc12"),
    ([13, 0, 0, 0], "43c66c260828c9839f26474151db105481ff92f5e01377f75389d4ce3d2dd574"),
    ([13, 0, 0, 0, 1, 0, 0, 0],
      "0a5d26fc767094f319b06b14638a34eb26667bd8e42ecc3fff12b9e7c31e90f5")]

/-- An image library that is only ever given data it rejects. -/
def rejectingCodec : ImageCodec where
  decodePng _ := .error "Format error decoding Png: Invalid PNG signature."
  decodeJpeg _ := .error "Format error decoding Jpeg: Illegal start bytes"
  encodePng _ := .error "unsupported"
  encodeJpeg _ := .error "unsupported"

/-- The fingerprints of the samples are told apart, and no picture decodes. -/
def sampleLibraries : Libraries where
  sha256 data := (sampleDigests.lookup data).getD ""
  codec := rejectingCodec

/-- Everything enabled, and the default loop window. -/
def sampleConfig : OrchestratorConfig := ⟨true, true, true, true, 500⟩

/-- An empty download directory in which everything succeeds. -/
def sampleDisk : Disk where
  existing := []
  metadata _ := none
  createsDownloadDir := true
  createsFile _ := true
  readsChunk _ _ _ := none
  writes := .ok ()
  flushes := .ok ()
  renames _ _ := .ok ()

/-- A provider that serves nothing and accepts everything. -/
def sampleProvider : Provider where
  requiresUpfrontData := false
  announceFormats _ := .ok ()
  readData _ := none
  completeTransfer _ _ := true

/-- A provider is there, and the protocol back end is registered. -/
def sampleEnv : Env where
  now := 0
  sender := .registered
  provider := some sampleProvider
  disk := sampleDisk
  arrivals := []

/-- The orchestrator after an application asked for an image. -/
def imageRequested : Orchestrator :=
  (respond sampleLibraries (.new sampleConfig "/home/user/Downloads")
    (.transfer 7 "image/png")).orch

/-- A truncated bitmap removes the paste from the queue and tells nobody. -/
theorem truncated_bitmap_drops_paste :
    ¬ AnswerHandled sampleLibraries imageRequested sampleEnv [0x28, 0x00] := by
  have hrespond : respond sampleLibraries imageRequested
      (.event sampleEnv (.rdpDataResponse [0x28, 0x00])) =
        answerNoted sampleLibraries imageRequested sampleEnv [0x28, 0x00] [] := by rfl
  have hpopped : Popped imageRequested
      (answerNoted sampleLibraries imageRequested sampleEnv [0x28, 0x00] []) := ⟨rfl, rfl⟩
  rw [AnswerHandled]
  rw [hrespond]
  rintro (hsame | ⟨serial, mime, rest, -, hsettled, -⟩)
  · exact absurd hsame (by decide)
  · exact hpopped.settles_false.settled.mp hsettled

/-! ### Requests of the client -/

/-- The answers to data requests among some outputs. -/
def dataAnswers (out : List Output) : List FormatDataResponse :=
  out.filterMap fun
    | .toClient (.sendFormatData response) => some response
    | _ => none

/-- The answers to file contents requests among some outputs. -/
def contentsAnswers (out : List Output) : List FileContentsResponse :=
  out.filterMap fun
    | .toClient (.sendFileContentsResponse response) => some response
    | _ => none

/-- A request for data is answered exactly once. -/
def AnswersData (lib : Libraries) (o : Orchestrator) (env : Env) (formatId : UInt32) : Prop :=
  ∃ response,
    dataAnswers (respond lib o (.event env (.rdpDataRequest formatId))).out = [response]

/-- A request for file contents is answered exactly once, on its stream. -/
def AnswersContents (lib : Libraries) (o : Orchestrator) (env : Env) (streamId listIndex : UInt32)
    (position : UInt64) (size : UInt32) (isSizeRequest : Bool) : Prop :=
  ∃ contents,
    contentsAnswers (respond lib o (.event env
      (.rdpFileContentsRequest streamId listIndex position size isSizeRequest))).out =
        [⟨streamId, contents⟩]

/-- The provider has the data of a request, and it cannot be converted. -/
def ConversionFails (lib : Libraries) (o : Orchestrator) (env : Env) (formatId : UInt32) : Prop :=
  advertisedName o.localAdvertisedFormats formatId ≠ some "FileGroupDescriptorW" ∧
    ∃ mime provider data e, rdpFormatToMime formatId = some mime ∧ env.provider = some provider ∧
      provider.readData mime = some data ∧ toRdpData lib.codec formatId mime data = .error e

/-- The computation sends exactly one answer to a data request. -/
def AnswersOnce (x : Action PUnit) : Prop :=
  ∀ s, ∃ response, dataAnswers (x.run s).2.out = dataAnswers s.out ++ [response]

theorem answersOnce_send (hr : env.sender = .registered) (response : FormatDataResponse) :
    AnswersOnce (send env (.sendFormatData response)) :=
  fun s => ⟨response, by simp [hr, dataAnswers]⟩

theorem answersOnce_sendFormatDataError (hr : env.sender = .registered) :
    AnswersOnce (sendFormatDataError env) :=
  answersOnce_send hr _

/-- What comes first answers nothing, and what follows answers once. -/
theorem AnswersOnce.bind {α : Type} {x : Action α} {f : α → Action PUnit}
    (hx : ∀ s, ∃ a, (x.run s).1 = .ok a ∧ dataAnswers (x.run s).2.out = dataAnswers s.out)
    (hf : ∀ a, AnswersOnce (f a)) : AnswersOnce (x >>= f) := by
  intro s
  obtain ⟨a, hok, hout⟩ := hx s
  obtain ⟨response, h⟩ := hf a (x.run s).2
  exact ⟨response, by rw [Prog.run_bind_of_ok hok, h, hout]⟩

theorem answersOnce_sendFileList (hr : env.sender = .registered) (uriData : List UInt8) :
    AnswersOnce (sendFileList env uriData) := by
  rw [sendFileList]
  dsimp only
  split
  · exact answersOnce_sendFormatDataError hr
  · refine AnswersOnce.bind (fun s => ⟨⟨⟩, rfl, rfl⟩) fun _ => ?_
    split
    · exact answersOnce_send hr _
    · exact answersOnce_sendFormatDataError hr

theorem run_readUriData (provider : Provider) (s : Session) :
    ∃ r, ((readUriData provider).run s).1 = .ok r ∧
      dataAnswers ((readUriData provider).run s).2.out = dataAnswers s.out := by
  rw [readUriData]
  split
  · exact ⟨_, rfl, by simp [Prog.run_bind, dataAnswers]⟩
  · exact ⟨_, rfl, by simp [Prog.run_bind, dataAnswers]⟩

theorem answersOnce_handleFileDescriptorRequest (hr : env.sender = .registered) :
    AnswersOnce (handleFileDescriptorRequest env) := by
  rw [handleFileDescriptorRequest]
  split
  · exact answersOnce_sendFormatDataError hr
  · refine AnswersOnce.bind (run_readUriData _) fun r => ?_
    cases r with
    | none => exact answersOnce_sendFormatDataError hr
    | some uriData => exact answersOnce_sendFileList hr uriData

/-- Data of the provider is sent unless its conversion fails, and then nothing is. -/
theorem sendProviderData_answers (hr : env.sender = .registered) (formatId : UInt32)
    (mime : String) (s : Session) :
    (∃ response, dataAnswers ((sendProviderData lib env formatId mime).run s).2.out =
        dataAnswers s.out ++ [response]) ↔
      ¬ ∃ provider data e, env.provider = some provider ∧ provider.readData mime = some data ∧
        toRdpData lib.codec formatId mime data = .error e := by
  have hread : ∀ s : Session, ∃ a, ((emit (.readData mime)).run s).1 = .ok a ∧
      dataAnswers ((emit (.readData mime)).run s).2.out = dataAnswers s.out :=
    fun s => ⟨⟨⟩, rfl, by simp [dataAnswers]⟩
  rcases hp : env.provider with _ | provider
  · have hrun : sendProviderData lib env formatId mime = sendFormatDataError env := by
      simp only [sendProviderData, hp]
    rw [hrun]
    refine iff_of_true (answersOnce_sendFormatDataError hr s) ?_
    rintro ⟨_, _, _, h, -⟩
    cases h
  · rcases hd : provider.readData mime with _ | data
    · have hrun : sendProviderData lib env formatId mime =
          emit (.readData mime) >>= fun _ => sendFormatDataError env := by
        simp only [sendProviderData, hp, hd]
      rw [hrun]
      refine iff_of_true (AnswersOnce.bind hread (fun _ => answersOnce_sendFormatDataError hr) s) ?_
      simp [hd]
    · rcases hc : toRdpData lib.codec formatId mime data with e | rdpData
      · have hrun : sendProviderData lib env formatId mime =
            emit (.readData mime) >>= fun _ => Prog.fail (.core e) := by
          simp only [sendProviderData, hp, hd, hc]
        rw [hrun]
        refine iff_of_false ?_ (not_not.mpr ⟨provider, data, e, rfl, hd, hc⟩)
        simp [Prog.run_bind, dataAnswers]
      · have hrun : sendProviderData lib env formatId mime =
            emit (.readData mime) >>= fun _ => send env (.sendFormatData (.data rdpData)) := by
          simp only [sendProviderData, hp, hd, hc]
        rw [hrun]
        refine iff_of_true (AnswersOnce.bind hread (fun _ => answersOnce_send hr _) s) ?_
        simp [hd, hc]

theorem answersData_iff (hr : env.sender = .registered) (formatId : UInt32) :
    AnswersData lib o env formatId ↔ ¬ ConversionFails lib o env formatId := by
  rw [AnswersData, ConversionFails]
  simp only [respond, react, handleEvent, handleRdpDataRequest, Prog.run_bind, Prog.run_gets,
    Prog.run_ite]
  split
  · rename_i hname
    exact ⟨fun _ h => h.1 hname, fun _ => answersOnce_handleFileDescriptorRequest hr ⟨o, []⟩⟩
  · rename_i hname
    rcases hm : rdpFormatToMime formatId with _ | mime
    · exact ⟨fun _ h => by simp at h, fun _ => answersOnce_sendFormatDataError hr ⟨o, []⟩⟩
    · refine (sendProviderData_answers hr formatId mime ⟨o, []⟩).trans (not_congr ?_)
      simp [hname]

theorem answersContents_iff (hr : env.sender = .registered) (streamId listIndex : UInt32)
    (position : UInt64) (size : UInt32) (isSizeRequest : Bool) :
    AnswersContents lib o env streamId listIndex position size isSizeRequest ↔
      listIndex.toNat < o.files.outgoingFiles.length := by
  rw [AnswersContents]
  by_cases hi : listIndex.toNat < o.files.outgoingFiles.length
  · simp [respond, react, handleEvent, handleRdpFileContentsRequest, Prog.run_bind, hr, hi,
      contentsAnswers]
  · simp [respond, react, handleEvent, handleRdpFileContentsRequest, Prog.run_bind, hr, hi,
      contentsAnswers]

/-- **Requests are answered exactly once, unless a conversion or the index fails.** -/
theorem answers_iff (lib : Libraries) (o : Orchestrator) (env : Env) :
    (∀ formatId,
      AnswersData lib o { env with sender := .registered } formatId ↔
        ¬ ConversionFails lib o { env with sender := .registered } formatId) ∧
    ∀ streamId listIndex position size isSizeRequest,
      AnswersContents lib o { env with sender := .registered } streamId listIndex position size
          isSizeRequest ↔ listIndex.toNat < o.files.outgoingFiles.length :=
  ⟨answersData_iff rfl, answersContents_iff rfl⟩

/-- A provider whose image is no image. -/
def brokenImageProvider : Provider :=
  { sampleProvider with
    readData := fun mime => if mime = "image/png" then some [0x68, 0x69] else none }

/-- A request for a bitmap of a broken image, and a request for a file that was never offered, get
no answer. -/
theorem broken_image_and_unknown_file_unanswered :
    ¬ AnswersData sampleLibraries (.new sampleConfig "/home/user/Downloads")
        { sampleEnv with provider := some brokenImageProvider } 8 ∧
      ¬ AnswersContents sampleLibraries (.new sampleConfig "/home/user/Downloads") sampleEnv 1 0 0 8
        true := by
  constructor
  · rintro ⟨response, h⟩
    cases h
  · rintro ⟨contents, h⟩
    cases h

end Clipboard

end Cheirizo
