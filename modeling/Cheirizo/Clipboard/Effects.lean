import Cheirizo.Clipboard.Orchestrator

/-!
# What the handlers do

The parts of the handlers that loop are computed here once: what `arrive`, `cancelAll` and
`removeAll` leave behind. Then the frame conditions: `Effect fields topics` says that the
orchestrator changes in no other field and that every new output is of one of these kinds. It is a
preorder, so it passes through sequencing; each handler is shown to have an effect under the least
that it needs of the two lists, and the table at the end says what each input needs.

## Main results

* `run_arrive`, `run_cancelAll` — the loops over the queue
* `effects_handleRdpDataResponse`, … — one frame condition per handler
* `effects_react` — every input has the effect the table says
* `respond_keeps`, `respond_topic` — what an input leaves alone, and what it may lead to
-/

namespace Cheirizo

namespace Clipboard

variable {lib : Libraries} {env : Env}

/-! ### Running the parts -/

@[simp] theorem run_emit (o : Output) (s : Session) :
    (emit o).run s = (.ok ⟨⟩, { s with out := s.out ++ [o] }) := rfl

@[simp] theorem run_modifyOrch (f : Orchestrator → Orchestrator) (s : Session) :
    (modifyOrch f).run s = (.ok ⟨⟩, { s with orch := f s.orch }) := rfl

@[simp] theorem run_modifyPending (f : List (UInt32 × String) → List (UInt32 × String))
    (s : Session) :
    (modifyPending f).run s =
      (.ok ⟨⟩, { s with orch :=
        { s.orch with pendingPortalRequests := f s.orch.pendingPortalRequests } }) := rfl

@[simp] theorem run_modifyFiles (f : FileTransferState → FileTransferState) (s : Session) :
    (modifyFiles f).run s =
      (.ok ⟨⟩, { s with orch := { s.orch with files := f s.orch.files } }) := rfl

@[simp] theorem run_withSync {α : Type} (ask : SyncManager → α × SyncManager) (s : Session) :
    (withSync ask).run s =
      (.ok (ask s.orch.sync).1, { s with orch := { s.orch with sync := (ask s.orch.sync).2 } }) :=
  rfl

@[simp] theorem run_send (message : ClipboardMessage) (s : Session) :
    (send env message).run s =
      (.ok ⟨⟩, if env.sender = .registered then { s with out := s.out ++ [.toClient message] }
        else s) := by
  rw [send]
  split <;> rfl

/-- Entries of the queue as the forwarder reports them. -/
def forwarded (entries : List (UInt32 × String)) : List Output :=
  entries.map fun r => .forward r.1 r.2

/-- Entries of the queue as the provider is told of their failure. -/
def cancelled (entries : List (UInt32 × String)) : List Output :=
  entries.map fun r => .completeTransfer r.1 r.2 [] false

@[simp] theorem mem_forwarded {o : Output} {entries : List (UInt32 × String)} :
    o ∈ forwarded entries ↔ ∃ r ∈ entries, o = .forward r.1 r.2 := by
  simp [forwarded, eq_comm]

@[simp] theorem mem_cancelled {o : Output} {entries : List (UInt32 × String)} :
    o ∈ cancelled entries ↔ ∃ r ∈ entries, o = .completeTransfer r.1 r.2 [] false := by
  simp [cancelled, eq_comm]

/-- What arrives is forwarded in order, and joins the queue in order. -/
theorem run_arrive (entries : List (UInt32 × String)) (s : Session) :
    (arrive entries).run s =
      (.ok ⟨⟩, {
        orch := { s.orch with
          pendingPortalRequests := s.orch.pendingPortalRequests ++ entries }
        out := s.out ++ forwarded entries }) := by
  induction entries generalizing s with
  | nil => simp [arrive, forwarded]
  | cons r rest ih => simp [arrive, forwardTransfer, Prog.run_bind, ih, forwarded]

/-- Each of the transfers is answered as failed. -/
theorem run_cancelAll (entries : List (UInt32 × String)) (s : Session) :
    (cancelAll entries).run s = (.ok ⟨⟩, { s with out := s.out ++ cancelled entries }) := by
  induction entries generalizing s with
  | nil => simp [cancelAll, cancelled]
  | cons r rest ih => simp [cancelAll, Prog.run_bind, ih, cancelled]

/-- Each of the files is removed. -/
theorem run_removeAll (paths : List String) (s : Session) :
    (removeAll paths).run s = (.ok ⟨⟩, { s with out := s.out ++ paths.map .removeFile }) := by
  induction paths generalizing s with
  | nil => simp [removeAll]
  | cons path rest ih => simp [removeAll, Prog.run_bind, ih]

/-- Every incoming file is dropped, and what had been written of it is removed. -/
theorem run_clearIncomingFiles (s : Session) :
    clearIncomingFiles.run s =
      (.ok ⟨⟩, {
        orch := { s.orch with files := s.orch.files.clearIncoming }
        out := s.out ++ s.orch.files.tempPaths.map .removeFile }) := by
  simp [clearIncomingFiles, Prog.run_bind, run_removeAll]

/-! ### Footprints -/

/-- Parts of the orchestrator that only some handlers change. -/
inductive Field where
  | pending
  | advertised
  | outgoing
  deriving DecidableEq, Repr

/-- Kinds of outputs. -/
inductive Topic where
  | copy
  | paste
  | formatData
  | contentsRequest
  | contentsResponse
  | announce
  | read
  | provide
  | complete
  | disk
  | forward
  deriving DecidableEq, Repr

/-- What an output is about. -/
def Output.topic : Output → Topic
  | toClient (.sendInitiateCopy _) => .copy
  | toClient (.sendInitiatePaste _) => .paste
  | toClient (.sendFormatData _) => .formatData
  | toClient (.sendFileContentsRequest _) => .contentsRequest
  | toClient (.sendFileContentsResponse _) => .contentsResponse
  | announceFormats _ => .announce
  | readData _ => .read
  | provideData .. => .provide
  | completeTransfer .. => .complete
  | createFile _ | writeFile .. | removeFile _ | renameFile .. => .disk
  | forward .. => .forward

/-- `o'` differs from `o` only where `fields` allow it. What no handler changes is the
configuration, the download directory, and where contents on record came from. -/
structure Keeps (fields : List Field) (o o' : Orchestrator) : Prop where
  config : o'.config = o.config
  downloadDir : o'.files.downloadDir = o.files.downloadDir
  detector : o'.sync.detector.config = o.sync.detector.config
  clientContent : o.sync.ClientContent → o'.sync.ClientContent
  pending : Field.pending ∉ fields → o'.pendingPortalRequests = o.pendingPortalRequests
  advertised : Field.advertised ∉ fields → o'.localAdvertisedFormats = o.localAdvertisedFormats
  outgoing : Field.outgoing ∉ fields → o'.files.outgoingFiles = o.files.outgoingFiles

/-- What is left as it is keeps every field. -/
theorem Keeps.refl (fields : List Field) (o : Orchestrator) : Keeps fields o o :=
  ⟨rfl, rfl, rfl, id, fun _ => rfl, fun _ => rfl, fun _ => rfl⟩

/-- Two changes that keep a field keep it together. -/
theorem Keeps.trans {fields : List Field} {o o' o'' : Orchestrator} (h : Keeps fields o o')
    (h' : Keeps fields o' o'') : Keeps fields o o'' where
  config := h'.config.trans h.config
  downloadDir := h'.downloadDir.trans h.downloadDir
  detector := h'.detector.trans h.detector
  clientContent hc := h'.clientContent (h.clientContent hc)
  pending hf := (h'.pending hf).trans (h.pending hf)
  advertised hf := (h'.advertised hf).trans (h.advertised hf)
  outgoing hf := (h'.outgoing hf).trans (h.outgoing hf)

/-- The orchestrator changes only in these fields, and the new outputs are only of these kinds. -/
def Effect (fields : List Field) (topics : List Topic) (s s' : Session) : Prop :=
  Keeps fields s.orch s'.orch ∧ ∃ new, s'.out = s.out ++ new ∧ ∀ o ∈ new, o.topic ∈ topics

variable {fields : List Field} {topics : List Topic}

instance : IsPreorder Session (Effect fields topics) where
  refl s := ⟨Keeps.refl fields s.orch, [], by simp, by simp⟩
  trans := by
    rintro s s' s'' ⟨hk, new, hout, ht⟩ ⟨hk', new', hout', ht'⟩
    refine ⟨hk.trans hk', new ++ new', by rw [hout', hout, List.append_assoc], ?_⟩
    intro o ho
    rcases List.mem_append.mp ho with h | h
    · exact ht o h
    · exact ht' o h

/-- Started with no outputs, only outputs of these kinds come out. -/
theorem Effect.topic_mem {s s' : Session} (h : Effect fields topics s s') (hs : s.out = [])
    {o : Output} (ho : o ∈ s'.out) : o.topic ∈ topics := by
  obtain ⟨-, new, hout, htopic⟩ := h
  rw [hout, hs, List.nil_append] at ho
  exact htopic o ho

/-- What a computation does, whatever its outcome. -/
abbrev Effects (fields : List Field) (topics : List Topic) {α : Type} (x : Action α) : Prop :=
  Prog.Steps (Effect fields topics) x

/-- An output is an effect of its own kind. -/
theorem effects_emit {o : Output} (h : o.topic ∈ topics) : Effects fields topics (emit o) :=
  fun s => ⟨Keeps.refl fields s.orch, [o], rfl, by simpa using h⟩

/-- A change of the orchestrator has the fields it does not keep. -/
theorem effects_modifyOrch {f : Orchestrator → Orchestrator} (h : ∀ o, Keeps fields o (f o)) :
    Effects fields topics (modifyOrch f) :=
  fun s => ⟨h s.orch, [], by simp, by simp⟩

theorem effects_modifyPending {f : List (UInt32 × String) → List (UInt32 × String)}
    (h : Field.pending ∈ fields) : Effects fields topics (modifyPending f) :=
  effects_modifyOrch fun _ => { Keeps.refl fields _ with pending := fun hf => absurd h hf }

/-- A change of the file transfers leaves the directory alone, and also the files on offer unless
the effect allows for them. -/
theorem effects_modifyFiles {f : FileTransferState → FileTransferState}
    (hdir : ∀ files, (f files).downloadDir = files.downloadDir)
    (hout : Field.outgoing ∈ fields ∨ ∀ files, (f files).outgoingFiles = files.outgoingFiles) :
    Effects fields topics (modifyFiles f) :=
  effects_modifyOrch fun o => { Keeps.refl fields _ with
    downloadDir := hdir o.files
    outgoing := fun hf => hout.elim (fun h => absurd h hf) fun h => h o.files }

/-- What is asked of the synchronisation changes none of the fields, if it keeps its configuration
and what it knows of the client. -/
theorem effects_withSync {α : Type} {ask : SyncManager → α × SyncManager}
    (hconfig : ∀ m, (ask m).2.detector.config = m.detector.config)
    (hcontent : ∀ m, m.ClientContent → (ask m).2.ClientContent) :
    Effects fields topics (withSync ask) :=
  fun s => ⟨{ Keeps.refl fields s.orch with
    detector := hconfig s.orch.sync
    clientContent := hcontent s.orch.sync }, [], by simp, by simp⟩

theorem effects_send {message : ClipboardMessage} (h : (Output.toClient message).topic ∈ topics) :
    Effects fields topics (send env message) :=
  Prog.Steps.ite (fun _ => effects_emit h) fun _ => Prog.steps_pure _

theorem effects_whenProvider {x : Action PUnit} (h : Effects fields topics x) :
    Effects fields topics (whenProvider env x) :=
  Prog.Steps.ite (fun _ => h) fun _ => Prog.steps_pure _

theorem effects_forwardTransfer (serial : UInt32) (mime : String) (hp : Field.pending ∈ fields)
    (hf : Topic.forward ∈ topics) : Effects fields topics (forwardTransfer serial mime) :=
  (effects_modifyPending hp).bind fun _ => effects_emit hf

/-- By induction on what arrives, one transfer at a time. -/
theorem effects_arrive (hp : Field.pending ∈ fields) (hf : Topic.forward ∈ topics) :
    ∀ entries, Effects fields topics (arrive entries)
  | [] => Prog.steps_pure _
  | (serial, mime) :: rest =>
    (effects_forwardTransfer serial mime hp hf).bind fun _ => effects_arrive hp hf rest

theorem effects_cancelAll (hc : Topic.complete ∈ topics) :
    ∀ entries, Effects fields topics (cancelAll entries)
  | [] => Prog.steps_pure _
  | _ :: rest => (effects_emit hc).bind fun _ => effects_cancelAll hc rest

theorem effects_removeAll (hd : Topic.disk ∈ topics) :
    ∀ paths, Effects fields topics (removeAll paths)
  | [] => Prog.steps_pure _
  | _ :: rest => (effects_emit hd).bind fun _ => effects_removeAll hd rest

theorem effects_clearIncomingFiles (hd : Topic.disk ∈ topics) :
    Effects fields topics clearIncomingFiles :=
  (Prog.steps_gets _).bind fun _ => (effects_removeAll hd _).bind fun _ =>
    effects_modifyFiles (fun _ => rfl) (Or.inr fun _ => rfl)

/-! ### The handlers -/

theorem effects_handleRdpReady (hc : Topic.copy ∈ topics) :
    Effects fields topics (handleRdpReady env) :=
  (Prog.steps_gets _).bind fun _ =>
    Prog.Steps.ite (fun _ => Prog.steps_pure _) fun _ => effects_send hc

theorem effects_eagerFetch (hp : Field.pending ∈ fields) (ht : Topic.paste ∈ topics) :
    Effects fields topics (eagerFetch env) :=
  (effects_modifyPending hp).bind fun _ =>
    Prog.Steps.ite (fun _ => effects_emit ht) fun _ => effects_modifyPending hp

/-- A selection is announced, and then it may be asked for at once. -/
theorem effects_retireAndFetch (provider : Provider) (formats : List ClipboardFormat)
    (mimeTypes : List String) (hp : Field.pending ∈ fields) (ha : Topic.announce ∈ topics)
    (ht : Topic.paste ∈ topics) :
    Effects fields topics (retireAndFetch env provider formats mimeTypes) := by
  refine (effects_emit ha).bind fun _ => ?_
  split
  · exact Prog.steps_fail _
  · exact Prog.Steps.ite (fun _ => effects_eagerFetch hp ht) fun _ => Prog.steps_pure _

theorem effects_announceToProvider (formats : List ClipboardFormat) (mimeTypes : List String)
    (hp : Field.pending ∈ fields) (ha : Topic.announce ∈ topics) (ht : Topic.paste ∈ topics) :
    Effects fields topics (announceToProvider env formats mimeTypes) := by
  rw [announceToProvider]
  split
  · exact Prog.steps_pure _
  · refine Prog.Steps.ite (fun _ => effects_retireAndFetch _ _ _ hp ha ht) fun _ => ?_
    refine (effects_emit ha).bind fun _ => ?_
    split
    · exact Prog.steps_fail _
    · exact Prog.steps_pure _

/-- A format list announces and asks, but answers nothing. -/
theorem effects_handleRdpFormatList (formats : List ClipboardFormat)
    (hp : Field.pending ∈ fields) (ha : Topic.announce ∈ topics) (ht : Topic.paste ∈ topics) :
    Effects fields topics (handleRdpFormatList lib env formats) := by
  refine Prog.Steps.bind (effects_modifyOrch ?_) fun _ => ?_
  · intro o
    exact { Keeps.refl fields o with }
  refine (effects_withSync (fun _ => SyncManager.handleRdpFormats_config _)
    fun _ h => h.handleRdpFormats _).bind fun _ => ?_
  refine Prog.Steps.ite (fun _ => ?_) fun _ => Prog.steps_pure _
  exact Prog.Steps.ite (fun _ => Prog.steps_pure _)
    fun _ => effects_announceToProvider _ _ hp ha ht

theorem effects_sendFormatDataError (hd : Topic.formatData ∈ topics) :
    Effects fields topics (sendFormatDataError env) :=
  effects_send hd

theorem effects_readUriData (provider : Provider) (hr : Topic.read ∈ topics) :
    Effects fields topics (readUriData provider) := by
  refine (effects_emit hr).bind fun _ => ?_
  split
  · exact Prog.steps_pure _
  · exact (effects_emit hr).bind fun _ => Prog.steps_pure _

theorem effects_sendFileList (uriData : List UInt8) (ho : Field.outgoing ∈ fields)
    (hd : Topic.formatData ∈ topics) : Effects fields topics (sendFileList env uriData) := by
  rw [sendFileList]
  refine Prog.Steps.ite (fun _ => effects_sendFormatDataError hd) fun _ => ?_
  refine Prog.Steps.bind (effects_modifyFiles ?_ (Or.inl ho)) fun _ => ?_
  · exact fun _ => rfl
  split
  · exact effects_send hd
  · exact effects_sendFormatDataError hd

/-- A request for the list of files makes the files on offer anew. -/
theorem effects_handleFileDescriptorRequest (ho : Field.outgoing ∈ fields)
    (hr : Topic.read ∈ topics) (hd : Topic.formatData ∈ topics) :
    Effects fields topics (handleFileDescriptorRequest env) := by
  rw [handleFileDescriptorRequest]
  split
  · exact effects_sendFormatDataError hd
  · refine (effects_readUriData _ hr).bind fun r => ?_
    cases r with
    | none => exact effects_sendFormatDataError hd
    | some uriData => exact effects_sendFileList _ ho hd

theorem effects_sendProviderData (formatId : UInt32) (mime : String) (hr : Topic.read ∈ topics)
    (hd : Topic.formatData ∈ topics) :
    Effects fields topics (sendProviderData lib env formatId mime) := by
  rw [sendProviderData]
  split
  · exact effects_sendFormatDataError hd
  · refine (effects_emit hr).bind fun _ => ?_
    split
    · exact effects_sendFormatDataError hd
    · split
      · exact Prog.steps_fail _
      · exact effects_send hd

/-- A request of the client is answered by data, for which the desktop may be read. -/
theorem effects_handleRdpDataRequest (formatId : UInt32) (ho : Field.outgoing ∈ fields)
    (hr : Topic.read ∈ topics) (hd : Topic.formatData ∈ topics) :
    Effects fields topics (handleRdpDataRequest lib env formatId) := by
  refine (Prog.steps_gets _).bind fun _ => ?_
  refine Prog.Steps.ite (fun _ => effects_handleFileDescriptorRequest ho hr hd) fun _ => ?_
  split
  · exact effects_sendFormatDataError hd
  · exact effects_sendProviderData _ _ hr hd

theorem effects_handleRdpFileContentsRequest (streamId listIndex : UInt32) (position : UInt64)
    (size : UInt32) (isSizeRequest : Bool) (hc : Topic.contentsResponse ∈ topics) :
    Effects fields topics
      (handleRdpFileContentsRequest env streamId listIndex position size isSizeRequest) := by
  refine Prog.Steps.ite (fun _ => Prog.steps_fail _) fun _ => ?_
  refine (Prog.steps_gets _).bind fun _ => ?_
  split
  · exact Prog.steps_fail _
  · exact effects_send hc

theorem effects_publishEagerFetch (provider : Provider) (data : List UInt8)
    (hp : Topic.provide ∈ topics) (ha : Topic.announce ∈ topics) :
    Effects fields topics (publishEagerFetch provider data) :=
  Prog.Steps.ite
    (fun _ => (effects_emit hp).bind fun _ => (effects_emit hp).bind fun _ =>
      Prog.Steps.ite (fun _ => effects_emit ha) fun _ => Prog.steps_pure _)
    fun _ => Prog.steps_pure _

theorem effects_requestFile (index : ℕ) (descriptor : FileDescriptor)
    (hd : Topic.disk ∈ topics) (hc : Topic.contentsRequest ∈ topics) :
    Effects fields topics (requestFile env index descriptor) := by
  intro s
  refine Prog.step_bind (IsPreorder.toRefl.refl s) ?_
  rintro files hfiles
  obtain rfl : s.orch.files = files := Except.ok.inj hfiles
  refine Prog.step_bind ?_ fun _ _ => ?_
  · exact ⟨{ Keeps.refl fields _ with }, [], by simp, by simp⟩
  · refine Prog.Steps.ite (fun _ => ?_) (fun _ => Prog.steps_pure _) _
    refine Prog.Steps.bind (effects_emit hd) fun _ => ?_
    refine Prog.Steps.bind (effects_modifyFiles ?_ (Or.inr ?_)) fun _ => effects_send ?_
    · exact fun _ => rfl
    · exact fun _ => rfl
    · exact hc

theorem effects_requestFiles (hd : Topic.disk ∈ topics) (hc : Topic.contentsRequest ∈ topics) :
    ∀ index descriptors, Effects fields topics (requestFiles env index descriptors)
  | _, [] => Prog.steps_pure _
  | index, descriptor :: rest =>
    (effects_requestFile index descriptor hd hc).bind fun _ =>
      effects_requestFiles hd hc (index + 1) rest

theorem effects_startFileTransfer (serial : UInt32) (mime : String)
    (descriptors : List FileDescriptor) (hm : Topic.complete ∈ topics) (hd : Topic.disk ∈ topics)
    (hc : Topic.contentsRequest ∈ topics) :
    Effects fields topics (startFileTransfer env serial mime descriptors) := by
  refine (Prog.steps_gets _).bind fun _ => Prog.Steps.ite (fun _ => effects_emit hm) fun _ => ?_
  refine (effects_clearIncomingFiles hd).bind fun _ => ?_
  refine Prog.Steps.bind (effects_modifyFiles ?_ (Or.inr ?_)) fun _ =>
    effects_requestFiles hd hc _ _
  · exact fun _ => rfl
  · exact fun _ => rfl

/-- What is delivered completes a transfer, and others may be forwarded. -/
theorem effects_deliver (provider : Provider) (serial : UInt32) (mime : String)
    (data : List UInt8) (hp : Field.pending ∈ fields) (hm : Topic.complete ∈ topics)
    (hf : Topic.forward ∈ topics) :
    Effects fields topics (deliver lib env provider serial mime data) := by
  rw [deliver]
  split
  · exact Prog.steps_fail _
  · refine (effects_emit hm).bind fun _ => (effects_arrive hp hf _).bind fun _ => ?_
    refine Prog.Steps.ite (fun _ => ?_) fun _ => effects_modifyPending hp
    exact (Prog.steps_gets _).bind fun _ => (effects_modifyPending hp).bind fun _ =>
      effects_cancelAll hm _

/-- What the answers of the client may lead to. -/
def answerTopics : List Topic := [.provide, .announce, .complete, .forward, .disk, .contentsRequest]

theorem effects_settle (provider : Provider) (serial : UInt32) (mime : String)
    (data : List UInt8) (hp : Field.pending ∈ fields) :
    Effects fields answerTopics (settle lib env provider serial mime data) := by
  refine Prog.Steps.ite (fun _ => effects_publishEagerFetch _ _ (by decide) (by decide))
    fun _ => ?_
  have hdeliver : Effects fields answerTopics (deliver lib env provider serial mime data) :=
    effects_deliver _ _ _ _ hp (by decide) (by decide)
  refine Prog.Steps.ite (fun _ => ?_) fun _ => hdeliver
  split
  · exact effects_startFileTransfer _ _ _ (by decide) (by decide) (by decide)
  · exact hdeliver

/-- An answer of the client may settle a transfer of the queue. -/
theorem effects_handleRdpDataResponse (data : List UInt8) (hp : Field.pending ∈ fields) :
    Effects fields answerTopics (handleRdpDataResponse lib env data) := by
  refine (effects_withSync (fun _ => SyncManager.checkContent_config _)
    fun _ h => h.checkContent _).bind fun _ => ?_
  refine Prog.Steps.ite (fun _ => ?_) fun _ => Prog.steps_pure _
  split
  · exact Prog.steps_pure _
  · refine (Prog.steps_gets _).bind fun pending => ?_
    rcases pending with _ | ⟨⟨serial, mime⟩, rest⟩
    · exact Prog.steps_pure _
    · exact (effects_modifyPending hp).bind fun _ => effects_settle _ _ _ _ hp

theorem effects_handleRdpDataError (hp : Field.pending ∈ fields) (hm : Topic.complete ∈ topics)
    (hf : Topic.forward ∈ topics) : Effects fields topics (handleRdpDataError env) :=
  (Prog.steps_gets _).bind fun _ =>
    (effects_whenProvider (effects_cancelAll hm _)).bind fun _ =>
      (effects_arrive hp hf _).bind fun _ => effects_modifyPending hp

theorem effects_discard (hd : Topic.disk ∈ topics) :
    ∀ file, Effects fields topics (discard file)
  | some _ => effects_emit hd
  | none => Prog.steps_pure _

/-- A paste is completed for the transfer that asked, if any did. -/
theorem effects_completePaste (mime : String) (data : List UInt8) (success : Bool)
    (hm : Topic.complete ∈ topics) :
    ∀ serial, Effects fields topics (completePaste env mime data success serial)
  | some _ => effects_whenProvider (effects_emit hm)
  | none => Prog.steps_pure _

/-- A stream that fails takes its file with it. -/
theorem effects_failStream (streamId : UInt32) (hm : Topic.complete ∈ topics)
    (hd : Topic.disk ∈ topics) : Effects fields topics (failStream env streamId) := by
  refine (Prog.steps_gets _).bind fun _ => (effects_discard hd _).bind fun _ => ?_
  refine Prog.Steps.bind (effects_modifyFiles ?_ (Or.inr ?_)) fun _ =>
    effects_completePaste _ _ _ hm _
  · exact fun _ => rfl
  · exact fun _ => rfl

theorem effects_finishFile (streamId : UInt32) (file : IncomingFile) (hm : Topic.complete ∈ topics)
    (hd : Topic.disk ∈ topics) : Effects fields topics (finishFile env streamId file) := by
  rw [finishFile]
  split
  · exact Prog.steps_fail _
  · refine Prog.Steps.bind (effects_modifyFiles ?_ (Or.inr ?_)) fun _ => ?_
    · exact fun _ => rfl
    · exact fun _ => rfl
    refine (Prog.steps_gets _).bind fun files => ?_
    split
    · exact Prog.steps_fail _
    · refine (effects_emit hd).bind fun _ => Prog.Steps.ite (fun _ => ?_) fun _ => Prog.steps_pure _
      refine (effects_completePaste _ _ _ hm _).bind fun _ => effects_modifyFiles ?_ (Or.inr ?_)
      · exact fun _ => rfl
      · exact fun _ => rfl

theorem effects_continueFile (streamId : UInt32) (file : IncomingFile)
    (hm : Topic.complete ∈ topics) (hd : Topic.disk ∈ topics)
    (hc : Topic.contentsRequest ∈ topics) :
    Effects fields topics (continueFile env streamId file) := by
  rw [continueFile]
  split
  · exact Prog.steps_pure _
  · exact Prog.Steps.ite (fun _ => effects_finishFile _ _ hm hd) fun _ => effects_send hc

theorem effects_setIncoming (streamId : UInt32) (file : IncomingFile) :
    Effects fields topics (setIncoming streamId file) :=
  effects_modifyFiles (fun _ => rfl) (Or.inr fun _ => rfl)

theorem effects_receiveSize (streamId : UInt32) (file : IncomingFile) (data : List UInt8)
    (hm : Topic.complete ∈ topics) (hd : Topic.disk ∈ topics)
    (hc : Topic.contentsRequest ∈ topics) :
    Effects fields topics (receiveSize env streamId file data) := by
  rw [receiveSize]
  split
  · exact Prog.steps_fail _
  · refine (effects_setIncoming _ _).bind fun _ => ?_
    refine Prog.Steps.ite (fun _ => ?_) fun _ => effects_continueFile _ _ hm hd hc
    exact Prog.Steps.ite (fun _ => Prog.steps_fail _) fun _ => effects_send hc

theorem effects_receiveChunk (streamId : UInt32) (file : IncomingFile) (data : List UInt8)
    (hm : Topic.complete ∈ topics) (hd : Topic.disk ∈ topics)
    (hc : Topic.contentsRequest ∈ topics) :
    Effects fields topics (receiveChunk env streamId file data) := by
  rw [receiveChunk]
  split
  · exact (effects_emit hd).bind fun _ => (effects_setIncoming _ _).bind fun _ =>
      Prog.steps_fail _
  · exact (effects_emit hd).bind fun _ => (effects_setIncoming _ _).bind fun _ =>
      effects_continueFile _ _ hm hd hc

/-- An answer about a file leaves the queue alone. -/
theorem effects_handleRdpFileContentsResponse (streamId : UInt32) (data : List UInt8)
    (isError : Bool) (hm : Topic.complete ∈ topics) (hd : Topic.disk ∈ topics)
    (hc : Topic.contentsRequest ∈ topics) :
    Effects fields topics (handleRdpFileContentsResponse env streamId data isError) := by
  refine Prog.Steps.ite (fun _ => effects_failStream _ hm hd) fun _ => ?_
  refine (Prog.steps_gets _).bind fun files => ?_
  split
  · exact Prog.steps_pure _
  · exact Prog.Steps.ite (fun _ => effects_receiveSize _ _ _ hm hd hc)
      fun _ => effects_receiveChunk _ _ _ hm hd hc

theorem effects_advertise (config : OrchestratorConfig) (mimeTypes : List String)
    (ha : Field.advertised ∈ fields) (hc : Topic.copy ∈ topics) :
    Effects fields topics (advertise env config mimeTypes) := by
  rw [advertise]
  refine Prog.Steps.ite (fun _ => Prog.steps_pure _) fun _ => ?_
  refine Prog.Steps.bind (effects_modifyOrch ?_) fun _ => effects_send hc
  intro o
  exact { Keeps.refl fields o with advertised := fun hf => absurd ha hf }

/-- Formats of the desktop change what is advertised. -/
theorem effects_handlePortalFormats (mimeTypes : List String) (force : Bool)
    (ha : Field.advertised ∈ fields) (hc : Topic.copy ∈ topics) :
    Effects fields topics (handlePortalFormats lib env mimeTypes force) := by
  refine (effects_withSync (fun _ => SyncManager.handlePortalFormats_config _ _)
    fun _ h => h.handlePortalFormats _ _).bind fun decision => ?_
  cases decision with
  | allow => exact (Prog.steps_gets _).bind fun _ => effects_advertise _ _ ha hc
  | block => exact Prog.steps_pure _

theorem effects_handlePortalDataRequest (mime : String) (ht : Topic.paste ∈ topics) :
    Effects fields topics (handlePortalDataRequest env mime) := by
  refine (Prog.steps_gets _).bind fun _ => ?_
  split
  · exact Prog.steps_fail _
  · exact effects_send ht

/-- A disconnection retires the selection and drops the file transfers, but leaves the queue. -/
theorem effects_clearConnectionState (ho : Field.outgoing ∈ fields)
    (ha : Topic.announce ∈ topics) (hd : Topic.disk ∈ topics) :
    Effects fields topics (clearConnectionState env) := by
  refine (effects_whenProvider (effects_emit ha)).bind fun _ => ?_
  refine (effects_clearIncomingFiles hd).bind fun _ => effects_modifyFiles ?_ (Or.inl ho)
  exact fun _ => rfl

/-! ### The table -/

/-- The fields an input may change. -/
def Input.touches : Input → List Field
  | .transfer .. => [.pending]
  | .event _ (.rdpFormatList _) => [.pending]
  | .event _ (.rdpDataResponse _) => [.pending]
  | .event _ .rdpDataError => [.pending]
  | .event _ (.rdpDataRequest _) => [.outgoing]
  | .event _ (.portalFormatsAvailable ..) => [.advertised]
  | .event _ .rdpReady => []
  | .event _ (.rdpFileContentsRequest ..) => []
  | .event _ (.rdpFileContentsResponse ..) => []
  | .event _ (.portalDataRequest _) => []
  | .disconnect _ => [.outgoing]

/-- The kinds of outputs an input may lead to. -/
def Input.emits : Input → List Topic
  | .transfer .. => [.forward]
  | .event _ (.rdpFormatList _) => [.announce, .paste]
  | .event _ (.rdpDataResponse _) => answerTopics
  | .event _ .rdpDataError => [.complete, .forward]
  | .event _ (.rdpDataRequest _) => [.read, .formatData]
  | .event _ (.portalFormatsAvailable ..) => [.copy]
  | .event _ .rdpReady => [.copy]
  | .event _ (.rdpFileContentsRequest ..) => [.contentsResponse]
  | .event _ (.rdpFileContentsResponse ..) => [.complete, .disk, .contentsRequest]
  | .event _ (.portalDataRequest _) => [.paste]
  | .disconnect _ => [.announce, .disk]

/-- **Every input has the effect the table says**, and no other. -/
theorem effects_react (i : Input) : Effects i.touches i.emits (react lib i) := by
  cases i with
  | transfer serial mime =>
    show Effects [.pending] [.forward] (forwardTransfer serial mime)
    exact effects_forwardTransfer _ _ (by decide) (by decide)
  | disconnect env =>
    show Effects [.outgoing] [.announce, .disk] (clearConnectionState env)
    exact effects_clearConnectionState (by decide) (by decide) (by decide)
  | event env e =>
    cases e with
    | rdpReady =>
      show Effects [] [.copy] (handleRdpReady env)
      exact effects_handleRdpReady (by decide)
    | rdpFormatList formats =>
      show Effects [.pending] [.announce, .paste] (handleRdpFormatList lib env formats)
      exact effects_handleRdpFormatList _ (by decide) (by decide) (by decide)
    | rdpDataRequest formatId =>
      show Effects [.outgoing] [.read, .formatData] (handleRdpDataRequest lib env formatId)
      exact effects_handleRdpDataRequest _ (by decide) (by decide) (by decide)
    | rdpDataResponse data =>
      show Effects [.pending] answerTopics (handleRdpDataResponse lib env data)
      exact effects_handleRdpDataResponse _ (by decide)
    | rdpDataError =>
      show Effects [.pending] [.complete, .forward] (handleRdpDataError env)
      exact effects_handleRdpDataError (by decide) (by decide) (by decide)
    | rdpFileContentsRequest streamId listIndex position size isSizeRequest =>
      show Effects [] [.contentsResponse]
        (handleRdpFileContentsRequest env streamId listIndex position size isSizeRequest)
      exact effects_handleRdpFileContentsRequest _ _ _ _ _ (by decide)
    | rdpFileContentsResponse streamId data isError =>
      show Effects [] [.complete, .disk, .contentsRequest]
        (handleRdpFileContentsResponse env streamId data isError)
      exact effects_handleRdpFileContentsResponse _ _ _ (by decide) (by decide) (by decide)
    | portalFormatsAvailable mimeTypes force =>
      show Effects [.advertised] [.copy] (handlePortalFormats lib env mimeTypes force)
      exact effects_handlePortalFormats _ _ (by decide) (by decide)
    | portalDataRequest mime =>
      show Effects [] [.paste] (handlePortalDataRequest env mime)
      exact effects_handlePortalDataRequest _ (by decide)

/-- An input changes only what the table says it touches. -/
theorem respond_keeps (o : Orchestrator) (i : Input) : Keeps i.touches o (respond lib o i).orch :=
  (effects_react i ⟨o, []⟩).1

/-- An input leads only to the kinds of output that the table says. -/
theorem respond_topic {o : Orchestrator} {i : Input} {output : Output}
    (h : output ∈ (respond lib o i).out) : output.topic ∈ i.emits :=
  (effects_react i ⟨o, []⟩).topic_mem rfl h

/-! ### The table, read backwards -/

section Backwards

variable {i : Input}

/-- Only formats of the desktop change what is advertised. -/
theorem advertised_mem_touches (h : Field.advertised ∈ i.touches) :
    ∃ env mimeTypes force, i = .event env (.portalFormatsAvailable mimeTypes force) := by
  unfold Input.touches at h
  split at h <;> simp_all

/-- Only a request for data and a disconnection change the files on offer. -/
theorem outgoing_mem_touches (h : Field.outgoing ∈ i.touches) :
    (∃ env formatId, i = .event env (.rdpDataRequest formatId)) ∨ ∃ env, i = .disconnect env := by
  unfold Input.touches at h
  split at h <;> simp_all

/-- A format list is sent to a client that is ready and for formats of the desktop. -/
theorem copy_mem_emits (h : Topic.copy ∈ i.emits) :
    (∃ env, i = .event env .rdpReady) ∨
      ∃ env mimeTypes force, i = .event env (.portalFormatsAvailable mimeTypes force) := by
  unfold Input.emits at h
  split at h <;> simp_all [answerTopics]

/-- Only a request for data is answered by data. -/
theorem formatData_mem_emits (h : Topic.formatData ∈ i.emits) :
    ∃ env formatId, i = .event env (.rdpDataRequest formatId) := by
  unfold Input.emits at h
  split at h <;> simp_all [answerTopics]

/-- Only an answer of the client gives data to the desktop. -/
theorem provide_mem_emits (h : Topic.provide ∈ i.emits) :
    ∃ env data, i = .event env (.rdpDataResponse data) := by
  unfold Input.emits at h
  split at h <;> simp_all

/-- What can complete a transfer. -/
theorem complete_mem_emits (h : Topic.complete ∈ i.emits) :
    (∃ env data, i = .event env (.rdpDataResponse data)) ∨ (∃ env, i = .event env .rdpDataError) ∨
      ∃ env streamId data isError,
        i = .event env (.rdpFileContentsResponse streamId data isError) := by
  unfold Input.emits at h
  split at h <;> simp_all

/-- Only a request for a part of a file is answered by one. -/
theorem contentsResponse_mem_emits (h : Topic.contentsResponse ∈ i.emits) :
    ∃ env streamId listIndex position size isSizeRequest, i = .event env
      (.rdpFileContentsRequest streamId listIndex position size isSizeRequest) := by
  unfold Input.emits at h
  split at h <;> simp_all [answerTopics]

end Backwards

/-- After a disconnect only the stream counter is left of the file transfers. -/
theorem respond_disconnect_files (lib : Libraries) (o : Orchestrator) (env : Env) :
    (respond lib o (.disconnect env)).orch.files =
      { FileTransferState.new o.files.downloadDir with nextStreamId := o.files.nextStreamId } := by
  by_cases hp : env.provider.isSome <;>
    simp [respond, react, clearConnectionState, whenProvider, Prog.run_bind, hp,
      run_clearIncomingFiles, FileTransferState.clearIncoming, FileTransferState.clearOutgoing,
      FileTransferState.setPendingDescriptors, FileTransferState.new]

end Clipboard

end Cheirizo
