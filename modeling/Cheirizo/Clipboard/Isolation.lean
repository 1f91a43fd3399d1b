import Cheirizo.Clipboard.Exchange

/-!
# What a connection leaves behind

`clearConnectionState` runs when a client disconnects; the orchestrator then serves the next client.
Two previous connections are compared through the next one: whatever the next client, the provider
and the file system do, are the orchestrator's outputs the same? They are, once the loop windows
have passed, exactly if five leftovers agree: the queue, the advertised formats, the format each
MIME type resolves to, whether the client owned the clipboard, and the stream counter. The code
resets none of them.

The first half is a simulation: `Alike` is kept by every handler. The second half is one experiment
per leftover.

## Main definitions

* `Residue` — what the next connection can see of the previous one
* `WindowsExpired` — the loop windows have passed
* `Alike` — two orchestrators that react alike
* `Indistinguishable` — the next connection cannot tell the two apart

## Main results

* `alike_respond` — alike orchestrators react alike
* `isolation_iff` — the next connection cannot tell two histories apart exactly if they leave the
  same residue
-/

namespace Cheirizo

namespace Clipboard

variable {since : Instant}

/-! ### Histories -/

/-- The histories differ only in records that have expired, and agree on those made since. -/
def HistoryAlike (config : LoopDetectionConfig) (since : Instant)
    (h₁ h₂ : List ClipboardOperation) : Prop :=
  ∃ old₁ old₂ new, h₁ = old₁ ++ new ∧ h₂ = old₂ ++ new ∧
    LoopDetector.Expired config since old₁ ∧ LoopDetector.Expired config since old₂ ∧
    ∀ op ∈ new, since ≤ op.timestamp

section History

variable {config : LoopDetectionConfig} {h₁ h₂ : List ClipboardOperation} {now : Instant}

/-- Histories that are alike since then have the same collisions. -/
theorem HistoryAlike.collision (h : HistoryAlike config since h₁ h₂) (hnow : since ≤ now)
    (hash : String) (source : ClipboardSource) :
    LoopDetector.checkHashCollision config now h₁ hash source =
      LoopDetector.checkHashCollision config now h₂ hash source := by
  obtain ⟨old₁, old₂, new, rfl, rfl, hold₁, hold₂, -⟩ := h
  rw [LoopDetector.checkHashCollision_append hold₁ hnow,
    LoopDetector.checkHashCollision_append hold₂ hnow]

/-- They stay alike with a new operation in both. -/
theorem HistoryAlike.push (h : HistoryAlike config since h₁ h₂) {op : ClipboardOperation}
    (hop : since ≤ op.timestamp) : HistoryAlike config since (h₁ ++ [op]) (h₂ ++ [op]) := by
  obtain ⟨old₁, old₂, new, rfl, rfl, hold₁, hold₂, hnew⟩ := h
  refine ⟨old₁, old₂, new ++ [op], by simp, by simp, hold₁, hold₂, fun op' h' => ?_⟩
  rcases List.mem_append.mp h' with h' | h'
  · exact hnew op' h'
  · rwa [List.mem_singleton.mp h']

/-- They stay alike when the old operations are dropped. -/
theorem HistoryAlike.cleanup (h : HistoryAlike config since h₁ h₂) :
    HistoryAlike config since (LoopDetector.cleanup config now h₁)
      (LoopDetector.cleanup config now h₂) := by
  obtain ⟨old₁, old₂, new, rfl, rfl, hold₁, hold₂, hnew⟩ := h
  obtain ⟨kept₁, hkept₁, heq₁⟩ := LoopDetector.cleanup_append now hold₁ hnew
  obtain ⟨kept₂, hkept₂, heq₂⟩ := LoopDetector.cleanup_append now hold₂ hnew
  exact ⟨kept₁, kept₂, _, heq₁, heq₂, hkept₁, hkept₂,
    fun op hop => hnew op (LoopDetector.mem_of_mem_cleanup hop)⟩

end History

/-- The detectors answer every question from `since` on alike. -/
structure DetectorAlike (since : Instant) (d₁ d₂ : LoopDetector) : Prop where
  config : d₁.config = d₂.config
  formats : HistoryAlike d₁.config since d₁.formatHistory d₂.formatHistory
  contents : HistoryAlike d₁.config since d₁.contentHistory d₂.contentHistory

section Detector

variable {sha256 : List UInt8 → String} {d₁ d₂ : LoopDetector} {now : Instant}

/-- Detectors stay alike with their histories. -/
theorem DetectorAlike.cleanupHistory (h : DetectorAlike since d₁ d₂) :
    DetectorAlike since (d₁.cleanupHistory now) (d₂.cleanupHistory now) := by
  refine ⟨h.config, ?_, ?_⟩
  · show HistoryAlike d₁.config since (LoopDetector.cleanup d₁.config now d₁.formatHistory)
      (LoopDetector.cleanup d₂.config now d₂.formatHistory)
    rw [← h.config]
    exact h.formats.cleanup
  · show HistoryAlike d₁.config since (LoopDetector.cleanup d₁.config now d₁.contentHistory)
      (LoopDetector.cleanup d₂.config now d₂.contentHistory)
    rw [← h.config]
    exact h.contents.cleanup

/-- Formats are recorded alike. -/
theorem DetectorAlike.recordFormats (h : DetectorAlike since d₁ d₂) (hnow : since ≤ now)
    (formats : List ClipboardFormat) (source : ClipboardSource) :
    DetectorAlike since (d₁.recordFormats sha256 now formats source)
      (d₂.recordFormats sha256 now formats source) := by
  have hpushed : DetectorAlike since
      { d₁ with formatHistory :=
        d₁.formatHistory ++ [⟨LoopDetector.hashFormats sha256 formats, source, now⟩] }
      { d₂ with formatHistory :=
        d₂.formatHistory ++ [⟨LoopDetector.hashFormats sha256 formats, source, now⟩] } :=
    ⟨h.config, h.formats.push hnow, h.contents⟩
  exact hpushed.cleanupHistory

theorem DetectorAlike.recordMimeTypes (h : DetectorAlike since d₁ d₂) (hnow : since ≤ now)
    (mimeTypes : List String) (source : ClipboardSource) :
    DetectorAlike since (d₁.recordMimeTypes sha256 now mimeTypes source)
      (d₂.recordMimeTypes sha256 now mimeTypes source) := by
  have hpushed : DetectorAlike since
      { d₁ with formatHistory :=
        d₁.formatHistory ++ [⟨LoopDetector.hashMimeTypes sha256 mimeTypes, source, now⟩] }
      { d₂ with formatHistory :=
        d₂.formatHistory ++ [⟨LoopDetector.hashMimeTypes sha256 mimeTypes, source, now⟩] } :=
    ⟨h.config, h.formats.push hnow, h.contents⟩
  exact hpushed.cleanupHistory

theorem DetectorAlike.recordContent (h : DetectorAlike since d₁ d₂) (hnow : since ≤ now)
    (data : List UInt8) (source : ClipboardSource) :
    DetectorAlike since (d₁.recordContent sha256 now data source)
      (d₂.recordContent sha256 now data source) := by
  have hpushed : DetectorAlike since
      { d₁ with contentHistory := d₁.contentHistory ++ [⟨sha256 data, source, now⟩] }
      { d₂ with contentHistory := d₂.contentHistory ++ [⟨sha256 data, source, now⟩] } :=
    ⟨h.config, h.formats, h.contents.push hnow⟩
  have hhashing : d₂.config.enableContentHashing = d₁.config.enableContentHashing := by
    rw [h.config]
  rw [LoopDetector.recordContent, LoopDetector.recordContent, hhashing]
  split
  · exact hpushed.cleanupHistory
  · exact h

/-- A synchronisation overwrites the one before, in both. -/
theorem DetectorAlike.recordSync (h : DetectorAlike since d₁ d₂) (source : ClipboardSource) :
    DetectorAlike since (d₁.recordSync now source) (d₂.recordSync now source) := by
  cases source <;> exact ⟨h.config, h.formats, h.contents⟩

end Detector

/-! ### Ownership -/

/-- The ownership policies answer every question from `since` on alike. -/
structure SyncAlike (since : Instant) (m₁ m₂ : SyncManager) : Prop where
  detector : DetectorAlike since m₁.detector m₂.detector
  blocks : ∀ now, since ≤ now → ∀ authoritative,
    m₁.ownershipBlocks now authoritative = m₂.ownershipBlocks now authoritative

/-- A question about the clipboard leaves alike policies alike, and they give the same answer. -/
def AsksAlike (since : Instant) {α : Type} (ask : SyncManager → α × SyncManager) : Prop :=
  ∀ m₁ m₂, SyncAlike since m₁ m₂ →
    (ask m₁).1 = (ask m₂).1 ∧ SyncAlike since (ask m₁).2 (ask m₂).2

section Sync

variable {sha256 : List UInt8 → String} {now : Instant}

/-- Alike managers answer alike to a format list of the client. -/
theorem asksAlike_handleRdpFormats (hnow : since ≤ now) (formats : List ClipboardFormat) :
    AsksAlike since fun m => m.handleRdpFormats sha256 now formats := by
  intro m₁ m₂ h
  have hloop : m₁.detector.wouldCauseLoop sha256 now formats =
      m₂.detector.wouldCauseLoop sha256 now formats := by
    rw [LoopDetector.wouldCauseLoop, LoopDetector.wouldCauseLoop, ← h.detector.config]
    exact h.detector.formats.collision hnow _ _
  simp only [SyncManager.handleRdpFormats, hloop]
  split
  · exact ⟨rfl, h⟩
  · exact ⟨rfl, (h.detector.recordFormats hnow formats .rdp).recordSync .rdp, fun _ _ _ => rfl⟩

/-- Alike managers answer alike to formats of the desktop, which are accepted by who owns the
clipboard. -/
theorem asksAlike_handlePortalFormats (hnow : since ≤ now) (mimeTypes : List String)
    (authoritative : Bool) :
    AsksAlike since fun m => m.handlePortalFormats sha256 now mimeTypes authoritative := by
  intro m₁ m₂ h
  have hloop : m₁.detector.wouldCauseLoopMime sha256 now mimeTypes =
      m₂.detector.wouldCauseLoopMime sha256 now mimeTypes := by
    rw [LoopDetector.wouldCauseLoopMime, LoopDetector.wouldCauseLoopMime, ← h.detector.config]
    exact h.detector.formats.collision hnow _ _
  simp only [SyncManager.handlePortalFormats, h.blocks now hnow authoritative, hloop]
  split
  · exact ⟨rfl, h⟩
  · split
    · exact ⟨rfl, h⟩
    · exact ⟨rfl, (h.detector.recordMimeTypes hnow mimeTypes .desktop).recordSync .desktop,
        fun _ _ _ => rfl⟩

/-- Alike managers find the same contents to be loops. -/
theorem asksAlike_checkContent (hnow : since ≤ now) (content : List UInt8) :
    AsksAlike since fun m => m.checkContent sha256 now content true := by
  intro m₁ m₂ h
  have hloop : m₁.detector.wouldCauseContentLoop sha256 now content .rdp =
      m₂.detector.wouldCauseContentLoop sha256 now content .rdp := by
    rw [LoopDetector.wouldCauseContentLoop, LoopDetector.wouldCauseContentLoop,
      ← h.detector.config, h.detector.contents.collision hnow]
  simp only [SyncManager.checkContent_rdp, hloop]
  split
  · exact ⟨rfl, h⟩
  · exact ⟨rfl, h.detector.recordContent hnow content .rdp, h.blocks⟩

end Sync

/-! ### Alike orchestrators -/

/-- Two orchestrators that differ only in expired records and in how they resolve MIME types to the
same formats. -/
structure Alike (since : Instant) (o₁ o₂ : Orchestrator) : Prop where
  config : o₁.config = o₂.config
  sync : SyncAlike since o₁.sync o₂.sync
  pending : o₁.pendingPortalRequests = o₂.pendingPortalRequests
  files : o₁.files = o₂.files
  resolves : ∀ mime,
    requestedFormat o₁.currentRdpFormats mime = requestedFormat o₂.currentRdpFormats mime
  advertised : o₁.localAdvertisedFormats = o₂.localAdvertisedFormats

/-- Alike sessions have also done the same. -/
def SessionAlike (since : Instant) (s t : Session) : Prop :=
  Alike since s.orch t.orch ∧ s.out = t.out

/-- A handler, or part of one, that alike sessions run alike. -/
abbrev Uniform (since : Instant) {α : Type} (x : Action α) : Prop :=
  Prog.Respects (SessionAlike since) x

variable {lib : Libraries} {env : Env}

/-- An output is the same for both. -/
theorem uniform_emit (o : Output) : Uniform since (emit o) :=
  Prog.respects_modify fun _ _ h => ⟨h.1, by rw [h.2]⟩

/-- A change of the queue is the same for both. -/
theorem uniform_modifyPending (f : List (UInt32 × String) → List (UInt32 × String)) :
    Uniform since (modifyPending f) :=
  Prog.respects_modify fun _ _ h => ⟨{ h.1 with pending := congrArg f h.1.pending }, h.2⟩

/-- A change of the file transfers is the same for both. -/
theorem uniform_modifyFiles (f : FileTransferState → FileTransferState) :
    Uniform since (modifyFiles f) :=
  Prog.respects_modify fun _ _ h => ⟨{ h.1 with files := congrArg f h.1.files }, h.2⟩

/-- What is asked of alike managers is answered alike. -/
theorem uniform_withSync {α : Type} {ask : SyncManager → α × SyncManager}
    (h : AsksAlike since ask) : Uniform since (withSync ask) := by
  intro s t hst
  obtain ⟨hanswer, hsync⟩ := h _ _ hst.1.sync
  exact ⟨congrArg Except.ok hanswer, { hst.1 with sync := hsync }, hst.2⟩

/-- The queue that is read is the same. So are the file transfers and the formats. -/
theorem uniform_pending : Uniform since (Prog.gets fun s => s.orch.pendingPortalRequests) :=
  Prog.respects_gets fun _ _ h => h.1.pending

theorem uniform_files : Uniform since (Prog.gets fun s => s.orch.files) :=
  Prog.respects_gets fun _ _ h => h.1.files

theorem uniform_advertised : Uniform since (Prog.gets fun s => s.orch.localAdvertisedFormats) :=
  Prog.respects_gets fun _ _ h => h.1.advertised

theorem uniform_send (message : ClipboardMessage) : Uniform since (send env message) :=
  Prog.Respects.ite (fun _ => uniform_emit _) fun _ => Prog.respects_pure _

theorem uniform_whenProvider {x : Action PUnit} (h : Uniform since x) :
    Uniform since (whenProvider env x) :=
  Prog.Respects.ite (fun _ => h) fun _ => Prog.respects_pure _

theorem uniform_forwardTransfer (serial : UInt32) (mime : String) :
    Uniform since (forwardTransfer serial mime) :=
  (uniform_modifyPending _).bind fun _ => uniform_emit _

/-- By induction on what arrives. -/
theorem uniform_arrive : ∀ entries, Uniform since (arrive entries)
  | [] => Prog.respects_pure _
  | (serial, mime) :: rest =>
    (uniform_forwardTransfer serial mime).bind fun _ => uniform_arrive rest

theorem uniform_cancelAll : ∀ entries, Uniform since (cancelAll entries)
  | [] => Prog.respects_pure _
  | _ :: rest => (uniform_emit _).bind fun _ => uniform_cancelAll rest

theorem uniform_removeAll : ∀ paths, Uniform since (removeAll paths)
  | [] => Prog.respects_pure _
  | _ :: rest => (uniform_emit _).bind fun _ => uniform_removeAll rest

theorem uniform_clearIncomingFiles : Uniform since clearIncomingFiles :=
  (Prog.respects_gets fun _ _ h => by rw [h.1.files]).bind fun _ =>
    (uniform_removeAll _).bind fun _ => uniform_modifyFiles _

/-! ### Alike handlers -/

theorem uniform_handleRdpReady : Uniform since (handleRdpReady env) :=
  uniform_advertised.bind fun _ =>
    Prog.Respects.ite (fun _ => Prog.respects_pure _) fun _ => uniform_send _

theorem uniform_announceToProvider (formats : List ClipboardFormat) (mimeTypes : List String) :
    Uniform since (announceToProvider env formats mimeTypes) := by
  have heager : Uniform since (eagerFetch env) :=
    (uniform_modifyPending _).bind fun _ =>
      Prog.Respects.ite (fun _ => uniform_emit _) fun _ => uniform_modifyPending _
  rw [announceToProvider]
  split
  · exact Prog.respects_pure _
  · refine Prog.Respects.ite (fun _ => (uniform_emit _).bind fun _ => ?_)
      fun _ => (uniform_emit _).bind fun _ => ?_
    · split
      · exact Prog.respects_fail _
      · exact Prog.Respects.ite (fun _ => heager) fun _ => Prog.respects_pure _
    · split
      · exact Prog.respects_fail _
      · exact Prog.respects_pure _

/-- The list is compared with the histories since the windows passed. -/
theorem uniform_handleRdpFormatList (hnow : since ≤ env.now) (formats : List ClipboardFormat) :
    Uniform since (handleRdpFormatList lib env formats) := by
  refine Prog.Respects.bind ?_ fun _ => ?_
  · exact Prog.respects_modify fun s t h => ⟨{ h.1 with resolves := fun _ => rfl }, h.2⟩
  · refine (uniform_withSync (asksAlike_handleRdpFormats hnow formats)).bind fun _ => ?_
    refine Prog.Respects.ite (fun _ => ?_) fun _ => Prog.respects_pure _
    exact Prog.Respects.ite (fun _ => Prog.respects_pure _)
      fun _ => uniform_announceToProvider _ _

theorem uniform_sendFileList (uriData : List UInt8) :
    Uniform since (sendFileList env uriData) := by
  rw [sendFileList]
  refine Prog.Respects.ite (fun _ => uniform_send _) fun _ => ?_
  refine (uniform_modifyFiles _).bind fun _ => ?_
  split
  · exact uniform_send _
  · exact uniform_send _

theorem uniform_handleFileDescriptorRequest : Uniform since (handleFileDescriptorRequest env) := by
  rw [handleFileDescriptorRequest]
  split
  · exact uniform_send _
  · rename_i provider _
    have hread : Uniform since (readUriData provider) := by
      refine (uniform_emit _).bind fun _ => ?_
      split
      · exact Prog.respects_pure _
      · exact (uniform_emit _).bind fun _ => Prog.respects_pure _
    refine hread.bind fun r => ?_
    cases r with
    | none => exact uniform_send _
    | some uriData => exact uniform_sendFileList uriData

theorem uniform_sendProviderData (formatId : UInt32) (mime : String) :
    Uniform since (sendProviderData lib env formatId mime) := by
  rw [sendProviderData]
  split
  · exact uniform_send _
  · refine (uniform_emit _).bind fun _ => ?_
    split
    · exact uniform_send _
    · split
      · exact Prog.respects_fail _
      · exact uniform_send _

/-- A request is answered from what both advertise, in the same formats. -/
theorem uniform_handleRdpDataRequest (formatId : UInt32) :
    Uniform since (handleRdpDataRequest lib env formatId) := by
  refine uniform_advertised.bind fun _ => ?_
  refine Prog.Respects.ite (fun _ => uniform_handleFileDescriptorRequest) fun _ => ?_
  split
  · exact uniform_send _
  · exact uniform_sendProviderData _ _

theorem uniform_handleRdpFileContentsRequest (streamId listIndex : UInt32) (position : UInt64)
    (size : UInt32) (isSizeRequest : Bool) :
    Uniform since
      (handleRdpFileContentsRequest env streamId listIndex position size isSizeRequest) := by
  refine Prog.Respects.ite (fun _ => Prog.respects_fail _) fun _ => ?_
  refine (Prog.respects_gets fun _ _ h => by rw [h.1.files]).bind fun _ => ?_
  split
  · exact Prog.respects_fail _
  · exact uniform_send _

theorem uniform_publishEagerFetch (provider : Provider) (data : List UInt8) :
    Uniform since (publishEagerFetch provider data) :=
  Prog.Respects.ite
    (fun _ => (uniform_emit _).bind fun _ => (uniform_emit _).bind fun _ =>
      Prog.Respects.ite (fun _ => uniform_emit _) fun _ => Prog.respects_pure _)
    fun _ => Prog.respects_pure _

/-- By induction on the list of files; the stream counters are the same. -/
theorem uniform_requestFiles : ∀ index descriptors,
    Uniform since (requestFiles env index descriptors)
  | _, [] => Prog.respects_pure _
  | index, descriptor :: rest => by
    have hfile : Uniform since (requestFile env index descriptor) := by
      refine uniform_files.bind fun _ => (uniform_modifyFiles _).bind fun _ => ?_
      refine Prog.Respects.ite (fun _ => ?_) fun _ => Prog.respects_pure _
      exact (uniform_emit _).bind fun _ => (uniform_modifyFiles _).bind fun _ => uniform_send _
    exact hfile.bind fun _ => uniform_requestFiles (index + 1) rest

theorem uniform_startFileTransfer (serial : UInt32) (mime : String)
    (descriptors : List FileDescriptor) :
    Uniform since (startFileTransfer env serial mime descriptors) := by
  refine uniform_files.bind fun _ => Prog.Respects.ite (fun _ => uniform_emit _) fun _ => ?_
  exact uniform_clearIncomingFiles.bind fun _ => (uniform_modifyFiles _).bind fun _ =>
    uniform_requestFiles _ _

theorem uniform_deliver (provider : Provider) (serial : UInt32) (mime : String)
    (data : List UInt8) : Uniform since (deliver lib env provider serial mime data) := by
  rw [deliver]
  split
  · exact Prog.respects_fail _
  · refine (uniform_emit _).bind fun _ => (uniform_arrive _).bind fun _ => ?_
    refine Prog.Respects.ite (fun _ => ?_) fun _ => uniform_modifyPending _
    exact uniform_pending.bind fun _ => (uniform_modifyPending _).bind fun _ =>
      uniform_cancelAll _

theorem uniform_settle (provider : Provider) (serial : UInt32) (mime : String)
    (data : List UInt8) : Uniform since (settle lib env provider serial mime data) := by
  refine Prog.Respects.ite (fun _ => uniform_publishEagerFetch _ _) fun _ => ?_
  refine Prog.Respects.ite (fun _ => ?_) fun _ => uniform_deliver _ _ _ _
  split
  · exact uniform_startFileTransfer _ _ _
  · exact uniform_deliver _ _ _ _

/-- The answer is compared with the histories since the windows passed. -/
theorem uniform_handleRdpDataResponse (hnow : since ≤ env.now) (data : List UInt8) :
    Uniform since (handleRdpDataResponse lib env data) := by
  refine (uniform_withSync (asksAlike_checkContent hnow data)).bind fun _ => ?_
  refine Prog.Respects.ite (fun _ => ?_) fun _ => Prog.respects_pure _
  split
  · exact Prog.respects_pure _
  · refine uniform_pending.bind fun pending => ?_
    rcases pending with _ | ⟨⟨serial, mime⟩, rest⟩
    · exact Prog.respects_pure _
    · exact (uniform_modifyPending _).bind fun _ => uniform_settle _ _ _ _

theorem uniform_handleRdpDataError : Uniform since (handleRdpDataError env) :=
  uniform_pending.bind fun _ => (uniform_whenProvider (uniform_cancelAll _)).bind fun _ =>
    (uniform_arrive _).bind fun _ => uniform_modifyPending _

theorem uniform_completePaste (mime : String) (data : List UInt8) (success : Bool) :
    ∀ serial, Uniform since (completePaste env mime data success serial)
  | some _ => uniform_whenProvider (uniform_emit _)
  | none => Prog.respects_pure _

theorem uniform_failStream (streamId : UInt32) : Uniform since (failStream env streamId) := by
  have hdiscard : ∀ file, Uniform since (discard file) := by
    rintro (_ | file)
    · exact Prog.respects_pure _
    · exact uniform_emit _
  exact uniform_files.bind fun _ => (hdiscard _).bind fun _ => (uniform_modifyFiles _).bind fun _ =>
    uniform_completePaste _ _ _ _

theorem uniform_finishFile (streamId : UInt32) (file : IncomingFile) :
    Uniform since (finishFile env streamId file) := by
  rw [finishFile]
  split
  · exact Prog.respects_fail _
  · refine (uniform_modifyFiles _).bind fun _ => uniform_files.bind fun _ => ?_
    split
    · exact Prog.respects_fail _
    · refine (uniform_emit _).bind fun _ => ?_
      refine Prog.Respects.ite (fun _ => ?_) fun _ => Prog.respects_pure _
      exact (uniform_completePaste _ _ _ _).bind fun _ => uniform_modifyFiles _

theorem uniform_continueFile (streamId : UInt32) (file : IncomingFile) :
    Uniform since (continueFile env streamId file) := by
  rw [continueFile]
  split
  · exact Prog.respects_pure _
  · exact Prog.Respects.ite (fun _ => uniform_finishFile _ _) fun _ => uniform_send _

theorem uniform_handleRdpFileContentsResponse (streamId : UInt32) (data : List UInt8)
    (isError : Bool) :
    Uniform since (handleRdpFileContentsResponse env streamId data isError) := by
  have hset : ∀ file, Uniform since (setIncoming streamId file) := fun _ => uniform_modifyFiles _
  have hsize : ∀ file, Uniform since (receiveSize env streamId file data) := by
    intro file
    rw [receiveSize]
    split
    · exact Prog.respects_fail _
    · refine (hset _).bind fun _ => ?_
      refine Prog.Respects.ite (fun _ => ?_) fun _ => uniform_continueFile _ _
      exact Prog.Respects.ite (fun _ => Prog.respects_fail _) fun _ => uniform_send _
  have hchunk : ∀ file, Uniform since (receiveChunk env streamId file data) := by
    intro file
    rw [receiveChunk]
    split
    · exact (uniform_emit _).bind fun _ => (hset _).bind fun _ => Prog.respects_fail _
    · exact (uniform_emit _).bind fun _ => (hset _).bind fun _ => uniform_continueFile _ _
  refine Prog.Respects.ite (fun _ => uniform_failStream _) fun _ => uniform_files.bind fun _ => ?_
  split
  · exact Prog.respects_pure _
  · exact Prog.Respects.ite (fun _ => hsize _) fun _ => hchunk _

/-- The formats are compared with the histories since the windows passed. -/
theorem uniform_handlePortalFormats (hnow : since ≤ env.now) (mimeTypes : List String)
    (force : Bool) : Uniform since (handlePortalFormats lib env mimeTypes force) := by
  refine (uniform_withSync (asksAlike_handlePortalFormats hnow mimeTypes force)).bind
    fun decision => ?_
  cases decision with
  | block => exact Prog.respects_pure _
  | allow =>
    refine (Prog.respects_gets fun _ _ h => h.1.config).bind fun config => ?_
    refine Prog.Respects.ite (fun _ => Prog.respects_pure _) fun _ => ?_
    refine Prog.Respects.bind ?_ fun _ => uniform_send _
    exact Prog.respects_modify fun s t h => ⟨{ h.1 with advertised := rfl }, h.2⟩

/-- Only what a MIME type resolves to is seen of the client's formats. -/
theorem uniform_handlePortalDataRequest (mime : String) :
    Uniform since (handlePortalDataRequest env mime) := by
  intro s t h
  simp only [handlePortalDataRequest, Prog.run_bind, Prog.run_gets, h.1.resolves mime]
  rcases requestedFormat t.orch.currentRdpFormats mime with _ | formatId
  · exact ⟨rfl, h⟩
  · exact uniform_send _ s t h

theorem uniform_clearConnectionState : Uniform since (clearConnectionState env) :=
  (uniform_whenProvider (uniform_emit _)).bind fun _ => uniform_clearIncomingFiles.bind fun _ =>
    uniform_modifyFiles _

/-- The input happens at `since` or later. -/
def Input.After (since : Instant) : Input → Prop
  | .transfer .. => True
  | .event env _ => since ≤ env.now
  | .disconnect _ => True

/-- **Alike orchestrators react alike**, to whatever happens from `since` on. -/
theorem alike_respond {o₁ o₂ : Orchestrator} (h : Alike since o₁ o₂) {i : Input}
    (hi : i.After since) :
    (respond lib o₁ i).out = (respond lib o₂ i).out ∧
      Alike since (respond lib o₁ i).orch (respond lib o₂ i).orch := by
  have huniform : Uniform since (react lib i) := by
    cases i with
    | transfer serial mime => exact uniform_forwardTransfer _ _
    | disconnect env => exact uniform_clearConnectionState
    | event env e =>
      cases e with
      | rdpReady => exact uniform_handleRdpReady
      | rdpFormatList formats => exact uniform_handleRdpFormatList hi _
      | rdpDataRequest formatId => exact uniform_handleRdpDataRequest _
      | rdpDataResponse data => exact uniform_handleRdpDataResponse hi _
      | rdpDataError => exact uniform_handleRdpDataError
      | rdpFileContentsRequest streamId listIndex position size isSizeRequest =>
        exact uniform_handleRdpFileContentsRequest _ _ _ _ _
      | rdpFileContentsResponse streamId data isError =>
        exact uniform_handleRdpFileContentsResponse _ _ _
      | portalFormatsAvailable mimeTypes force => exact uniform_handlePortalFormats hi _ _
      | portalDataRequest mime => exact uniform_handlePortalDataRequest _
  obtain ⟨-, horch, hout⟩ := huniform ⟨o₁, []⟩ ⟨o₂, []⟩ ⟨h, rfl⟩
  exact ⟨hout, horch⟩

/-! ### Leftovers -/

/-- What the next connection can see of the previous one. -/
@[ext] structure Residue where
  pending : List (UInt32 × String)
  advertised : List ClipboardFormat
  format : String → Option UInt32
  clientOwns : Bool
  nextStreamId : UInt32

/-- The client owns the clipboard. -/
def SyncManager.clientOwns (m : SyncManager) : Bool :=
  match m.state with
  | .rdpOwned .. => true
  | _ => false

/-- What a client that is gone leaves to the next one. -/
def residue (o : Orchestrator) : Residue where
  pending := o.pendingPortalRequests
  advertised := o.localAdvertisedFormats
  format := requestedFormat o.currentRdpFormats
  clientOwns := o.sync.clientOwns
  nextStreamId := o.files.nextStreamId

/-- The loop windows and the echo window have passed at `since`. -/
structure WindowsExpired (since : Instant) (o : Orchestrator) : Prop where
  formats : LoopDetector.Expired o.sync.detector.config since o.sync.detector.formatHistory
  contents : LoopDetector.Expired o.sync.detector.config since o.sync.detector.contentHistory
  echo : ∀ formats owned, o.sync.state = .rdpOwned formats owned → owned + echoWindow ≤ since

/-- The orchestrator after a connection: its history, then the disconnect. -/
def afterConnection (lib : Libraries) (config : OrchestratorConfig) (downloadDir : String)
    (history : List Input) (env : Env) : Orchestrator :=
  (orchestrator lib).exec (.new config downloadDir) (history ++ [.disconnect env])

/-- What is left is what the disconnection makes of the last state. -/
theorem afterConnection_eq (lib : Libraries) (config : OrchestratorConfig) (downloadDir : String)
    (history : List Input) (env : Env) :
    afterConnection lib config downloadDir history env =
      (respond lib ((orchestrator lib).exec (.new config downloadDir) history)
        (.disconnect env)).orch :=
  Machine.exec_append ..

/-- Once the echo window has passed, the client's ownership blocks exactly what is not
authoritative. -/
theorem WindowsExpired.ownershipBlocks {o : Orchestrator} (h : WindowsExpired since o)
    {now : Instant} (hnow : since ≤ now) (authoritative : Bool) :
    o.sync.ownershipBlocks now authoritative = (o.sync.clientOwns && !authoritative) := by
  rw [SyncManager.ownershipBlocks, SyncManager.clientOwns]
  cases hstate : o.sync.state with
  | rdpOwned formats owned =>
    have hpassed : ¬ now - owned < echoWindow :=
      Nat.not_lt.mpr (Nat.le_sub_of_add_le' ((h.echo formats owned hstate).trans hnow))
    simp [hpassed]
  | idle => rfl
  | portalOwned mimeTypes => rfl
  | syncing direction => rfl

/-- What the orchestrator keeps for life. -/
structure Configured (config : OrchestratorConfig) (downloadDir : String) (o : Orchestrator) :
    Prop where
  config_eq : o.config = config
  detector : o.sync.detector.config = ⟨config.loopDetectionWindowMs, 10, true⟩
  content : o.sync.ClientContent
  downloadDir_eq : o.files.downloadDir = downloadDir

/-- No input changes the configuration. -/
theorem configured_exec (lib : Libraries) (config : OrchestratorConfig) (downloadDir : String)
    (history : List Input) :
    Configured config downloadDir ((orchestrator lib).exec (.new config downloadDir) history) := by
  have hstep : ∀ o i, Configured config downloadDir o → True →
      Configured config downloadDir ((orchestrator lib).step o i).1 := by
    intro o i ho _
    have hkeeps : Keeps i.touches o (respond lib o i).orch := respond_keeps o i
    exact ⟨hkeeps.config.trans ho.config_eq, hkeeps.detector.trans ho.detector,
      hkeeps.clientContent ho.content, hkeeps.downloadDir.trans ho.downloadDir_eq⟩
  exact Machine.exec_invariant hstep ⟨rfl, rfl, SyncManager.clientContent_withConfig _, rfl⟩
    Machine.along_true

/-- What holds of the orchestrator between connections. -/
structure Cleared (config : OrchestratorConfig) (downloadDir : String) (o : Orchestrator) : Prop
    extends Configured config downloadDir o where
  files : o.files = { FileTransferState.new downloadDir with nextStreamId := o.files.nextStreamId }

/-- After a disconnection the file transfers are as at the start, except for the stream counter. -/
theorem cleared_afterConnection (lib : Libraries) (config : OrchestratorConfig)
    (downloadDir : String) (history : List Input) (env : Env) :
    Cleared config downloadDir (afterConnection lib config downloadDir history env) := by
  have hbefore := configured_exec lib config downloadDir history
  have hafter : Configured config downloadDir
      (afterConnection lib config downloadDir history env) := configured_exec ..
  refine ⟨hafter, ?_⟩
  rw [afterConnection_eq, respond_disconnect_files, hbefore.downloadDir_eq]

/-- **Cleared orchestrators with the same residue are alike** once the windows have passed. -/
theorem alike_of_residue {config : OrchestratorConfig} {downloadDir : String}
    {o₁ o₂ : Orchestrator} (h₁ : Cleared config downloadDir o₁) (h₂ : Cleared config downloadDir o₂)
    (hexp₁ : WindowsExpired since o₁) (hexp₂ : WindowsExpired since o₂)
    (h : residue o₁ = residue o₂) : Alike since o₁ o₂ where
  config := h₁.config_eq.trans h₂.config_eq.symm
  sync := by
    have hdetector := h₁.detector.trans h₂.detector.symm
    refine ⟨⟨hdetector, ?_, ?_⟩, fun now hnow authoritative => ?_⟩
    · exact ⟨_, _, [], (List.append_nil _).symm, (List.append_nil _).symm, hexp₁.formats,
        hdetector ▸ hexp₂.formats, fun _ h => nomatch h⟩
    · exact ⟨_, _, [], (List.append_nil _).symm, (List.append_nil _).symm, hexp₁.contents,
        hdetector ▸ hexp₂.contents, fun _ h => nomatch h⟩
    · rw [hexp₁.ownershipBlocks hnow, hexp₂.ownershipBlocks hnow,
        show o₁.sync.clientOwns = o₂.sync.clientOwns from congrArg Residue.clientOwns h]
  pending := congrArg Residue.pending h
  files := by
    rw [h₁.files, h₂.files,
      show o₁.files.nextStreamId = o₂.files.nextStreamId from congrArg Residue.nextStreamId h]
  resolves mime := congrFun (congrArg Residue.format h) mime
  advertised := congrArg Residue.advertised h

/-! ### Experiments

One short connection per leftover, in a world where everything works. -/

/-- A world where everything works, at a given time. -/
def openEnv (now : Instant) : Env where
  now
  sender := .registered
  provider := some ⟨false, fun _ => .ok (), fun _ => none, fun _ _ => true⟩
  disk := {
    existing := []
    metadata := fun _ => none
    createsDownloadDir := true
    createsFile := fun _ => true
    readsChunk := fun _ _ _ => none
    writes := .ok ()
    flushes := .ok ()
    renames := fun _ _ => .ok () }
  arrivals := []

/-- A descriptor list with one file that has no name and no size. -/
def oneFile : List UInt8 := [1, 0, 0, 0] ++ List.replicate 592 0

theorem parseList_oneFile :
    FileDescriptor.parseList oneFile = .ok [⟨0, 0, none, none, none, none, []⟩] := by
  decide +kernel

variable {o : Orchestrator}

/-- The error of a client shows the queue. -/
theorem respond_error (now : Instant) :
    respond lib o (.event (openEnv now) .rdpDataError) =
      ⟨{ o with pendingPortalRequests := [] }, cancelled o.pendingPortalRequests⟩ := by
  simp [respond, react, handleEvent, handleRdpDataError, Prog.run_bind, whenProvider, openEnv,
    run_cancelAll, run_arrive, forwarded]

/-- A client that becomes ready shows the advertised formats. -/
theorem respond_ready_out (now : Instant) :
    (respond lib o (.event (openEnv now) .rdpReady)).out =
      if o.localAdvertisedFormats = [] then []
      else [.toClient (.sendInitiateCopy o.localAdvertisedFormats)] := by
  by_cases h : o.localAdvertisedFormats = [] <;>
    simp [respond, react, handleEvent, handleRdpReady, Prog.run_bind, openEnv, h]

/-- A paste shows what its type resolves to. -/
theorem respond_paste_out (now : Instant) (mime : String) :
    (respond lib o (.event (openEnv now) (.portalDataRequest mime))).out =
      match requestedFormat o.currentRdpFormats mime with
      | none => []
      | some formatId => [.toClient (.sendInitiatePaste formatId)] := by
  rcases h : requestedFormat o.currentRdpFormats mime with _ | formatId <;>
    simp [respond, react, handleEvent, handlePortalDataRequest, Prog.run_bind, openEnv, h]

/-- A local offer that is not authoritative shows whether the client owns the clipboard. -/
theorem respond_offer_out (h : WindowsExpired since o) :
    (respond lib o (.event (openEnv since) (.portalFormatsAvailable ["text/plain"] false))).out =
      if o.sync.clientOwns then []
      else [.toClient (.sendInitiateCopy (mimeToRdpFormats ["text/plain"]))] := by
  have hblocks := h.ownershipBlocks (Nat.le_refl since) false
  have hloop : o.sync.detector.wouldCauseLoopMime lib.sha256 since ["text/plain"] = false :=
    h.formats.checkHashCollision (Nat.le_refl since) _ _
  have hallows : allowsMime o.config "text/plain" = true := rfl
  have hfilter : ["text/plain"].filter (allowsMime o.config) = ["text/plain"] := rfl
  cases hown : o.sync.clientOwns with
  | true =>
    rw [hown] at hblocks
    simp [respond, react, handleEvent, handlePortalFormats, Prog.run_bind, openEnv,
      SyncManager.handlePortalFormats, hblocks]
  | false =>
    rw [hown] at hblocks
    simp [respond, react, handleEvent, handlePortalFormats, Prog.run_bind, openEnv,
      SyncManager.handlePortalFormats, hblocks, hloop, advertise, hallows, hfilter]

/-- The streams on which files are requested. -/
def requestedStreams (out : List Output) : List UInt32 :=
  out.filterMap fun
    | .toClient (.sendFileContentsRequest request) => some request.streamId
    | _ => none

/-- The answer to a pasted file asks for it on the next stream. -/
theorem respond_oneFile_streams (hcontent : o.sync.ClientContent)
    (hq : o.pendingPortalRequests = [(0, "text/uri-list")]) (hidle : o.files.incomingFiles = [])
    (now : Instant) :
    requestedStreams (respond lib o (.event (openEnv now) (.rdpDataResponse oneFile))).out =
      [o.files.nextStreamId] := by
  have hcheck : (o.sync.checkContent lib.sha256 (openEnv now).now oneFile true).1 = true :=
    SyncManager.checkContent_of_clientContent hcontent oneFile
  have hsettle : ∀ provider, settle lib (openEnv now) provider 0 "text/uri-list" oneFile =
      startFileTransfer (openEnv now) 0 "text/uri-list" [⟨0, 0, none, none, none, none, []⟩] := by
    intro provider
    simp only [settle, parseList_oneFile]
    rfl
  rw [respond_rdpDataResponse_cons hcheck rfl hq, hsettle,
    run_startFileTransfer_idle hidle (by simp [openEnv])]
  simp [requestFiles, requestFile, Prog.run_bind, openEnv, beginTransfer, answerNoted,
    FileTransferState.tempPaths, hidle, requestedStreams, firstRequest,
    FileTransferState.allocateStreamId, FileTransferState.clearIncoming,
    FileTransferState.setPendingDescriptors]

/-- A pasted file shows the stream counter, once the queue is out of the way. -/
theorem trace_file_streams (hcontent : o.sync.ClientContent) (hidle : o.files.incomingFiles = [])
    (now : Instant) :
    requestedStreams ((orchestrator lib).trace o [.event (openEnv now) .rdpDataError,
      .transfer 0 "text/uri-list", .event (openEnv now) (.rdpDataResponse oneFile)]) =
        [o.files.nextStreamId] := by
  let queued : Orchestrator := { o with pendingPortalRequests := [(0, "text/uri-list")] }
  have htransfer : respond lib { o with pendingPortalRequests := [] }
      (.transfer 0 "text/uri-list") = ⟨queued, [.forward 0 "text/uri-list"]⟩ := rfl
  have hqueued : queued.sync.ClientContent ∧ queued.files.incomingFiles = [] := ⟨hcontent, hidle⟩
  have hlast : requestedStreams (respond lib queued (.event (openEnv now)
      (.rdpDataResponse oneFile))).out = [queued.files.nextStreamId] :=
    respond_oneFile_streams hqueued.1 rfl hqueued.2 now
  have hcancelled : requestedStreams (cancelled o.pendingPortalRequests) = [] := by
    simp [requestedStreams, cancelled, List.filterMap_map]
  simp only [Machine.trace, orchestrator, respond_error, htransfer]
  rw [requestedStreams, List.filterMap_append, ← requestedStreams, hcancelled, List.nil_append]
  simpa [requestedStreams] using hlast

/-! ### Isolation -/

/-- Whatever happens from `since` on, the outputs are the same. -/
def Indistinguishable (lib : Libraries) (since : Instant) (o₁ o₂ : Orchestrator) : Prop :=
  ∀ next : List Input, (∀ i ∈ next, i.After since) →
    (orchestrator lib).trace o₁ next = (orchestrator lib).trace o₂ next

/-- The disconnect leaves the residue as it is. -/
theorem residue_respond_disconnect (lib : Libraries) (o : Orchestrator) (env : Env) :
    residue (respond lib o (.disconnect env)).orch = residue o := by
  by_cases hp : env.provider.isSome <;>
    simp [residue, respond, react, clearConnectionState, whenProvider, Prog.run_bind, hp,
      run_clearIncomingFiles, FileTransferState.clearIncoming, FileTransferState.clearOutgoing,
      FileTransferState.setPendingDescriptors]

/-- The disconnection changes nothing of the residue. -/
theorem residue_afterConnection (lib : Libraries) (config : OrchestratorConfig)
    (downloadDir : String) (history : List Input) (env : Env) :
    residue (afterConnection lib config downloadDir history env) =
      residue ((orchestrator lib).exec (.new config downloadDir) history) := by
  rw [afterConnection_eq, residue_respond_disconnect]

/-- The failures that are announced tell the queue. -/
theorem cancelled_injective : Function.Injective cancelled := by
  refine List.map_injective_iff.mpr fun r r' h => ?_
  simp only [Output.completeTransfer.injEq, and_true] at h
  exact Prod.ext h.1 h.2

/-- **Two orchestrators that the next connection cannot tell apart left the same residue.** -/
theorem residue_eq_of_trace_eq {config : OrchestratorConfig} {downloadDir : String}
    {o₁ o₂ : Orchestrator} (h₁ : Cleared config downloadDir o₁) (h₂ : Cleared config downloadDir o₂)
    (hexp₁ : WindowsExpired since o₁) (hexp₂ : WindowsExpired since o₂)
    (h : Indistinguishable lib since o₁ o₂) : residue o₁ = residue o₂ := by
  have hone : ∀ e, (respond lib o₁ (.event (openEnv since) e)).out =
      (respond lib o₂ (.event (openEnv since) e)).out := by
    intro e
    have heq := h [.event (openEnv since) e] (by simp [Input.After, openEnv])
    simpa [Machine.trace, orchestrator] using heq
  have hidle₁ : o₁.files.incomingFiles = [] := by rw [h₁.files]; rfl
  have hidle₂ : o₂.files.incomingFiles = [] := by rw [h₂.files]; rfl
  refine Residue.ext ?_ ?_ (funext fun mime => ?_) ?_ ?_
  · have heq := hone .rdpDataError
    rw [respond_error, respond_error] at heq
    exact cancelled_injective heq
  · have heq := hone .rdpReady
    rw [respond_ready_out, respond_ready_out] at heq
    show o₁.localAdvertisedFormats = o₂.localAdvertisedFormats
    split at heq <;> split at heq <;> simp_all
  · have heq := hone (.portalDataRequest mime)
    rw [respond_paste_out, respond_paste_out] at heq
    show requestedFormat o₁.currentRdpFormats mime = requestedFormat o₂.currentRdpFormats mime
    split at heq <;> split at heq <;> simp_all
  · have heq := hone (.portalFormatsAvailable ["text/plain"] false)
    rw [respond_offer_out hexp₁, respond_offer_out hexp₂] at heq
    show o₁.sync.clientOwns = o₂.sync.clientOwns
    split at heq <;> split at heq <;> simp_all
  · have heq := congrArg requestedStreams (h [.event (openEnv since) .rdpDataError,
      .transfer 0 "text/uri-list", .event (openEnv since) (.rdpDataResponse oneFile)]
      (by simp [Input.After, openEnv]))
    rw [trace_file_streams h₁.content hidle₁, trace_file_streams h₂.content hidle₂] at heq
    exact List.head_eq_of_cons_eq heq

/-- **The next connection cannot tell two previous ones apart exactly if they ended with the same
residue**: `clearConnectionState` resets none of it. -/
theorem isolation_iff (lib : Libraries) (config : OrchestratorConfig) (downloadDir : String)
    (history₁ history₂ : List Input) (env₁ env₂ : Env) (since : Instant)
    (hexp₁ : WindowsExpired since (afterConnection lib config downloadDir history₁ env₁))
    (hexp₂ : WindowsExpired since (afterConnection lib config downloadDir history₂ env₂)) :
    Indistinguishable lib since (afterConnection lib config downloadDir history₁ env₁)
        (afterConnection lib config downloadDir history₂ env₂) ↔
      residue ((orchestrator lib).exec (.new config downloadDir) history₁) =
        residue ((orchestrator lib).exec (.new config downloadDir) history₂) := by
  have hclear₁ := cleared_afterConnection lib config downloadDir history₁ env₁
  have hclear₂ := cleared_afterConnection lib config downloadDir history₂ env₂
  have hstep : ∀ s t i, Alike since s t → i.After since →
      ((orchestrator lib).step s i).2 = ((orchestrator lib).step t i).2 ∧
        Alike since ((orchestrator lib).step s i).1 ((orchestrator lib).step t i).1 :=
    fun _ _ _ hst hi => alike_respond hst hi
  rw [← residue_afterConnection lib config downloadDir history₁ env₁,
    ← residue_afterConnection lib config downloadDir history₂ env₂]
  constructor
  · intro h
    exact residue_eq_of_trace_eq hclear₁ hclear₂ hexp₁ hexp₂ h
  · intro h next hnext
    exact Machine.trace_eq_of_simulation hstep
      (alike_of_residue hclear₁ hclear₂ hexp₁ hexp₂ h) hnext

/-- A connection that has not touched the loop detection leaves no window open. -/
theorem windowsExpired_of_fresh {detection : LoopDetectionConfig} {o : Orchestrator}
    (h : o.sync = SyncManager.withConfig detection) : WindowsExpired since o := by
  refine ⟨?_, ?_, ?_⟩ <;> rw [h]
  · exact fun _ h => nomatch h
  · exact fun _ h => nomatch h
  · exact fun _ _ h => nomatch h

/-- The orchestrator after a connection with the sample configuration. -/
def afterSample (history : List Input) : Orchestrator :=
  afterConnection sampleLibraries sampleConfig "/home/user/Downloads" history sampleEnv

/-- A transfer that the client refused leaves nothing behind. -/
theorem refused_transfer_isolated :
    Indistinguishable sampleLibraries 0 (afterSample [])
      (afterSample [.transfer 7 "text/plain", .event sampleEnv .rdpDataError]) :=
  (isolation_iff sampleLibraries sampleConfig "/home/user/Downloads" []
    [.transfer 7 "text/plain", .event sampleEnv .rdpDataError] sampleEnv sampleEnv 0
    (windowsExpired_of_fresh rfl) (windowsExpired_of_fresh rfl)).mpr rfl

/-- A transfer left over from the previous connection receives what the next client sends for its
own transfer. -/
theorem leftover_transfer_answered :
    ¬ ∀ history₁ history₂, WindowsExpired 0 (afterSample history₁) →
      WindowsExpired 0 (afterSample history₂) →
        Indistinguishable sampleLibraries 0 (afterSample history₁) (afterSample history₂) := by
  intro h
  let next : List Input :=
    [.transfer 9 "text/plain", .event sampleEnv (.rdpDataResponse [0x41, 0x00])]
  have heq : (orchestrator sampleLibraries).trace (afterSample []) next =
      (orchestrator sampleLibraries).trace (afterSample [.transfer 7 "text/plain"]) next :=
    h _ _ (windowsExpired_of_fresh rfl) (windowsExpired_of_fresh rfl) next
      (by simp [next, Input.After, sampleEnv])
  have hfirst : Output.completeTransfer 9 "text/plain" [0x41] true ∈
      (orchestrator sampleLibraries).trace (afterSample []) next := by
    decide +kernel
  have hsecond : Output.completeTransfer 9 "text/plain" [0x41] true ∉
      (orchestrator sampleLibraries).trace (afterSample [.transfer 7 "text/plain"]) next := by
    decide +kernel
  exact hsecond (heq ▸ hfirst)

end Clipboard

end Cheirizo
