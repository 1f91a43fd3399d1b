import Cheirizo.Clipboard.Contents
import Cheirizo.Clipboard.Names

/-!
# Files that are delivered

A paste of files waits until all of them have been received, and is then given the list of their
URIs. Here a transfer is followed from its start through any sequence of answers of the client, and
beside the orchestrator stands what has come in for each stream, which files were moved to their
final paths, and which lists were handed out.

The handler puts a file on the list before it moves it, so a file that could not be moved is handed
out with the others if it was not the last one; and it neither cuts off what a client sends beyond
the size it announced, nor takes back what a failed write left in a file.

## Main definitions

* `Reception` — a transfer, and what is known about it
* `DeliversFiles` — every URI handed out names a file of this transfer, received whole
* `KeepsFiles` — what an answer must not do while a paste waits

## Main results

* `delivered_files_finalized` — along answers that keep files, only files received whole are
  delivered, and none twice
-/

namespace Cheirizo

namespace Clipboard

/-! ### A transfer -/

/-- An answer of the client to a request for file contents. -/
structure ContentsResponse where
  env : Env
  streamId : UInt32
  data : List UInt8
  isError : Bool

/-- A file that was moved to its final path: what was announced, and what is in it. -/
structure FinalizedFile where
  streamId : UInt32
  path : String
  totalSize : Option UInt64
  contents : List UInt8
  deriving DecidableEq

/-- The orchestrator while files arrive, and what has been made of them. -/
structure Reception where
  orch : Orchestrator
  /-- The data received for each stream. -/
  chunks : UInt32 → List UInt8
  finalized : List FinalizedFile
  /-- The lists of URIs handed to the provider. -/
  handed : List (List UInt8)

namespace Reception

variable (lib : Libraries)

/-- A transfer that starts. -/
def start (env : Env) (o : Orchestrator) (serial : UInt32) (mime : String)
    (descriptors : List FileDescriptor) : Reception where
  orch := ((startFileTransfer env serial mime descriptors).run ⟨o, []⟩).2.orch
  chunks _ := []
  finalized := []
  handed := []

/-- The file that an answer is for. -/
def file? (r : Reception) (response : ContentsResponse) : Option IncomingFile :=
  if response.isError then none else r.orch.files.incoming? response.streamId

/-- The orchestrator after an answer, and what it has done. -/
def respond (r : Reception) (response : ContentsResponse) : Session :=
  Clipboard.respond lib r.orch (.event response.env
    (.rdpFileContentsResponse response.streamId response.data response.isError))

/-- An answer of the client is handled, and what it brings is noted. -/
def step (r : Reception) (response : ContentsResponse) : Reception where
  orch := (r.respond lib response).orch
  chunks :=
    if (r.file? response).any fun file => !file.awaitingSize then
      Function.update r.chunks response.streamId (r.chunks response.streamId ++ response.data)
    else r.chunks
  finalized := r.finalized ++
    match r.file? response with
    | none => []
    | some file =>
      (finalPaths (r.respond lib response).out).map fun path =>
        ⟨response.streamId, path, (file.withData response.data).totalSize,
          (file.withData response.data).contents⟩
  handed := r.handed ++ payloads (r.respond lib response).out

end Reception

/-- A transfer as a machine. What it emits is part of its state. -/
def reception (lib : Libraries) : Machine Reception ContentsResponse Unit where
  step r response := (r.step lib response, [])

namespace Reception

variable {lib : Libraries} {r : Reception} {response : ContentsResponse}

/-- A file that was moved holds all that came in for its stream, and as much as was announced. -/
def Whole (r : Reception) (f : FinalizedFile) : Prop :=
  f.contents = r.chunks f.streamId ∧ f.totalSize.map UInt64.toNat = some f.contents.length

/-- **Delivered file URIs are delivered files**, and no URI is delivered twice. -/
def DeliversFiles (r : Reception) : Prop :=
  ∀ payload ∈ r.handed, (uriLines payload).Nodup ∧
    ∀ uri ∈ uriLines payload, ∃ f ∈ r.finalized, fileUriBytes f.path = uri ∧ r.Whole f

instance (r : Reception) : Decidable r.DeliversFiles :=
  inferInstanceAs (Decidable (∀ payload ∈ r.handed, (uriLines payload).Nodup ∧
    ∀ uri ∈ uriLines payload, ∃ f ∈ r.finalized, fileUriBytes f.path = uri ∧
      f.contents = r.chunks f.streamId ∧ f.totalSize.map UInt64.toNat = some f.contents.length))

/-- While a paste waits, what comes in is written and fits, and a complete file is moved, unless it
is the last one. -/
def KeepsFiles (r : Reception) (response : ContentsResponse) : Prop :=
  r.orch.files.portalSerial ≠ none → ∀ file, r.file? response = some file →
    (file.awaitingSize = false → response.env.disk.writes = .ok () ∧
      ∀ total, file.totalSize = some total →
        file.receivedSize.toNat + response.data.length ≤ total.toNat) ∧
    (file.completes response.data = true → response.env.disk.flushes = .ok () →
      response.env.disk.renames file.tempPath file.finalPath = .ok () ∨
        ∀ other ∈ r.orch.files.incomingFiles, other.1 = response.streamId)

instance (r : Reception) (response : ContentsResponse) : Decidable (r.KeepsFiles response) :=
  decidable_of_iff (r.orch.files.portalSerial ≠ none → ((r.file? response).all fun file =>
    (file.awaitingSize = false → response.env.disk.writes = .ok () ∧
      (file.totalSize.all fun total =>
        file.receivedSize.toNat + response.data.length ≤ total.toNat) = true) ∧
    (file.completes response.data = true → response.env.disk.flushes = .ok () →
      response.env.disk.renames file.tempPath file.finalPath = .ok () ∨
        ∀ other ∈ r.orch.files.incomingFiles, other.1 = response.streamId)) = true)
    (by simp only [KeepsFiles, Option.all_eq_true, decide_eq_true_eq])

/-- A transfer under way. The list of complete files may be wrong once nothing more can come in, for
it is not handed out then. -/
structure Receiving (r : Reception) : Prop where
  distinct : r.orch.files.Distinct
  closed : ∀ f ∈ r.finalized, f.streamId ∉ r.orch.files.incomingFiles.map Prod.fst
  delivered : r.DeliversFiles
  waiting : r.orch.files.portalSerial ≠ none →
    (∀ f ∈ r.orch.files.incomingFiles, f.2.Intact (r.chunks f.1)) ∧
      (r.orch.files.incomingFiles = [] ∨ ∀ path ∈ r.orch.files.completedFiles,
        ∃ f ∈ r.finalized, f.path = path ∧ r.Whole f)

/-! ### One answer -/

theorem chunks_step_of_ne {id : UInt32} (h : id ≠ response.streamId) :
    (r.step lib response).chunks id = r.chunks id := by
  show (if _ then _ else _ : UInt32 → List UInt8) id = _
  split
  · exact Function.update_of_ne h _ _
  · rfl

theorem chunks_step_of_none (h : ∀ file, r.file? response = some file → file.awaitingSize = true) :
    (r.step lib response).chunks = r.chunks := by
  refine if_neg ?_
  intro hany
  obtain ⟨file, hfile, hsize⟩ := (Option.any_eq_true ..).mp hany
  rw [h file hfile] at hsize
  cases hsize

theorem chunks_step_of_some {file : IncomingFile} (hfile : r.file? response = some file)
    (hsize : file.awaitingSize = false) :
    (r.step lib response).chunks response.streamId =
      r.chunks response.streamId ++ response.data := by
  have hany : ((r.file? response).any fun file => !file.awaitingSize) = true := by
    rw [hfile]
    exact (congrArg not hsize)
  show (if _ then _ else _ : UInt32 → List UInt8) _ = _
  rw [if_pos hany, Function.update_self]

/-- Nothing comes in for a stream that is closed. -/
theorem chunks_step_of_closed {id : UInt32} (h : id ∉ r.orch.files.incomingFiles.map Prod.fst) :
    (r.step lib response).chunks id = r.chunks id := by
  by_cases hid : id = response.streamId
  · rw [chunks_step_of_none]
    intro file hfile
    rw [file?] at hfile
    split at hfile
    · cases hfile
    · rw [← hid, FileTransferState.incoming?_eq_none h] at hfile
      cases hfile
  · exact chunks_step_of_ne hid

theorem mem_finalized_step {f : FinalizedFile} (h : f ∈ r.finalized) :
    f ∈ (r.step lib response).finalized :=
  List.mem_append_left _ h

/-- A file received whole stays so. -/
theorem Receiving.whole_step (h : r.Receiving) {f : FinalizedFile} (hf : f ∈ r.finalized)
    (hwhole : r.Whole f) : (r.step lib response).Whole f := by
  refine ⟨?_, hwhole.2⟩
  rw [chunks_step_of_closed (h.closed f hf)]
  exact hwhole.1

variable (lib response) in
/-- What is left to show of an answer. -/
theorem Receiving.step_of (h : r.Receiving) (hdistinct : (r.step lib response).orch.files.Distinct)
    (hstreams : ∀ f ∈ (r.step lib response).orch.files.incomingFiles,
      f.1 ∈ r.orch.files.incomingFiles.map Prod.fst)
    (hnew : ∀ f ∈ (r.step lib response).finalized, f ∈ r.finalized ∨
      f.streamId ∉ (r.step lib response).orch.files.incomingFiles.map Prod.fst)
    (hhanded : ∀ payload ∈ payloads (r.respond lib response).out, (uriLines payload).Nodup ∧
      ∀ uri ∈ uriLines payload, ∃ f ∈ (r.step lib response).finalized,
        fileUriBytes f.path = uri ∧ (r.step lib response).Whole f)
    (hwaiting : (r.step lib response).orch.files.portalSerial ≠ none →
      (∀ f ∈ (r.step lib response).orch.files.incomingFiles,
        f.2.Intact ((r.step lib response).chunks f.1)) ∧
      ((r.step lib response).orch.files.incomingFiles = [] ∨
        ∀ path ∈ (r.step lib response).orch.files.completedFiles,
          ∃ f ∈ (r.step lib response).finalized, f.path = path ∧ (r.step lib response).Whole f)) :
    (r.step lib response).Receiving where
  distinct := hdistinct
  closed := by
    intro f hf
    obtain hold | hclosed := hnew f hf
    · intro hmem
      obtain ⟨g, hg, heq⟩ := List.mem_map.mp hmem
      refine h.closed f hold ?_
      rw [← heq]
      exact hstreams g hg
    · exact hclosed
  delivered := by
    intro payload hpayload
    obtain hold | hnow := List.mem_append.mp hpayload
    · obtain ⟨hnodup, hall⟩ := h.delivered payload hold
      refine ⟨hnodup, fun uri huri => ?_⟩
      obtain ⟨f, hf, hpath, hwhole⟩ := hall uri huri
      exact ⟨f, mem_finalized_step hf, hpath, h.whole_step hf hwhole⟩
    · exact hhanded payload hnow
  waiting := hwaiting

variable (lib r response) in
theorem outcome_step :
    Outcome response.env r.orch.files response.streamId response.data response.isError
      (r.step lib response).orch.files (finalPaths (r.respond lib response).out)
      (payloads (r.respond lib response).out) :=
  outcome_handleRdpFileContentsResponse ..

theorem finalized_step_of_nil (h : finalPaths (r.respond lib response).out = []) :
    (r.step lib response).finalized = r.finalized := by
  rw [step, h]
  dsimp only
  cases r.file? response with
  | none => exact List.append_nil _
  | some file => exact List.append_nil _

theorem finalized_step_of_singleton {file : IncomingFile} {path : String}
    (hfile : r.file? response = some file)
    (h : finalPaths (r.respond lib response).out = [path]) :
    (r.step lib response).finalized = r.finalized ++ [⟨response.streamId, path,
      (file.withData response.data).totalSize, (file.withData response.data).contents⟩] := by
  rw [step, h, hfile]
  rfl

/-- An answer after which no file is moved and nothing is handed out. -/
theorem Receiving.step_quiet (h : r.Receiving)
    (hpaths : finalPaths (r.respond lib response).out = [])
    (hpayloads : payloads (r.respond lib response).out = [])
    (hdistinct : (r.step lib response).orch.files.Distinct)
    (hstreams : ∀ f ∈ (r.step lib response).orch.files.incomingFiles,
      f.1 ∈ r.orch.files.incomingFiles.map Prod.fst)
    (hwaiting : (r.step lib response).orch.files.portalSerial ≠ none →
      (∀ f ∈ (r.step lib response).orch.files.incomingFiles,
        f.2.Intact ((r.step lib response).chunks f.1)) ∧
      ((r.step lib response).orch.files.incomingFiles = [] ∨
        ∀ path ∈ (r.step lib response).orch.files.completedFiles,
          ∃ f ∈ r.finalized, f.path = path ∧ r.Whole f)) :
    (r.step lib response).Receiving := by
  refine h.step_of lib response hdistinct hstreams ?_ ?_ ?_
  · intro f hf
    rw [finalized_step_of_nil hpaths] at hf
    exact Or.inl hf
  · intro payload hpayload
    rw [hpayloads] at hpayload
    exact absurd hpayload List.not_mem_nil
  · intro hserial
    obtain ⟨hintact, hlist⟩ := hwaiting hserial
    refine ⟨hintact, hlist.imp id fun hall path hpath => ?_⟩
    obtain ⟨f, hf, heq, hwhole⟩ := hall path hpath
    exact ⟨f, mem_finalized_step hf, heq, h.whole_step hf hwhole⟩

theorem Receiving.step_failed (h : r.Receiving)
    (hfiles : (r.step lib response).orch.files =
      { r.orch.files.removeIncoming response.streamId with portalSerial := none })
    (hpaths : finalPaths (r.respond lib response).out = [])
    (hpayloads : payloads (r.respond lib response).out = []) :
    (r.step lib response).Receiving := by
  refine h.step_quiet hpaths hpayloads ?_ ?_ ?_
  · rw [hfiles]
    exact h.distinct.removeIncoming none
  · rw [hfiles]
    intro f hf
    exact List.mem_map_of_mem (List.mem_of_mem_filter hf)
  · rw [hfiles]
    intro hserial
    exact absurd rfl hserial

theorem Receiving.step_ignored (h : r.Receiving)
    (hfiles : (r.step lib response).orch.files = r.orch.files)
    (hpaths : finalPaths (r.respond lib response).out = [])
    (hpayloads : payloads (r.respond lib response).out = [])
    (hsize : ∀ file, r.file? response = some file → file.awaitingSize = true) :
    (r.step lib response).Receiving := by
  refine h.step_quiet hpaths hpayloads ?_ ?_ ?_
  · rw [hfiles]
    exact h.distinct
  · rw [hfiles]
    intro f hf
    exact List.mem_map_of_mem hf
  · rw [hfiles, chunks_step_of_none hsize]
    exact h.waiting

/-- The file of a stream is replaced by one for the same path. -/
theorem Receiving.step_received (h : r.Receiving) {file file' : IncomingFile}
    (hfile : r.orch.files.incoming? response.streamId = some file)
    (hfinal : file'.finalPath = file.finalPath)
    (hfiles : (r.step lib response).orch.files =
      r.orch.files.insertIncoming response.streamId file')
    (hpaths : finalPaths (r.respond lib response).out = [])
    (hpayloads : payloads (r.respond lib response).out = [])
    (hintact : r.orch.files.portalSerial ≠ none →
      file'.Intact ((r.step lib response).chunks response.streamId)) :
    (r.step lib response).Receiving := by
  have hmem := FileTransferState.mem_of_incoming? hfile
  refine h.step_quiet hpaths hpayloads ?_ ?_ ?_
  · rw [hfiles]
    exact h.distinct.insertIncoming hfile hfinal
  · rw [hfiles]
    intro f hf
    obtain rfl | ⟨hold, -⟩ := FileTransferState.mem_insertIncoming.mp hf
    · exact List.mem_map.mpr ⟨_, hmem, rfl⟩
    · exact List.mem_map_of_mem hold
  · rw [hfiles]
    intro hserial
    obtain ⟨hall, hlist⟩ := h.waiting hserial
    constructor
    · intro f hf
      obtain rfl | ⟨hold, hne⟩ := FileTransferState.mem_insertIncoming.mp hf
      · exact hintact hserial
      · rw [chunks_step_of_ne hne]
        exact hall f hold
    · right
      obtain hnone | hlist := hlist
      · rw [hnone] at hmem
        exact absurd hmem List.not_mem_nil
      · exact hlist

/-- The file of a stream stays intact with an answer that fits. -/
theorem Receiving.intact_step (h : r.Receiving) (hserial : r.orch.files.portalSerial ≠ none)
    {file : IncomingFile} (hfile : r.file? response = some file)
    (hmem : (response.streamId, file) ∈ r.orch.files.incomingFiles)
    (hfits : file.awaitingSize = false → ∀ total, file.totalSize = some total →
      file.receivedSize.toNat + response.data.length ≤ total.toNat) :
    (file.withData response.data).Intact ((r.step lib response).chunks response.streamId) := by
  have hintact := (h.waiting hserial).1 _ hmem
  cases hsize : file.awaitingSize with
  | true =>
    rw [chunks_step_of_none]
    · exact hintact.withSize hsize
    · intro other hother
      rw [hfile] at hother
      cases hother
      exact hsize
  | false =>
    rw [chunks_step_of_some hfile hsize]
    exact hintact.withChunk hsize (hfits hsize)

/-- A complete file that could not be moved, and was the last one if a paste waits. -/
theorem Receiving.step_unmoved (h : r.Receiving) {file : IncomingFile}
    (hfile : r.orch.files.incoming? response.streamId = some file)
    (hfiles : (r.step lib response).orch.files =
      r.orch.files.complete response.streamId file.finalPath)
    (hpaths : finalPaths (r.respond lib response).out = [])
    (hpayloads : payloads (r.respond lib response).out = [])
    (hlast : r.orch.files.portalSerial ≠ none →
      ∀ other ∈ r.orch.files.incomingFiles, other.1 = response.streamId) :
    (r.step lib response).Receiving := by
  refine h.step_quiet hpaths hpayloads ?_ ?_ ?_
  · rw [hfiles]
    exact h.distinct.complete hfile
  · rw [hfiles]
    intro f hf
    exact List.mem_map_of_mem (List.mem_of_mem_filter hf)
  · rw [hfiles]
    intro hserial
    have hnone : (r.orch.files.complete response.streamId file.finalPath).incomingFiles = [] := by
      refine List.filter_eq_nil_iff.mpr ?_
      intro other hother
      rw [decide_eq_true_eq, not_not]
      exact hlast hserial other hother
    refine ⟨fun f hf => ?_, Or.inl hnone⟩
    rw [hnone] at hf
    exact absurd hf List.not_mem_nil

/-- With a file that was moved, all files on the list are received whole, if a paste waits. -/
theorem Receiving.listed_step (h : r.Receiving) (hserial : r.orch.files.portalSerial ≠ none)
    {file : IncomingFile} (hfile : r.file? response = some file)
    (hmem : (response.streamId, file) ∈ r.orch.files.incomingFiles)
    (hcomplete : file.completes response.data = true)
    (hfits : file.awaitingSize = false → ∀ total, file.totalSize = some total →
      file.receivedSize.toNat + response.data.length ≤ total.toNat)
    (hpaths : finalPaths (r.respond lib response).out = [file.finalPath]) :
    ∀ path ∈ r.orch.files.completedFiles ++ [file.finalPath],
      ∃ f ∈ (r.step lib response).finalized, f.path = path ∧ (r.step lib response).Whole f := by
  intro path hpath
  obtain hold | hnew := List.mem_append.mp hpath
  · obtain hnone | hlist := (h.waiting hserial).2
    · rw [hnone] at hmem
      exact absurd hmem List.not_mem_nil
    · obtain ⟨f, hf, heq, hwhole⟩ := hlist path hold
      exact ⟨f, mem_finalized_step hf, heq, h.whole_step hf hwhole⟩
  · have hintact : (file.withData response.data).Intact
        ((r.step lib response).chunks response.streamId) :=
      h.intact_step hserial hfile hmem hfits
    rw [List.mem_singleton.mp hnew, finalized_step_of_singleton hfile hpaths]
    exact ⟨_, List.mem_append_right _ (List.mem_singleton_self _), rfl, hintact.contents,
      hintact.totalSize_eq hcomplete⟩

/-- The stream of a file that was moved is closed. -/
theorem closed_of_finalized {file : IncomingFile} {path : String}
    (hfile : r.file? response = some file)
    (hpaths : finalPaths (r.respond lib response).out = [path])
    (hincoming : (r.step lib response).orch.files.incomingFiles =
      (r.orch.files.removeIncoming response.streamId).incomingFiles)
    {f : FinalizedFile} (hf : f ∈ (r.step lib response).finalized) :
    f ∈ r.finalized ∨
      f.streamId ∉ (r.step lib response).orch.files.incomingFiles.map Prod.fst := by
  rw [finalized_step_of_singleton hfile hpaths] at hf
  obtain hold | hnew := List.mem_append.mp hf
  · exact Or.inl hold
  · right
    rw [List.mem_singleton.mp hnew, hincoming]
    intro hmem
    obtain ⟨g, hg, heq⟩ := List.mem_map.mp hmem
    exact of_decide_eq_true (List.mem_filter.mp hg).2 heq

theorem Receiving.step_moved (h : r.Receiving) {file : IncomingFile}
    (hfile : r.file? response = some file)
    (hlookup : r.orch.files.incoming? response.streamId = some file)
    (hfiles : (r.step lib response).orch.files =
      r.orch.files.complete response.streamId file.finalPath)
    (hpaths : finalPaths (r.respond lib response).out = [file.finalPath])
    (hpayloads : payloads (r.respond lib response).out = [])
    (hlisted : r.orch.files.portalSerial ≠ none →
      ∀ path ∈ r.orch.files.completedFiles ++ [file.finalPath],
        ∃ f ∈ (r.step lib response).finalized, f.path = path ∧ (r.step lib response).Whole f) :
    (r.step lib response).Receiving := by
  refine h.step_of lib response ?_ ?_ ?_ ?_ ?_
  · rw [hfiles]
    exact h.distinct.complete hlookup
  · rw [hfiles]
    intro f hf
    exact List.mem_map_of_mem (List.mem_of_mem_filter hf)
  · intro f hf
    exact closed_of_finalized hfile hpaths (congrArg (·.incomingFiles) hfiles) hf
  · intro payload hpayload
    rw [hpayloads] at hpayload
    exact absurd hpayload List.not_mem_nil
  · rw [hfiles]
    intro hserial
    refine ⟨fun f hf => ?_, Or.inr (hlisted hserial)⟩
    obtain ⟨hold, hne⟩ := List.mem_filter.mp hf
    rw [chunks_step_of_ne (of_decide_eq_true hne)]
    exact (h.waiting hserial).1 f hold

theorem Receiving.step_last (h : r.Receiving) {file : IncomingFile}
    (hfile : r.file? response = some file)
    (hlookup : r.orch.files.incoming? response.streamId = some file)
    (hfiles : (r.step lib response).orch.files =
      { r.orch.files.complete response.streamId file.finalPath with
        completedFiles := [], portalSerial := none })
    (hpaths : finalPaths (r.respond lib response).out = [file.finalPath])
    (hpayloads : ∀ payload ∈ payloads (r.respond lib response).out,
      r.orch.files.portalSerial ≠ none ∧
        payload = fileUriList (r.orch.files.completedFiles ++ [file.finalPath]))
    (hlisted : r.orch.files.portalSerial ≠ none →
      ∀ path ∈ r.orch.files.completedFiles ++ [file.finalPath],
        ∃ f ∈ (r.step lib response).finalized, f.path = path ∧ (r.step lib response).Whole f) :
    (r.step lib response).Receiving := by
  have hdistinct := h.distinct.complete hlookup
  refine h.step_of lib response ?_ ?_ ?_ ?_ ?_
  · rw [hfiles]
    exact ⟨hdistinct.streams, (List.nodup_append.mp hdistinct.paths).2.1⟩
  · rw [hfiles]
    intro f hf
    exact List.mem_map_of_mem (List.mem_of_mem_filter hf)
  · intro f hf
    exact closed_of_finalized hfile hpaths (congrArg (·.incomingFiles) hfiles) hf
  · intro payload hpayload
    obtain ⟨hserial, rfl⟩ := hpayloads payload hpayload
    rw [uriLines_fileUriList (List.append_ne_nil_of_right_ne_nil _ (List.cons_ne_nil _ _))]
    constructor
    · exact (List.nodup_append.mp hdistinct.paths).1.map fileUriBytes_injective
    · intro uri huri
      obtain ⟨path, hpath, rfl⟩ := List.mem_map.mp huri
      obtain ⟨f, hf, rfl, hwhole⟩ := hlisted hserial path hpath
      exact ⟨f, hf, rfl, hwhole⟩
  · rw [hfiles]
    intro hserial
    exact absurd rfl hserial

/-- **An answer that keeps files** leaves a transfer of which all that is delivered was received
whole. -/
theorem receiving_step (h : r.Receiving) (hkeeps : r.KeepsFiles response) :
    (r.step lib response).Receiving := by
  have houtcome := outcome_step lib r response
  generalize hfiles : (r.step lib response).orch.files = files at houtcome
  generalize hpaths : finalPaths (r.respond lib response).out = paths at houtcome
  generalize hpayloads : payloads (r.respond lib response).out = handed at houtcome
  generalize herror : response.isError = isError at houtcome
  have hfile? : isError = false →
      r.file? response = r.orch.files.incoming? response.streamId := by
    rintro rfl
    rw [file?, herror]
    rfl
  cases houtcome with
  | failed => exact h.step_failed hfiles hpaths hpayloads
  | ignored hsize =>
    refine h.step_ignored hfiles hpaths hpayloads ?_
    rw [hfile? rfl]
    exact hsize
  | cut file contents hlookup hsize hwrites =>
    have hfile := (hfile? rfl).trans hlookup
    refine h.step_received hlookup ?_ hfiles hpaths hpayloads ?_
    · rfl
    intro hserial
    exact absurd ((hkeeps hserial file hfile).1 hsize).1 hwrites
  | received file hlookup =>
    have hfile := (hfile? rfl).trans hlookup
    refine h.step_received hlookup (file.withData_finalPath _) hfiles hpaths hpayloads ?_
    intro hserial
    refine h.intact_step hserial hfile (FileTransferState.mem_of_incoming? hlookup) ?_
    intro hsize
    exact ((hkeeps hserial file hfile).1 hsize).2
  | unmoved file hlookup hcomplete hflushes hrenames =>
    have hfile := (hfile? rfl).trans hlookup
    refine h.step_unmoved hlookup hfiles hpaths hpayloads ?_
    intro hserial
    exact ((hkeeps hserial file hfile).2 hcomplete hflushes).resolve_left hrenames
  | moved file hlookup hcomplete =>
    have hfile := (hfile? rfl).trans hlookup
    refine h.step_moved hfile hlookup hfiles hpaths hpayloads ?_
    intro hserial
    refine h.listed_step hserial hfile (FileTransferState.mem_of_incoming? hlookup) hcomplete ?_
      hpaths
    intro hsize
    exact ((hkeeps hserial file hfile).1 hsize).2
  | last file handed hlookup hcomplete hhanded =>
    have hfile := (hfile? rfl).trans hlookup
    refine h.step_last hfile hlookup hfiles hpaths ?_ ?_
    · rw [hpayloads]
      exact hhanded
    · intro hserial
      refine h.listed_step hserial hfile (FileTransferState.mem_of_incoming? hlookup) hcomplete ?_
        hpaths
      intro hsize
      exact ((hkeeps hserial file hfile).1 hsize).2

/-! ### The start -/

/-- A transfer of which nothing has come in. -/
structure Fresh (files : FileTransferState) : Prop where
  distinct : files.Distinct
  none_complete : files.completedFiles = []
  intact : ∀ f ∈ files.incomingFiles, f.2.Intact []

theorem fresh_allocateStreamId {files : FileTransferState} (h : Fresh files) :
    Fresh files.allocateStreamId.2 :=
  ⟨⟨h.distinct.streams, h.distinct.paths⟩, h.none_complete, h.intact⟩

/-- A file for a path that is not in use. -/
theorem fresh_insertIncoming {files : FileTransferState} (h : Fresh files) {streamId : UInt32}
    {file : IncomingFile} (hintact : file.Intact [])
    (hfree : file.finalPath ∉ files.incomingFiles.map fun f => f.2.finalPath) :
    Fresh (files.insertIncoming streamId file) := by
  refine ⟨h.distinct.insertNew ?_, h.none_complete, ?_⟩
  · rw [h.none_complete]
    exact hfree
  · intro f hf
    obtain rfl | ⟨hold, -⟩ := FileTransferState.mem_insertIncoming.mp hf
    · exact hintact
    · exact h.intact f hold

variable {env : Env} {s : Session}

/-- The file that is opened for a descriptor. -/
def openedFile (disk : Disk) (files : FileTransferState) (streamId : UInt32) (index : ℕ)
    (descriptor : FileDescriptor) : IncomingFile where
  finalPath := files.reserveDestination disk (sanitizeFilenameForLinux descriptor.name)
  totalSize := descriptor.size
  awaitingSize := descriptor.size = none || descriptor.size = some 0
  receivedSize := 0
  tempPath := files.tempPath (sanitizeFilenameForLinux descriptor.name) streamId
  contents := []
  fileIndex := min index (2 ^ 32 - 1)
  clipDataId := 1

theorem intact_openedFile (disk : Disk) (files : FileTransferState) (streamId : UInt32) (index : ℕ)
    (descriptor : FileDescriptor) :
    (openedFile disk files streamId index descriptor).Intact [] := by
  refine ⟨rfl, rfl, fun _ => rfl, fun hsize => ?_⟩
  rw [openedFile, Bool.or_eq_false_iff, decide_eq_false_iff_not] at hsize
  obtain ⟨total, htotal⟩ := Option.ne_none_iff_exists'.mp hsize.1
  exact ⟨total, htotal, UInt64.zero_le⟩

variable (env s) in
/-- Preparing a file takes a stream, and opens the file for it if that is possible. Whether the
request can be sent makes no difference. -/
theorem requestFile_opened (index : ℕ) (descriptor : FileDescriptor) :
    ((requestFile env index descriptor).run s).2.orch.files = s.orch.files.allocateStreamId.2 ∨
      ((requestFile env index descriptor).run s).2.orch.files =
        s.orch.files.allocateStreamId.2.insertIncoming s.orch.files.allocateStreamId.1
          (openedFile env.disk s.orch.files.allocateStreamId.2 s.orch.files.allocateStreamId.1 index
            descriptor) := by
  simp only [requestFile, Prog.run_bind, Prog.run_gets, run_modifyFiles, Prog.run_ite, run_emit,
    run_send, Prog.run_pure]
  split
  · right
    split
    · rfl
    · rfl
  · exact Or.inl rfl

theorem fresh_requestFile (h : Fresh s.orch.files) (index : ℕ) (descriptor : FileDescriptor) :
    Fresh ((requestFile env index descriptor).run s).2.orch.files := by
  have hallocated := fresh_allocateStreamId h
  obtain hfiles | hfiles := requestFile_opened env s index descriptor
  · rw [hfiles]
    exact hallocated
  · rw [hfiles]
    refine fresh_insertIncoming hallocated (intact_openedFile ..) ?_
    intro hmem
    exact FileTransferState.reserveDestination_free _ _ _ (List.mem_append_right _ hmem)

theorem fresh_requestFiles (h : Fresh s.orch.files) (index : ℕ)
    (descriptors : List FileDescriptor) :
    Fresh ((requestFiles env index descriptors).run s).2.orch.files := by
  induction descriptors generalizing index s with
  | nil => exact h
  | cons descriptor rest ih =>
    rw [run_requestFiles_cons]
    exact ih (fresh_requestFile h index descriptor) (index + 1)

theorem receiving_start {o : Orchestrator} (hidle : o.files.incomingFiles = [])
    (hsender : env.sender ≠ .unregistered) (serial : UInt32) (mime : String)
    (descriptors : List FileDescriptor) : (start env o serial mime descriptors).Receiving := by
  have hbegin : Fresh (beginTransfer ⟨o, []⟩ serial descriptors).orch.files :=
    ⟨⟨List.nodup_nil, List.nodup_nil⟩, rfl, fun _ hf => absurd hf List.not_mem_nil⟩
  have hfresh : Fresh (start env o serial mime descriptors).orch.files := by
    rw [start, run_startFileTransfer_idle hidle hsender]
    exact fresh_requestFiles hbegin 0 descriptors
  refine ⟨hfresh.distinct, fun _ hf => absurd hf List.not_mem_nil,
    fun _ hpayload => absurd hpayload List.not_mem_nil, fun _ => ⟨hfresh.intact, Or.inr ?_⟩⟩
  rw [hfresh.none_complete]
  exact fun _ hpath => absurd hpath List.not_mem_nil

end Reception

/-- **Only files received whole are delivered**, and none twice, in every state of a transfer along
answers that keep files while its paste waits. -/
theorem delivered_files_finalized (lib : Libraries) {env : Env} {o : Orchestrator}
    (hidle : o.files.incomingFiles = []) (hsender : env.sender ≠ .unregistered) (serial : UInt32)
    (mime : String) (descriptors : List FileDescriptor) {responses : List ContentsResponse}
    (h : (reception lib).Along Reception.KeepsFiles (.start env o serial mime descriptors)
      responses) :
    (reception lib).Always Reception.DeliversFiles (.start env o serial mime descriptors)
      responses :=
  Machine.always_of_invariant (fun _ _ hr hkeeps => Reception.receiving_step hr hkeeps)
    (fun _ hr => hr.delivered) (Reception.receiving_start hidle hsender serial mime descriptors) h

/-- Two small files. -/
def sampleFiles : List FileDescriptor :=
  [⟨0x40, 0, none, none, none, some 2, "a.txt".toList⟩,
    ⟨0x40, 0, none, none, none, some 1, "b.txt".toList⟩]

/-- Two files were announced, and both are requested. -/
def sampleReception : Reception :=
  .start sampleEnv (.new sampleConfig "/home/user/Downloads") 7 "text/uri-list" sampleFiles

/-- Both files come in, each in one chunk. -/
theorem two_files_delivered :
    (reception sampleLibraries).Always Reception.DeliversFiles sampleReception
        [⟨sampleEnv, 1, [0x68, 0x69], false⟩, ⟨sampleEnv, 2, [0x21], false⟩] ∧
      ((reception sampleLibraries).exec sampleReception
        [⟨sampleEnv, 1, [0x68, 0x69], false⟩, ⟨sampleEnv, 2, [0x21], false⟩]).handed =
        [fileUriList ["/home/user/Downloads/a.txt", "/home/user/Downloads/b.txt"]] :=
  ⟨delivered_files_finalized sampleLibraries rfl (by decide) 7 "text/uri-list" sampleFiles
    (by decide +kernel), by decide +kernel⟩

/-- A directory in which the destination of a file was taken after it had been reserved. -/
def occupiedEnv : Env :=
  { sampleEnv with
    disk := { sampleDisk with renames := fun _ _ => .error "File exists (os error 17)" } }

/-- The first file cannot be moved, and is delivered with the second. -/
theorem unmoved_file_delivered :
    ¬ (reception sampleLibraries).Always Reception.DeliversFiles sampleReception
      [⟨occupiedEnv, 1, [0x68, 0x69], false⟩, ⟨sampleEnv, 2, [0x21], false⟩] := by
  rintro ⟨-, -, hlast⟩
  have hwrong : ¬ ((reception sampleLibraries).exec sampleReception
      [⟨occupiedEnv, 1, [0x68, 0x69], false⟩, ⟨sampleEnv, 2, [0x21], false⟩]).DeliversFiles := by
    decide +kernel
  exact hwrong hlast

end Clipboard

end Cheirizo
