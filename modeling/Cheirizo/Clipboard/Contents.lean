import Cheirizo.Clipboard.Answers

/-!
# Answers with file contents

What `handleRdpFileContentsResponse` can do, said once. A stream that fails takes its paste with it;
any other answer is the size of a file or a chunk of it. A complete file leaves its stream, is put
on the list of complete files, and is then moved to its final path; with the last one the list is
handed out. Each of these steps can fail and leaves what the steps before it did.

## Main definitions

* `Outcome` — all that an answer can lead to
* `FileTransferState.Distinct` — no stream has two files, and no path is for two of them
* `IncomingFile.Intact` — a file holds what came in for its stream

## Main results

* `outcome_handleRdpFileContentsResponse` — every answer has one of the outcomes
* `Intact.withSize`, `Intact.withChunk` — a file stays intact with an answer that fits
* `Intact.totalSize_eq` — a complete file has the announced size
-/

namespace Cheirizo

namespace Clipboard

open Unicode

/-! ### An answer and the file of its stream -/

/-- The file of a stream with an answer to its size request, or with one more chunk. -/
def IncomingFile.withData (file : IncomingFile) (data : List UInt8) : IncomingFile :=
  if file.awaitingSize then
    { file with totalSize := some (UInt64.ofNat (leToNat data)), awaitingSize := false }
  else
    { file with
      contents := file.contents ++ data
      receivedSize := file.receivedSize + UInt64.ofNat data.length }

/-- The paths to which files were moved. -/
def finalPaths (out : List Output) : List String :=
  out.filterMap fun
    | .renameFile _ target => some target
    | _ => none

/-- The payloads with which pastes were completed. -/
def payloads (out : List Output) : List (List UInt8) :=
  out.filterMap fun
    | .completeTransfer _ _ data true => some data
    | _ => none

/-- An answer makes the file of its stream complete. -/
def IncomingFile.completes (file : IncomingFile) (data : List UInt8) : Bool :=
  if file.awaitingSize then data.length = 8 && UInt64.ofNat (leToNat data) = 0
  else (file.withData data).totalSize.any fun total => total ≤ (file.withData data).receivedSize

/-- A complete file leaves its stream and is put on the list. -/
def FileTransferState.complete (files : FileTransferState) (streamId : UInt32) (path : String) :
    FileTransferState :=
  { files.removeIncoming streamId with completedFiles := files.completedFiles ++ [path] }

/-! ### What an answer can lead to -/

/-- **All that an answer can lead to**: the next state, the paths to which a file was moved, and the
payloads handed out. -/
inductive Outcome (env : Env) (files : FileTransferState) (streamId : UInt32) (data : List UInt8) :
    Bool → FileTransferState → List String → List (List UInt8) → Prop
  | failed : Outcome env files streamId data true
      { files.removeIncoming streamId with portalSerial := none } [] []
  | ignored (h : ∀ file, files.incoming? streamId = some file → file.awaitingSize = true) :
      Outcome env files streamId data false files [] []
  /-- A write that failed has left something in the file. -/
  | cut (file : IncomingFile) (contents : List UInt8) (hfile : files.incoming? streamId = some file)
      (hsize : file.awaitingSize = false) (hwrites : env.disk.writes ≠ .ok ()) :
      Outcome env files streamId data false
        (files.insertIncoming streamId { file with contents }) [] []
  /-- The file is not complete, or could not be flushed. -/
  | received (file : IncomingFile) (hfile : files.incoming? streamId = some file) :
      Outcome env files streamId data false
        (files.insertIncoming streamId (file.withData data)) [] []
  | unmoved (file : IncomingFile) (hfile : files.incoming? streamId = some file)
      (hcomplete : file.completes data = true) (hflushes : env.disk.flushes = .ok ())
      (hrenames : env.disk.renames file.tempPath file.finalPath ≠ .ok ()) :
      Outcome env files streamId data false (files.complete streamId file.finalPath) [] []
  | moved (file : IncomingFile) (hfile : files.incoming? streamId = some file)
      (hcomplete : file.completes data = true) :
      Outcome env files streamId data false (files.complete streamId file.finalPath)
        [file.finalPath] []
  | last (file : IncomingFile) (handed : List (List UInt8))
      (hfile : files.incoming? streamId = some file) (hcomplete : file.completes data = true)
      (hhanded : ∀ payload ∈ handed, files.portalSerial ≠ none ∧
        payload = fileUriList (files.completedFiles ++ [file.finalPath])) :
      Outcome env files streamId data false
        { files.complete streamId file.finalPath with completedFiles := [], portalSerial := none }
        [file.finalPath] handed

theorem finalPaths_append (out out' : List Output) :
    finalPaths (out ++ out') = finalPaths out ++ finalPaths out' :=
  List.filterMap_append

theorem payloads_append (out out' : List Output) :
    payloads (out ++ out') = payloads out ++ payloads out' :=
  List.filterMap_append

/-- A file that is completed is no longer on its stream, so what stood there does not matter. -/
theorem insertIncoming_complete (files : FileTransferState) (streamId : UInt32)
    (file : IncomingFile) (path : String) :
    (files.insertIncoming streamId file).complete streamId path = files.complete streamId path := by
  simp [FileTransferState.complete, FileTransferState.insertIncoming,
    FileTransferState.removeIncoming]

variable {env : Env} {s : Session} {streamId : UInt32} {data : List UInt8}

/-- The outcome of a part of the handler that is run from `s`, for an answer that found `files`. -/
def Yields (env : Env) (files : FileTransferState) (streamId : UInt32) (data : List UInt8)
    (x : Action PUnit) (s : Session) : Prop :=
  ∃ new, (x.run s).2.out = s.out ++ new ∧
    Outcome env files streamId data false (x.run s).2.orch.files (finalPaths new) (payloads new)

/-- A paste without a serial is completed for nobody. -/
theorem run_completePaste (mime : String) (payload : List UInt8) (success : Bool)
    (serial : Option UInt32) :
    (completePaste env mime payload success serial).run s =
      (.ok ⟨⟩, { s with out := s.out ++
        if env.provider.isSome then serial.toList.map fun serial =>
          .completeTransfer serial mime payload success
        else [] }) := by
  cases serial with
  | none => simp [completePaste]
  | some serial =>
    rw [completePaste, whenProvider]
    split
    · rfl
    · simp

@[simp] theorem IncomingFile.withData_finalPath (file : IncomingFile) (data : List UInt8) :
    (file.withData data).finalPath = file.finalPath := by
  rw [withData]
  split
  · rfl
  · rfl

@[simp] theorem IncomingFile.withData_tempPath (file : IncomingFile) (data : List UInt8) :
    (file.withData data).tempPath = file.tempPath := by
  rw [withData]
  split
  · rfl
  · rfl

/-- A file that cannot be moved is already on the list of complete files. -/
theorem run_finishFile_unmoved {file : IncomingFile} {e : String}
    (hflushes : env.disk.flushes = .ok ())
    (hrenames : env.disk.renames file.tempPath file.finalPath = .error e) :
    ((finishFile env streamId file).run s).2 =
      { s with orch := { s.orch with
        files := s.orch.files.complete streamId file.finalPath } } := by
  rw [finishFile, hflushes]
  simp only [Prog.run_bind, run_modifyFiles, Prog.run_gets, hrenames, Prog.run_fail]
  rfl

/-- What is handed out with the last file. -/
def lastPayload (env : Env) (files : FileTransferState) : List Output :=
  if env.provider.isSome then
    files.portalSerial.toList.map fun serial =>
      .completeTransfer serial "x-special/gnome-copied-files" (fileUriList files.completedFiles)
        true
  else []

/-- A file that is moved, while others are still coming in. -/
theorem run_finishFile_moved {file : IncomingFile} (hflushes : env.disk.flushes = .ok ())
    (hrenames : env.disk.renames file.tempPath file.finalPath = .ok ())
    (hmore : (s.orch.files.removeIncoming streamId).incomingFiles.isEmpty = false) :
    ((finishFile env streamId file).run s).2 =
      { orch := { s.orch with files := s.orch.files.complete streamId file.finalPath }
        out := s.out ++ [.renameFile file.tempPath file.finalPath] } := by
  rw [finishFile, hflushes]
  simp only [Prog.run_bind, run_modifyFiles, Prog.run_gets, hrenames, run_emit, hmore,
    Bool.false_eq_true, if_false]
  rfl

/-- With the last file the list is handed out. -/
theorem run_finishFile_last {file : IncomingFile} (hflushes : env.disk.flushes = .ok ())
    (hrenames : env.disk.renames file.tempPath file.finalPath = .ok ())
    (hlast : (s.orch.files.removeIncoming streamId).incomingFiles.isEmpty = true) :
    ((finishFile env streamId file).run s).2 =
      { orch := { s.orch with files :=
          { s.orch.files.complete streamId file.finalPath with
            completedFiles := [], portalSerial := none } }
        out := s.out ++ ([.renameFile file.tempPath file.finalPath] ++
          lastPayload env (s.orch.files.complete streamId file.finalPath)) } := by
  rw [finishFile, hflushes]
  simp only [Prog.run_bind, run_modifyFiles, Prog.run_gets, hrenames, run_emit, hlast, if_true,
    run_completePaste, List.append_assoc]
  rfl

/-- The list is handed out for a paste that waits. -/
theorem mem_payloads_lastPayload {files : FileTransferState} {payload : List UInt8}
    (h : payload ∈ payloads (lastPayload env files)) :
    files.portalSerial ≠ none ∧ payload = fileUriList files.completedFiles := by
  rw [lastPayload] at h
  split at h
  · cases hserial : files.portalSerial with
    | none =>
      rw [hserial] at h
      exact absurd h List.not_mem_nil
    | some serial =>
      rw [hserial] at h
      exact ⟨Option.some_ne_none _, List.mem_singleton.mp h⟩
  · exact absurd h List.not_mem_nil

/-- Handing out the list moves no file. -/
theorem finalPaths_lastPayload (files : FileTransferState) :
    finalPaths (lastPayload env files) = [] := by
  rw [lastPayload]
  split
  · cases files.portalSerial with
    | none => rfl
    | some serial => rfl
  · rfl

section Parts

variable {files : FileTransferState} {file : IncomingFile}
  (hfile : files.incoming? streamId = some file)
  (hs : s.orch.files = files.insertIncoming streamId (file.withData data))

include hfile hs

/-- A message to the client is no outcome of its own. -/
theorem yields_send (message : ClipboardMessage) :
    Yields env files streamId data (send env message) s := by
  have hfiles : ((send env message).run s).2.orch.files =
      files.insertIncoming streamId (file.withData data) := by
    rw [run_send]
    split
    · exact hs
    · exact hs
  rw [Yields, hfiles, run_send]
  split
  · exact ⟨[.toClient message], rfl, .received file hfile⟩
  · exact ⟨[], (List.append_nil _).symm, .received file hfile⟩

/-- A complete file is moved or not, and may have been the last. -/
theorem yields_finishFile (hcomplete : file.completes data = true) :
    Yields env files streamId data (finishFile env streamId (file.withData data)) s := by
  have htemp := IncomingFile.withData_tempPath file data
  have hfinal := IncomingFile.withData_finalPath file data
  cases hflushes : env.disk.flushes with
  | error e =>
    refine ⟨[], ?_, ?_⟩
    · rw [finishFile, hflushes, List.append_nil]
      rfl
    · rw [finishFile, hflushes, Prog.run_fail, hs]
      exact .received file hfile
  | ok _ =>
    have hcompleted : s.orch.files.complete streamId (file.withData data).finalPath =
        files.complete streamId file.finalPath := by
      rw [hs, insertIncoming_complete, hfinal]
    cases hrenames : env.disk.renames (file.withData data).tempPath
      (file.withData data).finalPath with
    | error e =>
      refine ⟨[], ?_, ?_⟩
      · rw [run_finishFile_unmoved hflushes hrenames, List.append_nil]
      · rw [run_finishFile_unmoved hflushes hrenames, hcompleted]
        rw [htemp, hfinal] at hrenames
        refine .unmoved file hfile hcomplete hflushes ?_
        rw [hrenames]
        intro hok
        cases hok
    | ok _ =>
      cases hlast : (s.orch.files.removeIncoming streamId).incomingFiles.isEmpty with
      | false =>
        refine ⟨_, congrArg Session.out (run_finishFile_moved hflushes hrenames hlast), ?_⟩
        rw [run_finishFile_moved hflushes hrenames hlast, hcompleted, hfinal]
        exact .moved file hfile hcomplete
      | true =>
        refine ⟨_, congrArg Session.out (run_finishFile_last hflushes hrenames hlast), ?_⟩
        rw [run_finishFile_last hflushes hrenames hlast, hcompleted, hfinal, finalPaths_append,
          finalPaths_lastPayload, payloads_append]
        exact .last file _ hfile hcomplete fun payload h => mem_payloads_lastPayload h

/-- A file either is complete or asks for its next chunk. -/
theorem yields_continueFile (hcomplete : file.completes data =
    (file.withData data).totalSize.any fun total => total ≤ (file.withData data).receivedSize) :
    Yields env files streamId data (continueFile env streamId (file.withData data)) s := by
  rw [continueFile]
  split
  · refine ⟨[], (List.append_nil _).symm, ?_⟩
    rw [Prog.run_pure, hs]
    exact .received file hfile
  · rename_i total htotal
    rw [htotal] at hcomplete
    split
    · rename_i hle
      refine yields_finishFile hfile hs ?_
      rw [hcomplete]
      exact decide_eq_true hle
    · exact yields_send hfile hs _

end Parts

/-- An answer with a size, to a stream that waits for one. -/
theorem yields_receiveSize {o : Orchestrator} {file : IncomingFile}
    (hfile : o.files.incoming? streamId = some file) (hsize : file.awaitingSize = true) :
    Yields env o.files streamId data (receiveSize env streamId file data) ⟨o, []⟩ := by
  rw [receiveSize, applySizeResponse]
  by_cases hlength : data.length = 8
  · rw [if_pos hlength]
    have hwith : file.withData data =
        { file with totalSize := some (UInt64.ofNat (leToNat data)), awaitingSize := false } := by
      rw [IncomingFile.withData, if_pos hsize]
    dsimp only
    rw [← hwith]
    change Yields env o.files streamId data
      (if 0 < UInt64.ofNat (leToNat data) then _ else _)
      ⟨{ o with files := o.files.insertIncoming streamId (file.withData data) }, []⟩
    split
    · split
      · exact ⟨[], rfl, .received file hfile⟩
      · exact yields_send hfile rfl _
    · rename_i hzero
      refine yields_continueFile hfile rfl ?_
      have hzero : UInt64.ofNat (leToNat data) = 0 :=
        UInt64.le_antisymm (UInt64.not_lt.mp hzero) (UInt64.zero_le)
      rw [IncomingFile.completes, if_pos hsize, hwith, hzero, hlength]
      simp
  · rw [if_neg hlength]
    refine ⟨[], rfl, .ignored fun other hother => ?_⟩
    rw [hfile] at hother
    cases hother
    exact hsize

/-- An answer with a chunk, to a stream that knows its size. -/
theorem yields_receiveChunk {o : Orchestrator} {file : IncomingFile}
    (hfile : o.files.incoming? streamId = some file) (hsize : file.awaitingSize = false) :
    Yields env o.files streamId data (receiveChunk env streamId file data) ⟨o, []⟩ := by
  have hwith : file.withData data = { file with
      contents := file.contents ++ data
      receivedSize := file.receivedSize + UInt64.ofNat data.length } := by
    rw [IncomingFile.withData, if_neg (Bool.eq_false_iff.mp hsize)]
  rw [receiveChunk]
  cases hwrites : env.disk.writes with
  | error result =>
    refine ⟨_, rfl, .cut file _ hfile hsize ?_⟩
    rw [hwrites]
    intro hok
    cases hok
  | ok _ =>
    dsimp only
    rw [← hwith]
    have hcontinue : Yields env o.files streamId data
        (continueFile env streamId (file.withData data))
        ⟨{ o with files := o.files.insertIncoming streamId (file.withData data) },
          [.writeFile file.tempPath data]⟩ := by
      refine yields_continueFile hfile rfl ?_
      rw [IncomingFile.completes, if_neg (Bool.eq_false_iff.mp hsize)]
    obtain ⟨new, hout, houtcome⟩ := hcontinue
    exact ⟨.writeFile file.tempPath data :: new, hout, houtcome⟩

/-- The file of a stream that failed is removed. -/
theorem run_discard (file : Option IncomingFile) :
    (discard file).run s =
      (.ok ⟨⟩,
        { s with out := s.out ++ file.toList.map fun file => .removeFile file.tempPath }) := by
  cases file with
  | none => simp [discard]
  | some file => rfl

/-- A stream that fails takes the paste with it, and moves no file. -/
theorem outcome_failStream (env : Env) (o : Orchestrator) (streamId : UInt32) (data : List UInt8) :
    Outcome env o.files streamId data true ((failStream env streamId).run ⟨o, []⟩).2.orch.files
      (finalPaths ((failStream env streamId).run ⟨o, []⟩).2.out)
      (payloads ((failStream env streamId).run ⟨o, []⟩).2.out) := by
  simp only [failStream, Prog.run_bind, Prog.run_gets, run_discard, run_modifyFiles,
    run_completePaste, List.nil_append, finalPaths_append, payloads_append]
  have hdiscarded : ∀ file : Option IncomingFile,
      finalPaths (file.toList.map fun file => .removeFile file.tempPath) = [] ∧
        payloads (file.toList.map fun file => .removeFile file.tempPath) = [] := by
    intro file
    cases file with
    | none => exact ⟨rfl, rfl⟩
    | some file => exact ⟨rfl, rfl⟩
  have hcancelled : ∀ serial : Option UInt32,
      finalPaths (if env.provider.isSome then serial.toList.map fun serial =>
          .completeTransfer serial "" [] false else []) = [] ∧
        payloads (if env.provider.isSome then serial.toList.map fun serial =>
          .completeTransfer serial "" [] false else []) = [] := by
    intro serial
    split
    · cases serial with
      | none => exact ⟨rfl, rfl⟩
      | some serial => exact ⟨rfl, rfl⟩
    · exact ⟨rfl, rfl⟩
  rw [(hdiscarded _).1, (hdiscarded _).2, (hcancelled _).1, (hcancelled _).2]
  exact .failed

/-- An answer that is no error, on a stream with a file or without. -/
theorem yields_handleRdpFileContentsResponse (env : Env) (o : Orchestrator) (streamId : UInt32)
    (data : List UInt8) :
    Yields env o.files streamId data (handleRdpFileContentsResponse env streamId data false)
      ⟨o, []⟩ := by
  cases hfile : o.files.incoming? streamId with
  | none =>
    have hrun : (handleRdpFileContentsResponse env streamId data false).run ⟨o, []⟩ =
        (.ok ⟨⟩, ⟨o, []⟩) := by
      simp [handleRdpFileContentsResponse, Prog.run_bind, hfile]
    rw [Yields, hrun]
    refine ⟨[], rfl, .ignored ?_⟩
    intro file hsome
    cases hfile.symm.trans hsome
  | some file =>
    have hrun : (handleRdpFileContentsResponse env streamId data false).run ⟨o, []⟩ =
        (if file.awaitingSize then receiveSize env streamId file data
          else receiveChunk env streamId file data).run ⟨o, []⟩ := by
      simp only [handleRdpFileContentsResponse, Prog.run_bind, Prog.run_gets, hfile,
        Bool.false_eq_true, if_false]
    rw [Yields, hrun]
    split
    · rename_i hsize
      exact yields_receiveSize hfile hsize
    · rename_i hsize
      exact yields_receiveChunk hfile (Bool.eq_false_iff.mpr hsize)

/-- **Every answer has one of the outcomes.** -/
theorem outcome_handleRdpFileContentsResponse (env : Env) (o : Orchestrator) (streamId : UInt32)
    (data : List UInt8) (isError : Bool) :
    Outcome env o.files streamId data isError
      ((handleRdpFileContentsResponse env streamId data isError).run ⟨o, []⟩).2.orch.files
      (finalPaths ((handleRdpFileContentsResponse env streamId data isError).run ⟨o, []⟩).2.out)
      (payloads ((handleRdpFileContentsResponse env streamId data isError).run ⟨o, []⟩).2.out) := by
  cases isError with
  | true =>
    rw [handleRdpFileContentsResponse, if_pos rfl]
    exact outcome_failStream env o streamId data
  | false =>
    obtain ⟨new, hout, houtcome⟩ := yields_handleRdpFileContentsResponse env o streamId data
    rw [hout]
    exact houtcome

/-! ### Streams and paths -/

namespace FileTransferState

variable {files : FileTransferState} {file : IncomingFile}

/-- No stream has two files, and no path is for two of them. -/
structure Distinct (files : FileTransferState) : Prop where
  streams : (files.incomingFiles.map Prod.fst).Nodup
  paths : (files.completedFiles ++ files.incomingFiles.map fun f => f.2.finalPath).Nodup

/-- What is found for a stream is among the incoming files. -/
theorem mem_of_incoming? (h : files.incoming? streamId = some file) :
    (streamId, file) ∈ files.incomingFiles := by
  obtain ⟨l, l', heq, -⟩ := List.lookup_eq_some_iff.mp h
  rw [heq]
  exact List.mem_append_right _ (List.mem_cons_self ..)

theorem incoming?_eq_none (h : streamId ∉ files.incomingFiles.map Prod.fst) :
    files.incoming? streamId = none := by
  rw [incoming?, List.lookup_eq_none_iff]
  intro f hf
  rw [bne_iff_ne]
  rintro rfl
  exact h (List.mem_map_of_mem hf)

/-- A file on a stream replaces the one that was there. -/
theorem mem_insertIncoming {f : UInt32 × IncomingFile} :
    f ∈ (files.insertIncoming streamId file).incomingFiles ↔
      f = (streamId, file) ∨ (f ∈ files.incomingFiles ∧ f.1 ≠ streamId) := by
  simp [insertIncoming, removeIncoming]

/-- The file of a stream, and the files of the others. -/
theorem incomingFiles_perm (hstreams : (files.incomingFiles.map Prod.fst).Nodup)
    (hfile : files.incoming? streamId = some file) :
    files.incomingFiles.Perm
      ((streamId, file) :: (files.removeIncoming streamId).incomingFiles) := by
  have hmem := mem_of_incoming? hfile
  rw [removeIncoming]
  dsimp only
  generalize files.incomingFiles = l at hstreams hmem
  induction l with
  | nil => exact absurd hmem List.not_mem_nil
  | cons f l ih =>
    rw [List.map_cons, List.nodup_cons] at hstreams
    obtain ⟨hnew, hrest⟩ := hstreams
    obtain rfl | htail := List.mem_cons.mp hmem
    · have hothers : l.filter (fun f => f.1 ≠ streamId) = l := by
        rw [List.filter_eq_self]
        intro f hf
        refine decide_eq_true ?_
        intro heq
        exact hnew (List.mem_map.mpr ⟨f, hf, heq⟩)
      rw [List.filter_cons_of_neg (by simp), hothers]
    · have hne : f.1 ≠ streamId := by
        intro heq
        exact hnew (List.mem_map.mpr ⟨_, htail, heq.symm⟩)
      rw [List.filter_cons_of_pos (by simpa using hne)]
      exact ((ih hrest htail).cons f).trans (List.Perm.swap ..)

/-- A stream that is dropped leaves the others distinct. -/
theorem Distinct.removeIncoming (h : files.Distinct) (serial : Option UInt32) :
    Distinct { files.removeIncoming streamId with portalSerial := serial } where
  streams := h.streams.sublist (List.filter_sublist.map _)
  paths := h.paths.sublist ((List.filter_sublist.map _).append_left _)

/-- The file of a stream is replaced by itself with more data. -/
theorem Distinct.insertIncoming (h : files.Distinct) (hfile : files.incoming? streamId = some file)
    {file' : IncomingFile} (hpath : file'.finalPath = file.finalPath) :
    Distinct (files.insertIncoming streamId file') := by
  have hperm := incomingFiles_perm h.streams hfile
  constructor
  · exact (hperm.map Prod.fst).nodup_iff.mp h.streams
  · have hpaths := (hperm.map fun f => f.2.finalPath).append_left files.completedFiles
    rw [List.map_cons, ← hpath] at hpaths
    exact hpaths.nodup_iff.mp h.paths

/-- A new file has to have a path of its own. -/
theorem Distinct.insertNew (h : files.Distinct)
    (hfree : file.finalPath ∉
      files.completedFiles ++ files.incomingFiles.map fun f => f.2.finalPath) :
    Distinct (files.insertIncoming streamId file) := by
  have hothers : Distinct { files.removeIncoming streamId with portalSerial := none } :=
    h.removeIncoming none
  constructor
  · refine List.nodup_cons.mpr ⟨?_, hothers.streams⟩
    intro hmem
    obtain ⟨f, hf, heq⟩ := List.mem_map.mp hmem
    exact of_decide_eq_true (List.mem_filter.mp hf).2 heq
  · refine List.perm_middle.nodup_iff.mpr (List.nodup_cons.mpr ⟨?_, hothers.paths⟩)
    intro hmem
    exact hfree (((List.filter_sublist.map _).append_left _).subset hmem)

/-- A complete file takes its path from the incoming files to the complete ones. -/
theorem Distinct.complete (h : files.Distinct) (hfile : files.incoming? streamId = some file) :
    Distinct (files.complete streamId file.finalPath) := by
  have hperm := incomingFiles_perm h.streams hfile
  constructor
  · exact (h.removeIncoming none).streams
  · have hpaths := (hperm.map fun f => f.2.finalPath).append_left files.completedFiles
    rw [List.map_cons] at hpaths
    rw [FileTransferState.complete, List.append_assoc]
    exact hpaths.nodup_iff.mp h.paths

end FileTransferState

/-! ### Files received whole -/

/-- The file of a stream holds what came in for it so far, and no more than was announced. -/
structure IncomingFile.Intact (chunks : List UInt8) (file : IncomingFile) : Prop where
  contents : file.contents = chunks
  received : file.receivedSize.toNat = chunks.length
  unknown : file.awaitingSize = true → chunks = []
  known : file.awaitingSize = false → ∃ total, file.totalSize = some total ∧
    file.receivedSize ≤ total

namespace IncomingFile

variable {file : IncomingFile} {chunks : List UInt8}

theorem withData_awaitingSize (file : IncomingFile) (data : List UInt8) :
    (file.withData data).awaitingSize = false := by
  rw [withData]
  split
  · rfl
  · rename_i hsize
    exact Bool.eq_false_iff.mpr hsize

/-- An announced size is more than nothing. -/
theorem Intact.withSize (h : file.Intact chunks) (hsize : file.awaitingSize = true) :
    (file.withData data).Intact chunks := by
  have hwith : file.withData data =
      { file with totalSize := some (UInt64.ofNat (leToNat data)), awaitingSize := false } := by
    rw [withData, if_pos hsize]
  rw [hwith]
  have hnone := h.received
  rw [h.unknown hsize] at hnone
  constructor
  · exact h.contents
  · exact h.received
  · intro hsize'
    cases hsize'
  · intro _
    refine ⟨_, rfl, ?_⟩
    rw [UInt64.le_iff_toNat_le]
    exact hnone.le.trans (Nat.zero_le _)

/-- A chunk that fits. -/
theorem Intact.withChunk (h : file.Intact chunks) (hsize : file.awaitingSize = false)
    (hfits : ∀ total, file.totalSize = some total →
      file.receivedSize.toNat + data.length ≤ total.toNat) :
    (file.withData data).Intact (chunks ++ data) := by
  obtain ⟨total, htotal, -⟩ := h.known hsize
  have hbound := hfits total htotal
  have hmax := total.toNat_lt
  have hwith : file.withData data = { file with
      contents := file.contents ++ data
      receivedSize := file.receivedSize + UInt64.ofNat data.length } := by
    rw [withData, if_neg (Bool.eq_false_iff.mp hsize)]
  have hreceived : (file.receivedSize + UInt64.ofNat data.length).toNat =
      file.receivedSize.toNat + data.length := by
    rw [UInt64.toNat_add, UInt64.toNat_ofNat', Nat.add_mod_mod, Nat.mod_eq_of_lt (by omega)]
  rw [hwith]
  constructor
  · exact congrArg (· ++ data) h.contents
  · rw [hreceived, h.received, List.length_append]
  · intro hsize'
    cases hsize.symm.trans hsize'
  · intro _
    refine ⟨total, htotal, ?_⟩
    rw [UInt64.le_iff_toNat_le, hreceived]
    exact hbound

/-- A complete file has the announced size. -/
theorem Intact.totalSize_eq (h : (file.withData data).Intact chunks)
    (hcomplete : file.completes data = true) :
    (file.withData data).totalSize.map UInt64.toNat =
      some (file.withData data).contents.length := by
  obtain ⟨total, htotal, hle⟩ := h.known (withData_awaitingSize file data)
  have hge : total ≤ (file.withData data).receivedSize := by
    rw [completes] at hcomplete
    split at hcomplete
    · rename_i hsize
      rw [Bool.and_eq_true, decide_eq_true_eq, decide_eq_true_eq] at hcomplete
      have hzero : (file.withData data).totalSize = some 0 := by
        rw [withData, if_pos hsize, hcomplete.2]
      cases hzero.symm.trans htotal
      exact UInt64.zero_le
    · rw [htotal] at hcomplete
      exact of_decide_eq_true hcomplete
  have heq := UInt64.le_antisymm hge hle
  rw [htotal, heq, h.contents, ← h.received]
  rfl

end IncomingFile

end Clipboard

end Cheirizo
