import Cheirizo.Clipboard.Policy

/-!
# Files that are offered

A client that asks for the list of local files gets one descriptor for each, and then asks for their
contents by index. The handler stores the files it can inspect and builds the descriptors in a
second pass, which fails as a whole if one file cannot be inspected or has no name. The files of a
list that could not be built, or not be sent, have then taken the place of those the client knows.

Beside the orchestrator stands the last list that was sent. In every state of a run, indices mean
what that list says if and only if every list that was stored on the way was also sent, or was the
same.

## Main definitions

* `offeredPaths`, `listAnswer` — what a request for the list of files finds, and how it is answered
* `Watch`, `watch` — the orchestrator, and the last list that was sent
* `AnswersListed` — requests for contents are answered from that list
* `KeepsList` — the condition on an input

## Main results

* `run_handleFileDescriptorRequest` — what a request for the list stores and answers
* `answersListed_iff` — the stored files and the list must agree
* `contents_from_sentList_iff` — the property in every state of a run
-/

namespace Cheirizo

namespace Clipboard

variable {lib : Libraries} {env : Env} {o : Orchestrator}

/-! ### A request for the list -/

/-- The URI list of the local selection. -/
def uriData (provider : Provider) : Option (List UInt8) :=
  ((provider.readData "x-special/gnome-copied-files").filter fun data => !data.isEmpty).or
    (provider.readData "text/uri-list")

/-- The paths that a request for the list of files finds. -/
def offeredPaths (env : Env) : List String :=
  match env.provider.bind uriData with
  | none => []
  | some data => parseFileUris env.disk.exists_ data

/-- The answer to a request for the list of files. -/
def listAnswer (env : Env) : FormatDataResponse :=
  if offeredPaths env = [] then .error
  else
    match FileDescriptor.buildList env.disk (offeredPaths env) with
    | .ok descriptors => .data descriptors
    | .error _ => .error

/-- The orchestrator with the files stored that were found, if any were. -/
def storeFiles (env : Env) (o : Orchestrator) : Orchestrator :=
  if offeredPaths env = [] then o
  else { o with
    files := { o.files with outgoingFiles := outgoingFiles env.disk (offeredPaths env) } }

theorem run_readUriData_eq (provider : Provider) (s : Session) :
    ((readUriData provider).run s).1 = .ok (uriData provider) ∧
      ((readUriData provider).run s).2.orch = s.orch ∧
      dataAnswers ((readUriData provider).run s).2.out = dataAnswers s.out := by
  rw [readUriData, uriData]
  cases (provider.readData "x-special/gnome-copied-files").filter fun data => !data.isEmpty with
  | none => simp [Prog.run_bind, dataAnswers]
  | some data => simp [Prog.run_bind, dataAnswers]

theorem run_sendFormatData (response : FormatDataResponse) (s : Session) :
    ((send env (.sendFormatData response)).run s).2.orch = s.orch ∧
      dataAnswers ((send env (.sendFormatData response)).run s).2.out =
        dataAnswers s.out ++ if env.sender = .registered then [response] else [] := by
  rw [run_send]
  split_ifs
  · simp [dataAnswers]
  · simp

theorem run_sendFileList {uriData : List UInt8}
    (hpaths : parseFileUris env.disk.exists_ uriData = offeredPaths env) (s : Session) :
    ((sendFileList env uriData).run s).2.orch = storeFiles env s.orch ∧
      dataAnswers ((sendFileList env uriData).run s).2.out =
        dataAnswers s.out ++ if env.sender = .registered then [listAnswer env] else [] := by
  rw [sendFileList, hpaths, storeFiles, listAnswer]
  dsimp only
  by_cases hnone : offeredPaths env = []
  · rw [if_pos hnone, if_pos hnone, hnone]
    exact run_sendFormatData .error s
  · rw [if_neg hnone, if_neg hnone, if_neg (by rwa [List.isEmpty_iff])]
    cases FileDescriptor.buildList env.disk (offeredPaths env) with
    | ok descriptors => exact run_sendFormatData (.data descriptors) _
    | error e => exact run_sendFormatData .error _

/-- **A request for the list of files** stores what it finds, whatever its answer is. -/
theorem run_handleFileDescriptorRequest (env : Env) (s : Session) :
    ((handleFileDescriptorRequest env).run s).2.orch = storeFiles env s.orch ∧
      dataAnswers ((handleFileDescriptorRequest env).run s).2.out =
        dataAnswers s.out ++ if env.sender = .registered then [listAnswer env] else [] := by
  have hnothing : offeredPaths env = [] →
      storeFiles env s.orch = s.orch ∧ listAnswer env = .error := by
    intro h
    rw [storeFiles, listAnswer, if_pos h, if_pos h]
    exact ⟨rfl, rfl⟩
  rw [handleFileDescriptorRequest]
  cases hprovider : env.provider with
  | none =>
    obtain ⟨hstore, hanswer⟩ := hnothing (by rw [offeredPaths, hprovider]; rfl)
    rw [hstore, hanswer]
    exact run_sendFormatData .error s
  | some provider =>
    obtain ⟨hok, horch, hout⟩ := run_readUriData_eq provider s
    dsimp only
    rw [Prog.run_bind_of_ok hok, ← horch, ← hout]
    cases hdata : uriData provider with
    | none =>
      obtain ⟨hstore, hanswer⟩ := hnothing (by
        rw [offeredPaths, hprovider, Option.bind_some, hdata])
      rw [horch, hstore, hanswer, ← horch]
      exact run_sendFormatData .error _
    | some data =>
      refine run_sendFileList ?_ _
      rw [offeredPaths, hprovider, Option.bind_some, hdata]

/-- The files behind the paths of a list, one for each descriptor. -/
def describedFiles (disk : Disk) (paths : List String) : List OutgoingFile :=
  paths.map fun path => ⟨path, ((disk.metadata path).map Metadata.size).getD 0⟩

/-- A list can be built if and only if all its files can be inspected and have names. -/
theorem buildList_ok_iff (disk : Disk) (paths : List String) :
    (∃ descriptors, FileDescriptor.buildList disk paths = .ok descriptors) ↔
      ∀ path ∈ paths, (disk.metadata path).isSome ∧ (fileName path).isSome := by
  have hmany : (∃ data, FileDescriptor.buildMany disk paths = .ok data) ↔
      ∀ path ∈ paths, (disk.metadata path).isSome ∧ (fileName path).isSome := by
    induction paths with
    | nil => exact iff_of_true ⟨[], rfl⟩ fun _ h => absurd h List.not_mem_nil
    | cons path paths ih =>
      rw [List.forall_mem_cons, ← ih, FileDescriptor.buildMany, FileDescriptor.build]
      cases disk.metadata path with
      | none => simp [bind, Except.bind]
      | some metadata =>
        cases fileName path with
        | none => simp [bind, Except.bind]
        | some name =>
          cases FileDescriptor.buildMany disk paths with
          | error e => simp [bind, Except.bind]
          | ok data => simp [bind, Except.bind, pure, Except.pure]
  rw [← hmany, FileDescriptor.buildList]
  cases FileDescriptor.buildMany disk paths with
  | error e => simp [bind, Except.bind]
  | ok data => simp [bind, Except.bind, pure, Except.pure]

theorem outgoingFiles_eq {disk : Disk} {paths : List String}
    (h : ∀ path ∈ paths, (disk.metadata path).isSome) :
    outgoingFiles disk paths = describedFiles disk paths := by
  rw [outgoingFiles, describedFiles]
  refine List.filterMap_eq_map_iff_forall_eq_some.mpr fun path hpath => ?_
  obtain ⟨metadata, hmetadata⟩ := Option.isSome_iff_exists.mp (h path hpath)
  rw [hmetadata]
  rfl

/-! ### Requests for contents -/

/-- The answer to a request for contents by a list. -/
def listedAnswer (env : Env) (listed : List OutgoingFile) (streamId listIndex : UInt32)
    (position : UInt64) (size : UInt32) (isSizeRequest : Bool) : Option FileContentsResponse :=
  if env.sender = .registered then
    listed[listIndex.toNat]?.map fun file => ⟨streamId,
      if isSizeRequest then .size file.size else readFileChunk env.disk file.path position size⟩
  else none

/-- A request for contents is answered by the files that are stored. -/
theorem contentsAnswers_request (lib : Libraries) (o : Orchestrator) (env : Env)
    (streamId listIndex : UInt32) (position : UInt64) (size : UInt32) (isSizeRequest : Bool) :
    contentsAnswers (respond lib o (.event env
        (.rdpFileContentsRequest streamId listIndex position size isSizeRequest))).out =
      (listedAnswer env o.files.outgoingFiles streamId listIndex position size
        isSizeRequest).toList := by
  simp only [respond, react, handleEvent, handleRdpFileContentsRequest, listedAnswer]
  cases henv : env.sender with
  | unregistered => simp [contentsAnswers]
  | closed =>
    cases hfile : o.files.outgoingFiles[listIndex.toNat]? with
    | none => simp [Prog.run_bind, contentsAnswers, hfile]
    | some file => simp [Prog.run_bind, contentsAnswers, hfile, henv]
  | registered =>
    cases hfile : o.files.outgoingFiles[listIndex.toNat]? with
    | none => simp [Prog.run_bind, contentsAnswers, hfile]
    | some file => simp [Prog.run_bind, contentsAnswers, hfile, henv]

/-- Two lists have the same files, as far as an index reaches. -/
def SameFiles (files listed : List OutgoingFile) : Prop :=
  ∀ i < 2 ^ 32, files[i]? = listed[i]?

/-- A disk that has one file only. -/
def probeDisk (path : String) : Disk :=
  { sampleDisk with readsChunk := fun other _ _ => if other = path then some [] else none }

/-- Every difference between two lists can be seen in an answer. -/
theorem sameFiles_iff {files listed : List OutgoingFile} :
    SameFiles files listed ↔ ∀ env streamId listIndex position size isSizeRequest,
      (listedAnswer env files streamId listIndex position size isSizeRequest).toList =
        (listedAnswer env listed streamId listIndex position size isSizeRequest).toList := by
  constructor
  · intro h env streamId listIndex position size isSizeRequest
    rw [listedAnswer, listedAnswer, h listIndex.toNat listIndex.toNat_lt]
  · intro h i hi
    have hindex : (UInt32.ofNat i).toNat = i := UInt32.toNat_ofNat_of_lt' hi
    have hsizes := h sampleEnv 0 (UInt32.ofNat i) 0 0 true
    have hpaths := fun path => h { sampleEnv with disk := probeDisk path } 0 (UInt32.ofNat i) 0 0
      false
    simp only [listedAnswer, hindex, sampleEnv, if_true] at hsizes hpaths
    cases hfile : files[i]? with
    | none =>
      cases hlisted : listed[i]? with
      | none => rfl
      | some other => simp [hfile, hlisted] at hsizes
    | some file =>
      cases hlisted : listed[i]? with
      | none => simp [hfile, hlisted] at hsizes
      | some other =>
        have hpath := hpaths file.path
        simp only [hfile, hlisted] at hsizes hpath
        have hsize : file.size = other.size := by simpa using hsizes
        have hsame : other.path = file.path := by
          by_contra hne
          simp [readFileChunk, probeDisk, hne] at hpath
        cases file
        cases other
        cases hsize
        cases hsame
        rfl

/-! ### The last list that was sent -/

/-- The orchestrator, and the files of the last list that its client was sent. -/
structure Watch where
  orch : Orchestrator
  sent : List OutgoingFile

/-- A client asks for the list of files. -/
def asksForList (o : Orchestrator) (formatId : UInt32) : Prop :=
  advertisedName o.localAdvertisedFormats formatId = some "FileGroupDescriptorW"

instance (o : Orchestrator) (formatId : UInt32) : Decidable (asksForList o formatId) :=
  inferInstanceAs (Decidable (_ = _))

/-- Data was sent, and no error. -/
def sendsData (out : List Output) : Bool := (dataAnswers out).any fun answer => answer ≠ .error

namespace Watch

variable (lib)

/-- No list was sent. -/
def new (config : OrchestratorConfig) (downloadDir : String) : Watch where
  orch := .new config downloadDir
  sent := []

/-- The list that was sent last is the one the client asks about. -/
def step (w : Watch) (i : Input) : Watch where
  orch := (respond lib w.orch i).orch
  sent :=
    match i with
    | .disconnect _ => []
    | .event env (.rdpDataRequest formatId) =>
      if asksForList w.orch formatId ∧ sendsData (respond lib w.orch i).out then
        describedFiles env.disk (offeredPaths env)
      else w.sent
    | _ => w.sent

end Watch

/-- The orchestrator as a machine, with the last list that was sent. -/
def watch (lib : Libraries) : Machine Watch Input Output where
  step w i := (w.step lib i, (respond lib w.orch i).out)

/-- **Contents match the list that was sent**: a request with an index is answered from the entry of
the last list, and from no other file. -/
def AnswersListed (lib : Libraries) (w : Watch) : Prop :=
  ∀ env streamId listIndex position size isSizeRequest,
    contentsAnswers (respond lib w.orch (.event env
        (.rdpFileContentsRequest streamId listIndex position size isSizeRequest))).out =
      (listedAnswer env w.sent streamId listIndex position size isSizeRequest).toList

/-- The list of files can be sent: the client can be reached, and all files can be inspected and
have names. -/
structure SendsList (env : Env) : Prop where
  sender : env.sender = .registered
  files : ∀ path ∈ offeredPaths env, (env.disk.metadata path).isSome ∧ (fileName path).isSome

/-- A list of files that is stored is sent, or the same as the last one. -/
def KeepsList (w : Watch) : Input → Prop
  | .event env (.rdpDataRequest formatId) =>
    asksForList w.orch formatId → offeredPaths env ≠ [] →
      SendsList env ∨ SameFiles (outgoingFiles env.disk (offeredPaths env)) w.sent
  | _ => True

theorem answersListed_iff (lib : Libraries) (w : Watch) :
    AnswersListed lib w ↔ SameFiles w.orch.files.outgoingFiles w.sent := by
  rw [sameFiles_iff, AnswersListed]
  simp only [contentsAnswers_request]

/-- A request for the list, in a state in which it is one. -/
theorem respond_list (lib : Libraries) {formatId : UInt32} (hasks : asksForList o formatId)
    (env : Env) :
    (respond lib o (.event env (.rdpDataRequest formatId))).orch = storeFiles env o ∧
      dataAnswers (respond lib o (.event env (.rdpDataRequest formatId))).out =
        if env.sender = .registered then [listAnswer env] else [] := by
  have hrun : (react lib (.event env (.rdpDataRequest formatId))).run ⟨o, []⟩ =
      (handleFileDescriptorRequest env).run ⟨o, []⟩ := by
    simp only [react, handleEvent, handleRdpDataRequest, Prog.run_bind, Prog.run_gets, Prog.run_ite]
    exact if_pos hasks
  rw [respond, hrun]
  exact run_handleFileDescriptorRequest env ⟨o, []⟩

/-- **A list is sent if and only if it can be.** -/
theorem sendsData_iff {formatId : UInt32} (hasks : asksForList o formatId)
    (hpaths : offeredPaths env ≠ []) :
    sendsData (respond lib o (.event env (.rdpDataRequest formatId))).out = true ↔
      SendsList env := by
  have hanswer : listAnswer env ≠ .error ↔
      ∀ path ∈ offeredPaths env, (env.disk.metadata path).isSome ∧ (fileName path).isSome := by
    rw [← buildList_ok_iff, listAnswer, if_neg hpaths]
    cases FileDescriptor.buildList env.disk (offeredPaths env) with
    | ok descriptors => simp
    | error e => simp
  rw [sendsData, (respond_list lib hasks env).2]
  constructor
  · intro h
    split_ifs at h with hsender
    · exact ⟨hsender, hanswer.mp (by simpa using h)⟩
    · exact absurd h (by decide)
  · rintro ⟨hsender, hfiles⟩
    rw [if_pos hsender]
    simpa using hanswer.mpr hfiles

/-- A request for data that is not for the list of files stores none. -/
theorem outgoingFiles_respond {formatId : UInt32} (h : ¬ asksForList o formatId) (env : Env) :
    (respond lib o (.event env (.rdpDataRequest formatId))).orch.files.outgoingFiles =
      o.files.outgoingFiles := by
  rw [respond_serveSelection h]
  exact (effects_serveSelection formatId ⟨o, []⟩).1.outgoing List.not_mem_nil

/-- **A request for the list** keeps the stored files and the list alike, or does not. -/
theorem sameFiles_list_iff {w : Watch} (h : SameFiles w.orch.files.outgoingFiles w.sent)
    {formatId : UInt32} (hasks : asksForList w.orch formatId) (env : Env) :
    SameFiles (w.step lib (.event env (.rdpDataRequest formatId))).orch.files.outgoingFiles
        (w.step lib (.event env (.rdpDataRequest formatId))).sent ↔
      (offeredPaths env ≠ [] →
        SendsList env ∨ SameFiles (outgoingFiles env.disk (offeredPaths env)) w.sent) := by
  obtain ⟨horch, hout⟩ := respond_list lib hasks env
  simp only [Watch.step]
  rw [horch, storeFiles]
  by_cases hpaths : offeredPaths env = []
  · -- Nothing is stored, and an error is sent.
    have hnone : sendsData (respond lib w.orch (.event env (.rdpDataRequest formatId))).out =
        false := by
      rw [sendsData, hout, listAnswer, if_pos hpaths]
      split_ifs
      · rfl
      · rfl
    rw [if_pos hpaths, if_neg fun hsent => Bool.false_ne_true (hnone.symm.trans hsent.2)]
    exact iff_of_true h fun hne => absurd hpaths hne
  · rw [if_neg hpaths, imp_iff_right hpaths]
    by_cases hsends : SendsList env
    · rw [if_pos ⟨hasks, (sendsData_iff hasks hpaths).mpr hsends⟩]
      refine iff_of_true ?_ (Or.inl hsends)
      rw [outgoingFiles_eq fun path hpath => (hsends.files path hpath).1]
      exact fun _ _ => rfl
    · rw [if_neg fun hsent => hsends ((sendsData_iff hasks hpaths).mp hsent.2), or_iff_right hsends]

/-- Other inputs send no list. -/
theorem sent_step_of_notMem (lib : Libraries) (w : Watch) {i : Input}
    (h : Field.outgoing ∉ i.touches) : (w.step lib i).sent = w.sent ∧ KeepsList w i := by
  cases i with
  | transfer serial mime => exact ⟨rfl, trivial⟩
  | disconnect env => exact absurd (List.mem_singleton_self _) h
  | event env e =>
    cases e with
    | rdpDataRequest formatId => exact absurd (List.mem_singleton_self _) h
    | _ => exact ⟨rfl, trivial⟩

/-- **One input** keeps the stored files and the list alike if and only if it keeps the list. -/
theorem sameFiles_step_iff {w : Watch} (h : SameFiles w.orch.files.outgoingFiles w.sent)
    (i : Input) :
    SameFiles (w.step lib i).orch.files.outgoingFiles (w.step lib i).sent ↔ KeepsList w i := by
  by_cases htouch : Field.outgoing ∈ i.touches
  · obtain ⟨env, formatId, rfl⟩ | ⟨env, rfl⟩ := outgoing_mem_touches htouch
    · by_cases hasks : asksForList w.orch formatId
      · rw [sameFiles_list_iff h hasks env, KeepsList, imp_iff_right hasks]
      · simp only [Watch.step]
        rw [outgoingFiles_respond hasks, if_neg fun hsent => hasks hsent.1]
        exact iff_of_true h fun hasks' => absurd hasks' hasks
    · refine iff_of_true ?_ trivial
      simp only [Watch.step]
      rw [respond_disconnect_files]
      exact fun _ _ => rfl
  · have hstored : (w.step lib i).orch.files.outgoingFiles = w.orch.files.outgoingFiles :=
      (respond_keeps w.orch i).outgoing htouch
    obtain ⟨hsent, hkeeps⟩ := sent_step_of_notMem lib w htouch
    rw [hstored, hsent]
    exact iff_of_true h hkeeps

/-- **File contents match the announced list** in every state of a run if and only if every list of
files that is stored on the way is sent, or the same as the last one. -/
theorem contents_from_sentList_iff (lib : Libraries) (config : OrchestratorConfig)
    (downloadDir : String) (inputs : List Input) :
    (watch lib).Always (AnswersListed lib) (.new config downloadDir) inputs ↔
      (watch lib).Along KeepsList (.new config downloadDir) inputs := by
  have hstep : ∀ w i, AnswersListed lib w → (AnswersListed lib (w.step lib i) ↔ KeepsList w i) := by
    intro w i h
    rw [answersListed_iff] at h ⊢
    exact sameFiles_step_iff h i
  refine Machine.always_iff_along (fun w i h hkeeps => (hstep w i h).mpr hkeeps) (fun _ h => h)
    (fun w i h hkeeps hgood => hkeeps ((hstep w i h).mp hgood)) ?_
  exact (answersListed_iff lib _).mpr fun _ _ => rfl

/-- Three files, the last of which is the root directory and has no name. -/
def threeFilesDisk : Disk :=
  { sampleDisk with
    existing := ["/tmp/a", "/tmp/b", "/"]
    metadata := fun path =>
      if path = "/tmp/a" then some ⟨1, false⟩
      else if path = "/tmp/b" then some ⟨2, false⟩
      else if path = "/" then some ⟨4096, true⟩
      else none }

/-- A client asks for the list of files while these URIs are selected. -/
def listRequest (uris : String) : Input :=
  .event
    { sampleEnv with
      provider := some { sampleProvider with
        readData := fun mime =>
          if mime = "text/uri-list" then some (Unicode.encodeUtf8 uris.toList) else none }
      disk := threeFilesDisk }
    (.rdpDataRequest 0)

/-- The list of one file is sent. The list of another file and the root directory cannot be built,
and still a request for the first file is answered with the size of the other one. -/
theorem other_file_served :
    ¬ (watch sampleLibraries).Always (AnswersListed sampleLibraries)
      (.new sampleConfig "/home/user/Downloads")
      [.event sampleEnv (.portalFormatsAvailable ["text/uri-list"] true),
        listRequest "file:///tmp/a\n", listRequest "file:///tmp/b\nfile:///\n"] := by
  rintro ⟨-, -, -, hlast⟩
  have hanswer := hlast sampleEnv 1 0 0 8 true
  exact absurd hanswer (by decide +kernel)

end Clipboard

end Cheirizo
