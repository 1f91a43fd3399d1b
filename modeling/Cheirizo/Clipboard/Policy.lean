import Cheirizo.Clipboard.Answers

/-!
# The format policy

Files, HTML, RTF and images can be switched off. The switches act in one place only: a local offer
loses the MIME types of what is switched off before it is translated for the client. The handlers
that serve the client never look at them. They depend on what has been advertised, and on nothing
having been stored as an outgoing file.

The filter and the translation do not know the same spellings. `mimeToRdpFormats` also takes
`x-special/gnome-copied-files` for files and `application/rtf` for RTF, and the filter lets both
through. A client may also ask for the file list by an identifier that was never advertised.
Without these the policy is kept in every run: what is advertised stays permitted, hence no file
list is ever built, hence there is no file to serve.

## Main definitions

* `permits` — the configuration permits a format
* `Complies` — what is sent to the client keeps to the configuration
* `KnownSpellings` — an input avoids the spellings that the filter does not know

## Main results

* `permits_of_allowsMime` — what passes the filter in a known spelling becomes permitted formats
* `policy_kept` — a run of known spellings keeps to the configuration
-/

namespace Cheirizo

namespace Clipboard

/-! ### Formats and switches -/

namespace ClipboardFormat

/-- Files, by number or by name. -/
def isFile (f : ClipboardFormat) : Bool :=
  f.id = cfFilegroupdescriptorw || f.name = some "FileGroupDescriptorW" ||
    f.name = some "FileContents"

/-- Hypertext, by number or by name. -/
def isHtml (f : ClipboardFormat) : Bool := f.id = cfHtml || f.name = some "HTML Format"

/-- Rich text, by number or by name. -/
def isRtf (f : ClipboardFormat) : Bool := f.id = cfRtf || f.name = some "Rich Text Format"

/-- Pictures, by number or by name. -/
def isImage (f : ClipboardFormat) : Bool :=
  [cfDib, cfDibv5, cfPng, cfJpeg, cfGif].contains f.id ||
    [some "PNG", some "JFIF", some "GIF"].contains f.name

end ClipboardFormat

/-- The configuration permits the format. -/
def permits (config : OrchestratorConfig) (f : ClipboardFormat) : Bool :=
  (config.enableFiles || !f.isFile) && (config.enableHtml || !f.isHtml) &&
    (config.enableRtf || !f.isRtf) && (config.enableImages || !f.isImage)

/-- The spellings of a local offer that the translation knows and the filter does not. -/
def unfiltered (config : OrchestratorConfig) (mime : String) : Bool :=
  (mime = "x-special/gnome-copied-files" && !config.enableFiles) ||
    (mime = "application/rtf" && !config.enableRtf)

/-! ### The translation -/

theorem mem_addOnce {formats : List ClipboardFormat} {id : UInt32} {f : ClipboardFormat}
    (h : f ∈ addOnce formats id) : f ∈ formats ∨ f = .new id := by
  rw [addOnce] at h
  split at h
  · exact .inl h
  · simpa using h

theorem mem_addOnce_of_mem {formats : List ClipboardFormat} {f : ClipboardFormat} (id : UInt32)
    (h : f ∈ formats) : f ∈ addOnce formats id := by
  rw [addOnce]
  split
  · exact h
  · exact List.mem_append_left _ h

/-- A MIME type adds no other formats than it adds on its own. -/
theorem mem_addMime {formats : List ClipboardFormat} {mime : String} {f : ClipboardFormat}
    (h : f ∈ addMime formats mime) : f ∈ formats ∨ f ∈ addMime [] mime := by
  have hguarded : ∀ (present : Bool) (more : List ClipboardFormat),
      f ∈ (if present then formats else formats ++ more) → f ∈ formats ∨ f ∈ more := by
    intro present more hmem
    cases present with
    | true => exact .inl hmem
    | false => exact List.mem_append.mp hmem
  unfold addMime at h
  split at h
  -- text and files are added only once
  case h_1 | h_2 | h_3 | h_4 | h_14 | h_15 => exact hguarded _ _ h
  case h_5 | h_6 | h_7 | h_11 | h_12 | h_13 | h_16 | h_17 => exact List.mem_append.mp h
  -- the bitmaps that come along with a compressed image are, too
  case h_8 =>
    rcases mem_addOnce h with h | rfl
    · rcases mem_addOnce h with h | rfl
      · refine (List.mem_append.mp h).imp_right fun h => ?_
        exact mem_addOnce_of_mem _ (mem_addOnce_of_mem _ h)
      · exact .inr (by decide)
    · exact .inr (by decide)
  case h_9 | h_10 =>
    rcases mem_addOnce h with h | rfl
    · exact (List.mem_append.mp h).imp_right fun h => mem_addOnce_of_mem _ h
    · exact .inr (by decide)
  case h_18 => exact .inl h

theorem mem_mimeToRdpFormats {mimeTypes : List String} {f : ClipboardFormat}
    (h : f ∈ mimeToRdpFormats mimeTypes) : ∃ mime ∈ mimeTypes, f ∈ addMime [] mime := by
  -- the formats collected so far are part of the induction
  have hfold : ∀ formats, f ∈ mimeTypes.foldl addMime formats →
      f ∈ formats ∨ ∃ mime ∈ mimeTypes, f ∈ addMime [] mime := by
    clear h
    induction mimeTypes with
    | nil => exact fun _ h => .inl h
    | cons mime rest ih =>
      intro formats h
      rcases ih _ h with h | ⟨mime', hmem, h⟩
      · exact (mem_addMime h).imp_right fun h => ⟨mime, List.mem_cons_self .., h⟩
      · exact .inr ⟨mime', List.mem_cons_of_mem _ hmem, h⟩
  exact (hfold [] h).resolve_left List.not_mem_nil

/-- The MIME types behind each kind of format. -/
theorem kinds_of_mem_addMime {mime : String} {f : ClipboardFormat} (h : f ∈ addMime [] mime) :
    (f.isFile → mime = "text/uri-list" ∨ mime = "x-special/gnome-copied-files") ∧
      (f.isHtml → mime = "text/html") ∧
      (f.isRtf → mime = "text/rtf" ∨ mime = "application/rtf") ∧
      (f.isImage → startsWith "image/" mime) := by
  unfold addMime at h
  split at h
  case h_18 => exact absurd h List.not_mem_nil
  all_goals
    revert f
    decide

/-- **What passes the filter in a known spelling becomes permitted formats.** -/
theorem permits_of_allowsMime {config : OrchestratorConfig} {mime : String} {f : ClipboardFormat}
    (hallows : allowsMime config mime = true) (hknown : unfiltered config mime = false)
    (h : f ∈ addMime [] mime) : permits config f = true := by
  obtain ⟨hfile, hhtml, hrtf, himage⟩ := kinds_of_mem_addMime h
  simp only [allowsMime, Bool.not_eq_true', Bool.or_eq_false_iff, Bool.and_eq_false_imp] at hallows
  obtain ⟨⟨⟨hallowsHtml, hallowsRtf⟩, hallowsImage⟩, hallowsFile⟩ := hallows
  simp only [unfiltered, Bool.or_eq_false_iff, Bool.and_eq_false_imp] at hknown
  obtain ⟨hcopied, happlication⟩ := hknown
  have hfiles : f.isFile = true → config.enableFiles = true := by
    intro hf
    rcases hfile hf with rfl | rfl
    · simpa using hallowsFile (by decide)
    · simpa using hcopied (by decide)
  have htext : f.isHtml = true → config.enableHtml = true := by
    intro hf
    rw [hhtml hf] at hallowsHtml
    simpa using hallowsHtml (by decide)
  have hrich : f.isRtf = true → config.enableRtf = true := by
    intro hf
    rcases hrtf hf with rfl | rfl
    · simpa using hallowsRtf (by decide)
    · simpa using happlication (by decide)
  have himages : f.isImage = true → config.enableImages = true := by
    intro hf
    simpa using hallowsImage (himage hf)
  have himp : ∀ a b : Bool, (b = true → a = true) → (a || !b) = true := by decide
  simp only [permits, himp _ _ hfiles, himp _ _ htext, himp _ _ hrich, himp _ _ himages,
    Bool.and_self]

/-! ### Runs -/

/-- The data is what the provider has of the MIME type behind a format that is no file list. -/
def FromSelection (lib : Libraries) (env : Env) (formatId : UInt32) (data : List UInt8) : Prop :=
  formatId ≠ cfFilegroupdescriptorw ∧ ∃ mime provider portalData,
    rdpFormatToMime formatId = some mime ∧ env.provider = some provider ∧
      provider.readData mime = some portalData ∧
      toRdpData lib.codec formatId mime portalData = .ok data

/-- What is sent to the client in answer to an input keeps to the configuration: only permitted
formats are advertised, and without files the client gets neither a file list nor any part of a
file. -/
structure Complies (lib : Libraries) (config : OrchestratorConfig) (o : Orchestrator) (i : Input) :
    Prop where
  advertised : ∀ formats, .toClient (.sendInitiateCopy formats) ∈ (respond lib o i).out →
    ∀ f ∈ formats, permits config f = true
  fileList : config.enableFiles = false →
    ∀ data, .toClient (.sendFormatData (.data data)) ∈ (respond lib o i).out →
      ∃ env formatId, i = .event env (.rdpDataRequest formatId) ∧
        FromSelection lib env formatId data
  contents : config.enableFiles = false → ∀ response,
    .toClient (.sendFileContentsResponse response) ∈ (respond lib o i).out →
      response.contents = .error

/-- The input avoids the spellings that the filter does not know: the second MIME type for files
and for RTF in a local offer, and the file list by its identifier in a request that the provider
could serve. -/
def KnownSpellings (config : OrchestratorConfig) : Input → Prop
  | .event _ (.portalFormatsAvailable mimeTypes _) => ∀ mime ∈ mimeTypes,
    unfiltered config mime = false
  | .event env (.rdpDataRequest formatId) =>
    config.enableFiles = false → formatId = cfFilegroupdescriptorw →
      ∀ provider, env.provider = some provider → provider.readData "text/uri-list" = none
  | _ => True

/-- What the policy rests on. -/
structure Compliant (config : OrchestratorConfig) (o : Orchestrator) : Prop where
  config_eq : o.config = config
  advertised : ∀ f ∈ o.localAdvertisedFormats, permits config f = true
  outgoing : config.enableFiles = false → o.files.outgoingFiles = []

section Steps

variable {lib : Libraries} {config : OrchestratorConfig} {o : Orchestrator} {env : Env}

/-- Without files, nothing that is advertised is a file list. -/
theorem Compliant.advertisedName_ne (h : Compliant config o) (hfiles : config.enableFiles = false)
    (formatId : UInt32) :
    advertisedName o.localAdvertisedFormats formatId ≠ some "FileGroupDescriptorW" := by
  intro hname
  obtain ⟨f, hfound, hf⟩ := Option.bind_eq_some_iff.mp hname
  have hpermits := h.advertised f (List.mem_of_find?_eq_some hfound)
  simp [permits, hfiles, ClipboardFormat.isFile, hf] at hpermits

/-- The answer to a data request that is not for a file list. -/
def serveSelection (lib : Libraries) (env : Env) (formatId : UInt32) : Action PUnit :=
  match rdpFormatToMime formatId with
  | none => sendFormatDataError env
  | some mime => sendProviderData lib env formatId mime

theorem respond_serveSelection {formatId : UInt32}
    (hname : advertisedName o.localAdvertisedFormats formatId ≠ some "FileGroupDescriptorW") :
    respond lib o (.event env (.rdpDataRequest formatId)) =
      ((serveSelection lib env formatId).run ⟨o, []⟩).2 := by
  simp only [respond, react, handleEvent, handleRdpDataRequest, Prog.run_bind, Prog.run_gets,
    hname, if_false]
  rfl

theorem Compliant.respond_rdpDataRequest (h : Compliant config o)
    (hfiles : config.enableFiles = false) (formatId : UInt32) :
    respond lib o (.event env (.rdpDataRequest formatId)) =
      ((serveSelection lib env formatId).run ⟨o, []⟩).2 :=
  respond_serveSelection (h.advertisedName_ne hfiles formatId)

theorem effects_serveSelection (formatId : UInt32) :
    Effects [] [.read, .formatData] (serveSelection lib env formatId) := by
  rw [serveSelection]
  split
  · exact effects_sendFormatDataError (by decide)
  · exact effects_sendProviderData _ _ (by decide) (by decide)

theorem mem_out_send {message : ClipboardMessage} {s : Session} {output : Output}
    (h : output ∈ ((send env message).run s).2.out) :
    output ∈ s.out ∨ output = .toClient message := by
  rw [run_send] at h
  split at h
  · simpa using h
  · exact .inl h

/-- Data in the answer comes from the provider. -/
theorem data_of_serveSelection {formatId : UInt32} {data : List UInt8}
    (h : .toClient (.sendFormatData (.data data)) ∈
      ((serveSelection lib env formatId).run ⟨o, []⟩).2.out) :
    ∃ mime provider portalData, rdpFormatToMime formatId = some mime ∧
      env.provider = some provider ∧ provider.readData mime = some portalData ∧
      toRdpData lib.codec formatId mime portalData = .ok data := by
  have herror : ∀ out, .toClient (.sendFormatData (.data data)) ∈
      ((sendFormatDataError env).run ⟨o, out⟩).2.out →
        .toClient (.sendFormatData (.data data)) ∈ out := by
    intro out hmem
    simpa using mem_out_send hmem
  rw [serveSelection] at h
  cases hmime : rdpFormatToMime formatId with
  | none =>
    rw [hmime] at h
    exact absurd (herror _ h) List.not_mem_nil
  | some mime =>
    simp only [hmime, sendProviderData] at h
    cases hprovider : env.provider with
    | none =>
      rw [hprovider] at h
      exact absurd (herror _ h) List.not_mem_nil
    | some provider =>
      simp only [hprovider, Prog.run_bind, run_emit, List.nil_append] at h
      cases hread : provider.readData mime with
      | none =>
        rw [hread] at h
        exact absurd (herror _ h) (by simp)
      | some portalData =>
        simp only [hread] at h
        cases hconvert : toRdpData lib.codec formatId mime portalData with
        | error e => simp [hconvert] at h
        | ok rdpData =>
          simp only [hconvert] at h
          have hdata : rdpData = data := by simpa [eq_comm] using mem_out_send h
          exact ⟨mime, provider, portalData, rfl, rfl, hread, hdata ▸ hconvert⟩

/-- A local offer is dropped, or what passes the filter is advertised. -/
theorem respond_portalFormatsAvailable {mimeTypes : List String} {force : Bool} {s : Session}
    (hs : respond lib o (.event env (.portalFormatsAvailable mimeTypes force)) = s) :
    s.orch.localAdvertisedFormats = o.localAdvertisedFormats ∧ s.out = [] ∨
      s.orch.localAdvertisedFormats = mimeToRdpFormats (mimeTypes.filter (allowsMime o.config)) ∧
        ∀ output ∈ s.out, output = .toClient (.sendInitiateCopy s.orch.localAdvertisedFormats) := by
  subst hs
  simp only [respond, react, handleEvent, handlePortalFormats, Prog.run_bind, run_withSync]
  cases (o.sync.handlePortalFormats lib.sha256 env.now mimeTypes force).1 with
  | block => exact .inl ⟨rfl, rfl⟩
  | allow =>
    simp only [advertise, Prog.run_bind, Prog.run_gets, Prog.run_ite]
    split
    · exact .inl ⟨rfl, rfl⟩
    · right
      by_cases hr : env.sender = .registered <;> simp [hr]

/-- What an offer in known spellings advertises is permitted. -/
theorem Compliant.permits_offer (h : Compliant config o) {mimeTypes : List String}
    (hknown : ∀ mime ∈ mimeTypes, unfiltered config mime = false) :
    ∀ f ∈ mimeToRdpFormats (mimeTypes.filter (allowsMime o.config)), permits config f = true := by
  intro f hf
  obtain ⟨mime, hmem, hf⟩ := mem_mimeToRdpFormats hf
  obtain ⟨hmem, hallows⟩ := List.mem_filter.mp hmem
  rw [h.config_eq] at hallows
  exact permits_of_allowsMime hallows (hknown mime hmem) hf

theorem Compliant.step_advertised (h : Compliant config o) {i : Input}
    (hi : KnownSpellings config i) :
    ∀ f ∈ (respond lib o i).orch.localAdvertisedFormats, permits config f = true := by
  by_cases htouch : Field.advertised ∈ i.touches
  · -- only a local offer changes them
    obtain ⟨env, mimeTypes, force, rfl⟩ := advertised_mem_touches htouch
    rcases respond_portalFormatsAvailable rfl with ⟨heq, -⟩ | ⟨heq, -⟩
    · rw [heq]
      exact h.advertised
    · rw [heq]
      exact h.permits_offer hi
  · rw [(respond_keeps o i).advertised htouch]
    exact h.advertised

theorem Compliant.step_outgoing (h : Compliant config o) (hfiles : config.enableFiles = false)
    (i : Input) : (respond lib o i).orch.files.outgoingFiles = [] := by
  by_cases htouch : Field.outgoing ∈ i.touches
  · rcases outgoing_mem_touches htouch with ⟨env, formatId, rfl⟩ | ⟨env, rfl⟩
    · rw [h.respond_rdpDataRequest hfiles]
      exact ((effects_serveSelection formatId ⟨o, []⟩).1.outgoing List.not_mem_nil).trans
        (h.outgoing hfiles)
    · rw [respond_disconnect_files]
      rfl
  · exact ((respond_keeps o i).outgoing htouch).trans (h.outgoing hfiles)

/-- **What the policy rests on is kept** by every input in known spellings. -/
theorem Compliant.step (h : Compliant config o) {i : Input} (hi : KnownSpellings config i) :
    Compliant config (respond lib o i).orch :=
  ⟨(respond_keeps o i).config.trans h.config_eq, h.step_advertised hi,
    fun hfiles => h.step_outgoing hfiles i⟩

theorem Compliant.complies (h : Compliant config o) {i : Input} (hi : KnownSpellings config i) :
    Complies lib config o i where
  advertised formats hmem := by
    rcases copy_mem_emits (respond_topic hmem) with ⟨env, rfl⟩ | ⟨env, mimeTypes, force, rfl⟩
    · simp only [respond, react, handleEvent, handleRdpReady, Prog.run_bind, Prog.run_gets,
        Prog.run_ite] at hmem
      split at hmem
      · exact absurd hmem List.not_mem_nil
      · have hformats : formats = o.localAdvertisedFormats := by simpa using mem_out_send hmem
        rw [hformats]
        exact h.advertised
    · rcases respond_portalFormatsAvailable rfl with ⟨-, hout⟩ | ⟨heq, hout⟩
      · rw [hout] at hmem
        exact absurd hmem List.not_mem_nil
      · have hformats := hout _ hmem
        simp only [Output.toClient.injEq, ClipboardMessage.sendInitiateCopy.injEq] at hformats
        rw [hformats, heq]
        exact h.permits_offer hi
  fileList hfiles data hmem := by
    obtain ⟨env, formatId, rfl⟩ := formatData_mem_emits (respond_topic hmem)
    rw [h.respond_rdpDataRequest hfiles] at hmem
    obtain ⟨mime, provider, portalData, hmime, hprovider, hread, hconvert⟩ :=
      data_of_serveSelection hmem
    refine ⟨env, formatId, rfl, ?_, mime, provider, portalData, hmime, hprovider, hread, hconvert⟩
    rintro rfl
    have hmime' : mime = "text/uri-list" := (Option.some.inj hmime).symm
    have hnone : provider.readData "text/uri-list" = none := hi hfiles rfl provider hprovider
    rw [hmime', hnone] at hread
    cases hread
  contents hfiles response hmem := by
    obtain ⟨env, streamId, listIndex, position, size, isSizeRequest, rfl⟩ :=
      contentsResponse_mem_emits (respond_topic hmem)
    have hnone : o.files.outgoingFiles[listIndex.toNat]? = none := by simp [h.outgoing hfiles]
    by_cases hr : env.sender = .unregistered <;>
      simp [respond, react, handleEvent, handleRdpFileContentsRequest, Prog.run_bind, hr, hnone]
        at hmem

end Steps

/-- **A run of known spellings keeps to the configuration.** -/
theorem policy_kept (lib : Libraries) (config : OrchestratorConfig) (downloadDir : String)
    (inputs : List Input) (h : ∀ i ∈ inputs, KnownSpellings config i) :
    (orchestrator lib).Along (Complies lib config) (.new config downloadDir) inputs := by
  have hstart : Compliant config (.new config downloadDir) :=
    ⟨rfl, (fun _ h => nomatch h), fun _ => rfl⟩
  exact Machine.Along.of_invariant (fun o i ho hi => ho.step hi) (fun o i ho hi => ho.complies hi)
    hstart (Machine.along_of_forall h)

/-- Everything switched off. -/
def textOnly : OrchestratorConfig := ⟨false, false, false, false, 500⟩

/-- The offers below, with their digests. -/
def offerDigests : List (List String × String) :=
  [(["text/uri-list", "TEXT/URI-LIST", "text/plain", "text/rtf"],
      "7705842bbeda8a7db7393f39796ea7c96987d60a840bd2e73eeb046c0c948050"),
    (["x-special/gnome-copied-files"],
      "c45f5fcd1b3d8f3349f13be5653a5068793736f79977ebcc1e7de39a3f165c2f"),
    (["application/rtf"],
      "9f1deb9b33061f497de881a9a8c365b6c2c82b395f5d5c4389183adac358d0dd")]

/-- A fingerprint that tells the two offers apart. -/
def offerLibraries : Libraries where
  sha256 data :=
    ((offerDigests.map fun offer => (mimeTypesPreimage offer.1, offer.2)).lookup data).getD ""
  codec := rejectingCodec

/-- A local selection of files, text and RTF, advertised again to a client that then asks for a
file list and a file. -/
def mixedOffer : List Input :=
  [.event sampleEnv (.portalFormatsAvailable
      ["text/uri-list", "TEXT/URI-LIST", "text/plain", "text/rtf"] true),
    .event sampleEnv .rdpReady, .event sampleEnv (.rdpDataRequest 0),
    .event sampleEnv (.rdpFileContentsRequest 1 0 0 8 true)]

theorem mixedOffer_complies :
    (orchestrator offerLibraries).Along (Complies offerLibraries textOnly)
      (.new textOnly "/home/user/Downloads") mixedOffer := by
  refine policy_kept offerLibraries textOnly "/home/user/Downloads" mixedOffer ?_
  simp [mixedOffer, KnownSpellings, unfiltered, cfFilegroupdescriptorw]

/-- The second spelling of files is advertised although files are switched off, the second spelling
of RTF although RTF is. -/
theorem other_spellings_advertised :
    (¬ (orchestrator offerLibraries).Along (Complies offerLibraries textOnly)
      (.new textOnly "/home/user/Downloads")
      [.event sampleEnv (.portalFormatsAvailable ["x-special/gnome-copied-files"] true)]) ∧
    ¬ (orchestrator offerLibraries).Along (Complies offerLibraries textOnly)
      (.new textOnly "/home/user/Downloads")
      [.event sampleEnv (.portalFormatsAvailable ["application/rtf"] true)] := by
  constructor
  · intro h
    have hpermits := h.1.advertised
      [.withName 0 "FileGroupDescriptorW", .withName 0 "FileContents"] (by decide +kernel)
      (.withName 0 "FileGroupDescriptorW") (List.mem_cons_self ..)
    exact absurd hpermits (by decide)
  · intro h
    have hpermits := h.1.advertised [.withName cfRtf "Rich Text Format"] (by decide +kernel)
      (.withName cfRtf "Rich Text Format") (List.mem_cons_self ..)
    exact absurd hpermits (by decide)

end Clipboard

end Cheirizo
