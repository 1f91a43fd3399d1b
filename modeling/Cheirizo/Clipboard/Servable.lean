import Mathlib.Data.List.TakeWhile
import Cheirizo.Clipboard.Policy

/-!
# Reading back what was advertised

A local offer becomes formats by one table, and a request for a format becomes a MIME type by
another. The provider then looks for that type in the offer, with `find_mime_match` of
`desktop/portal/xdg_desktop/services/clipboard/mod.rs`. The two tables do not fit each other: an
offer of `image/jpeg` advertises a bitmap, and the bitmap is read as `image/png`; and a file list,
which is advertised under identifier zero, is found again only if nothing registered under a name
comes before it.

## Main definitions

* `findMimeMatch` — the offered type a request is served from
* `Servable` — a request for this identifier reads something that was offered
* `ReadBack` — which offers the two tables agree on

## Main results

* `findMimeMatch_isSome` — what the tolerant search finds
* `find?_mimeToRdpFormats` — the format found under identifier zero, from the offer
* `advertised_servable_iff` — everything advertised can be served exactly for the offers `ReadBack`
  describes
-/

namespace Cheirizo

namespace Clipboard

/-! ### The provider's search -/

/-- A MIME type without its parameters. -/
def mimeBase (mime : String) : String := String.ofList (mime.toList.takeWhile (· ≠ ';'))

/-- The offered type to use for a request, tolerating differences in the charset of text. -/
def findMimeMatch (requested : String) (available : List String) : Option String :=
  (available.find? (· = requested)).or <|
    if startsWith "text/" requested then
      let spelled :=
        if requested.toList.contains ';' then available.find? (· = mimeBase requested)
        else
          (available.find? (· = requested ++ ";charset=utf-8")).or
            (available.find? (· = requested ++ ";charset=UTF-8"))
      spelled.or (available.find? fun m => mimeBase m = mimeBase requested)
    else none

theorem isSome_find?_eq {x : String} {l : List String} :
    (l.find? (· = x)).isSome = true ↔ x ∈ l := by
  rw [List.find?_isSome]
  constructor
  · rintro ⟨y, hy, heq⟩
    rwa [← of_decide_eq_true heq]
  · intro hx
    exact ⟨x, hx, decide_eq_true rfl⟩

theorem mimeBase_mimeBase (mime : String) : mimeBase (mimeBase mime) = mimeBase mime := by
  rw [mimeBase, mimeBase, String.toList_ofList, List.takeWhile_idem]

theorem mimeBase_append_parameter {mime : String} (h : ';' ∉ mime.toList) (rest : List Char) :
    mimeBase (mime ++ String.ofList (';' :: rest)) = mimeBase mime := by
  have hall : mime.toList.takeWhile (fun c => decide (c ≠ ';')) = mime.toList := by
    rw [List.takeWhile_eq_self_iff]
    intro c hc
    exact decide_eq_true fun hsemi => h (hsemi ▸ hc)
  rw [mimeBase, mimeBase, String.toList_append, String.toList_ofList, List.takeWhile_append, hall,
    if_pos rfl]
  simp

/-- **The tolerant search** finds the type itself, or for text any type with the same base. -/
theorem findMimeMatch_isSome {requested : String} {available : List String} :
    (findMimeMatch requested available).isSome = true ↔
      requested ∈ available ∨
        startsWith "text/" requested = true ∧ ∃ m ∈ available, mimeBase m = mimeBase requested := by
  rw [findMimeMatch, Option.isSome_or, Bool.or_eq_true, isSome_find?_eq]
  refine or_congr_right ?_
  by_cases htext : startsWith "text/" requested = true
  · rw [if_pos htext, Option.isSome_or, Bool.or_eq_true, List.find?_isSome]
    simp only [decide_eq_true_eq]
    refine ⟨?_, fun h => .inr h.2⟩
    rintro (h | h)
    · refine ⟨htext, ?_⟩
      by_cases hsemi : requested.toList.contains ';' = true
      · rw [if_pos hsemi, isSome_find?_eq] at h
        exact ⟨_, h, mimeBase_mimeBase requested⟩
      · rw [if_neg hsemi, Option.isSome_or, Bool.or_eq_true, isSome_find?_eq, isSome_find?_eq] at h
        have hno : ';' ∉ requested.toList := fun hmem => hsemi (List.contains_iff_mem.mpr hmem)
        rcases h with h | h
        · exact ⟨_, h, mimeBase_append_parameter hno "charset=utf-8".toList⟩
        · exact ⟨_, h, mimeBase_append_parameter hno "charset=UTF-8".toList⟩
    · exact ⟨htext, h⟩
  · rw [if_neg htext]
    exact ⟨fun h => absurd h Bool.false_ne_true, fun h => absurd h.1 htext⟩

/-- Text is found under any type with its base. -/
theorem findMimeMatch_text {requested base : String} {available : List String}
    (htext : startsWith "text/" requested = true) (hbase : mimeBase requested = base) :
    (findMimeMatch requested available).isSome = true ↔ ∃ m ∈ available, mimeBase m = base := by
  rw [findMimeMatch_isSome, ← hbase]
  constructor
  · rintro (h | ⟨-, h⟩)
    · exact ⟨requested, h, rfl⟩
    · exact h
  · intro h
    exact Or.inr ⟨htext, h⟩

/-- Everything else is found only as it is. -/
theorem findMimeMatch_exact {requested : String} {available : List String}
    (htext : startsWith "text/" requested = false) :
    (findMimeMatch requested available).isSome = true ↔ requested ∈ available := by
  rw [findMimeMatch_isSome, htext]
  exact or_iff_left fun h => absurd h.1 Bool.false_ne_true

/-! ### Requests -/

section Requests

variable {lib : Libraries} {o : Orchestrator} {offered : List String} {formatId : UInt32}

/-- The two types a file list is read from. -/
def fileListTypes : List String := ["x-special/gnome-copied-files", "text/uri-list"]

/-- Whenever there is a provider, a request for this identifier reads a type that it finds in the
offer. A file list may be found under the other of its two types. -/
def Servable (lib : Libraries) (o : Orchestrator) (offered : List String) (formatId : UInt32) :
    Prop :=
  ∀ env : Env, env.provider.isSome = true → ∃ mime,
    .readData mime ∈ (respond lib o (.event env (.rdpDataRequest formatId))).out ∧
      ((findMimeMatch mime offered).isSome = true ∨
        mime ∈ fileListTypes ∧ ∃ other ∈ fileListTypes, other ∈ offered)

/-- A request for a format with a MIME type reads that type. -/
theorem readData_mem_rdpDataRequest
    (hname : advertisedName o.localAdvertisedFormats formatId ≠ some "FileGroupDescriptorW")
    {target : String} (htarget : rdpFormatToMime formatId = some target) {env : Env}
    (hprovider : env.provider.isSome = true) {mime : String} :
    .readData mime ∈ (respond lib o (.event env (.rdpDataRequest formatId))).out ↔
      mime = target := by
  obtain ⟨provider, hprovider⟩ := Option.isSome_iff_exists.mp hprovider
  have hsent : ∀ (message : ClipboardMessage) (s : Session),
      .readData mime ∈ ((send env message).run s).2.out ↔ .readData mime ∈ s.out := by
    intro message s
    rw [run_send]
    split <;> simp
  have hfirst : .readData mime ∈ [Output.readData target] ↔ mime = target := by simp
  simp only [respond, react, handleEvent, handleRdpDataRequest, Prog.run_bind, Prog.run_gets,
    if_neg hname, htarget, sendProviderData, hprovider, run_emit, List.nil_append]
  cases provider.readData target with
  | none => exact (hsent _ _).trans hfirst
  | some portalData =>
    cases hconvert : toRdpData lib.codec formatId target portalData with
    | error e =>
      simp only [hconvert]
      exact hfirst
    | ok rdpData =>
      simp only [hconvert]
      exact (hsent _ _).trans hfirst

theorem servable_iff
    (hname : advertisedName o.localAdvertisedFormats formatId ≠ some "FileGroupDescriptorW")
    {target : String} (htarget : rdpFormatToMime formatId = some target)
    (hfile : target ∉ fileListTypes) :
    Servable lib o offered formatId ↔ (findMimeMatch target offered).isSome = true := by
  constructor
  · intro h
    obtain ⟨mime, hread, hfound⟩ := h sampleEnv rfl
    rw [readData_mem_rdpDataRequest hname htarget rfl] at hread
    subst hread
    exact hfound.resolve_right fun hother => hfile hother.1
  · intro h env hprovider
    exact ⟨target, (readData_mem_rdpDataRequest hname htarget hprovider).mpr rfl, .inl h⟩

/-- A format without a MIME type is not read at all. -/
theorem not_servable
    (hname : advertisedName o.localAdvertisedFormats formatId ≠ some "FileGroupDescriptorW")
    (htarget : rdpFormatToMime formatId = none) : ¬ Servable lib o offered formatId := by
  intro h
  obtain ⟨mime, hread, -⟩ := h sampleEnv rfl
  simp only [respond, react, handleEvent, handleRdpDataRequest, Prog.run_bind, Prog.run_gets,
    if_neg hname, htarget, sendFormatDataError, run_send] at hread
  simp [sampleEnv] at hread

/-- What was done stays done. -/
theorem mem_out_of_effects {fields : List Field} {topics : List Topic} {α : Type} {x : Action α}
    (hx : Effects fields topics x) {s : Session} {output : Output} (h : output ∈ s.out) :
    output ∈ (x.run s).2.out := by
  obtain ⟨-, new, hout, -⟩ := hx s
  rw [hout]
  exact List.mem_append_left _ h

theorem readData_mem_readUriData (provider : Provider) (s : Session) :
    .readData "x-special/gnome-copied-files" ∈ ((readUriData provider).run s).2.out := by
  have hfirst : .readData "x-special/gnome-copied-files" ∈
      s.out ++ [.readData "x-special/gnome-copied-files"] :=
    List.mem_append_right _ (List.mem_singleton_self _)
  simp only [readUriData, Prog.run_bind, run_emit]
  cases (provider.readData "x-special/gnome-copied-files").filter fun data => !data.isEmpty with
  | some data => exact hfirst
  | none => exact List.mem_append_left _ hfirst

theorem servable_of_fileList
    (hname : advertisedName o.localAdvertisedFormats formatId = some "FileGroupDescriptorW")
    {mime : String} (hmime : mime ∈ fileListTypes) (hoffered : mime ∈ offered) :
    Servable lib o offered formatId := by
  intro env hprovider
  obtain ⟨provider, hprovider⟩ := Option.isSome_iff_exists.mp hprovider
  refine ⟨"x-special/gnome-copied-files", ?_, .inr ⟨List.mem_cons_self .., mime, hmime, hoffered⟩⟩
  have hrun : respond lib o (.event env (.rdpDataRequest formatId)) =
      ((handleFileDescriptorRequest env).run ⟨o, []⟩).2 := by
    simp only [respond, react, handleEvent, handleRdpDataRequest, Prog.run_bind, Prog.run_gets,
      if_pos hname]
  obtain ⟨r, hr, -⟩ := run_readUriData provider ⟨o, []⟩
  rw [hrun, handleFileDescriptorRequest, hprovider, Prog.run_bind_of_ok hr]
  have hread := readData_mem_readUriData provider ⟨o, []⟩
  cases r with
  | none =>
    have hfails : Effects [.outgoing] [.formatData] (sendFormatDataError env) :=
      effects_sendFormatDataError (List.mem_singleton_self _)
    exact mem_out_of_effects hfails hread
  | some uriData =>
    have hsends : Effects [.outgoing] [.formatData] (sendFileList env uriData) :=
      effects_sendFileList uriData (List.mem_singleton_self _) (List.mem_singleton_self _)
    exact mem_out_of_effects hsends hread

end Requests

/-! ### The two tables -/

/-- The MIME types that the formats of an offered type are read as. -/
def readTypes (mime : String) : List String :=
  match mime with
  | "text/plain" | "text/plain;charset=utf-8" | "UTF8_STRING" | "STRING" =>
    ["text/plain;charset=utf-8"]
  | "text/html" => ["text/html"]
  | "text/rtf" | "application/rtf" => ["text/rtf"]
  | "image/png" => ["image/png"]
  | "image/jpeg" | "image/jpg" => ["image/jpeg", "image/png"]
  | "image/gif" => ["image/gif"]
  | "image/bmp" | "image/x-bmp" => ["image/png"]
  | "audio/wav" | "audio/x-wav" => ["audio/wav"]
  | _ => []

/-- The formats of this type are registered under a name. -/
def registersName (mime : String) : Bool :=
  mime ∈ ["text/html", "text/rtf", "application/rtf", "image/png", "image/jpeg", "image/jpg",
    "image/gif", "text/uri-list", "x-special/gnome-copied-files"]

/-- What a format of an offered type is read as: one of its types, or it is a file list. -/
theorem readTypes_of_mem_addMime {mime : String} {f : ClipboardFormat} (h : f ∈ addMime [] mime) :
    (isFileMime mime = true ∧ f.id = 0) ∨
      f.id ≠ 0 ∧ ∃ target ∈ readTypes mime, rdpFormatToMime f.id = some target := by
  unfold addMime at h
  split at h
  case h_18 => exact absurd h List.not_mem_nil
  all_goals
    revert f
    decide

theorem exists_mem_addOnce (formats : List ClipboardFormat) (id : UInt32) :
    ∃ f ∈ addOnce formats id, f.id = id := by
  rw [addOnce]
  split
  · rename_i hid
    obtain ⟨f, hf, heq⟩ := List.any_eq_true.mp hid
    exact ⟨f, hf, of_decide_eq_true heq⟩
  · exact ⟨.new id, List.mem_append_right _ (List.mem_singleton_self _), rfl⟩

theorem subset_addMime (formats : List ClipboardFormat) (mime : String) :
    formats ⊆ addMime formats mime := by
  have hguarded : ∀ (present : Bool) (more : List ClipboardFormat),
      formats ⊆ if present then formats else formats ++ more := by
    intro present more
    cases present with
    | true => exact List.Subset.refl _
    | false => exact List.subset_append_left ..
  unfold addMime
  split
  case h_1 | h_2 | h_3 | h_4 | h_14 | h_15 => exact hguarded _ _
  case h_5 | h_6 | h_7 | h_11 | h_12 | h_13 | h_16 | h_17 => exact List.subset_append_left ..
  case h_8 =>
    intro f hf
    exact mem_addOnce_of_mem _ (mem_addOnce_of_mem _ (List.mem_append_left _ hf))
  case h_9 | h_10 =>
    intro f hf
    exact mem_addOnce_of_mem _ (List.mem_append_left _ hf)
  case h_18 => exact List.Subset.refl _

/-- Whatever is there already, an offered type has formats that are read as each of its types. -/
theorem exists_mem_addMime (formats : List ClipboardFormat) {mime target : String}
    (h : target ∈ readTypes mime) :
    ∃ f ∈ addMime formats mime, rdpFormatToMime f.id = some target := by
  have htext : ∃ f ∈ (if hasId formats cfUnicodetext then formats
      else formats ++ [.unicodeText, .new cfText, .new cfOemtext]),
        rdpFormatToMime f.id = some "text/plain;charset=utf-8" := by
    split
    · rename_i hid
      obtain ⟨f, hf, heq⟩ := List.any_eq_true.mp hid
      refine ⟨f, hf, ?_⟩
      rw [of_decide_eq_true heq]
      rfl
    · exact ⟨.unicodeText, List.mem_append_right _ (List.mem_cons_self ..), rfl⟩
  have hlast : ∀ f : ClipboardFormat, f ∈ formats ++ [f] :=
    fun f => List.mem_append_right _ (List.mem_singleton_self f)
  have hjpeg : target = "image/jpeg" ∨ target = "image/png" →
      ∃ f ∈ addOnce (formats ++ [.withName cfJpeg "JFIF"]) cfDib,
        rdpFormatToMime f.id = some target := by
    rintro (rfl | rfl)
    · exact ⟨_, mem_addOnce_of_mem _ (hlast _), rfl⟩
    · obtain ⟨f, hf, heq⟩ := exists_mem_addOnce (formats ++ [.withName cfJpeg "JFIF"]) cfDib
      refine ⟨f, hf, ?_⟩
      rw [heq]
      rfl
  unfold readTypes at h
  split at h
  case h_16 => exact absurd h List.not_mem_nil
  case h_9 | h_10 => exact hjpeg (by simpa using h)
  case h_1 | h_2 | h_3 | h_4 =>
    rw [List.mem_singleton.mp h]
    exact htext
  case h_8 =>
    rw [List.mem_singleton.mp h]
    exact ⟨.png, mem_addOnce_of_mem _ (mem_addOnce_of_mem _ (hlast _)), rfl⟩
  all_goals
    rw [List.mem_singleton.mp h]
    exact ⟨_, hlast _, rfl⟩

/-- What one listed type adds in any case is among the formats of the offer. -/
theorem exists_mem_mimeToRdpFormats {P : ClipboardFormat → Prop} {offered : List String}
    {mime : String} (hmime : mime ∈ offered) (h : ∀ formats, ∃ f ∈ addMime formats mime, P f) :
    ∃ f ∈ mimeToRdpFormats offered, P f := by
  have hsubset : ∀ (rest : List String) (formats : List ClipboardFormat),
      formats ⊆ rest.foldl addMime formats := by
    intro rest
    induction rest with
    | nil => exact fun formats => List.Subset.refl _
    | cons mime rest ih => exact fun formats f hf => ih _ (subset_addMime formats mime hf)
  obtain ⟨before, after, rfl⟩ := List.append_of_mem hmime
  rw [mimeToRdpFormats, List.foldl_append, List.foldl_cons]
  obtain ⟨f, hf, hP⟩ := h (before.foldl addMime [])
  exact ⟨f, hsubset after _ hf, hP⟩

theorem exists_fileList_mem_addMime (formats : List ClipboardFormat) {mime : String}
    (h : isFileMime mime = true) :
    ∃ f ∈ addMime formats mime, f.name = some "FileGroupDescriptorW" := by
  have hfiles : ∃ f ∈ (if hasName formats "FileGroupDescriptorW" then formats
      else formats ++ [.withName 0 "FileGroupDescriptorW", .withName 0 "FileContents"]),
        f.name = some "FileGroupDescriptorW" := by
    split
    · rename_i hname
      obtain ⟨f, hf, heq⟩ := List.any_eq_true.mp hname
      exact ⟨f, hf, of_decide_eq_true heq⟩
    · exact ⟨_, List.mem_append_right _ (List.mem_cons_self ..), rfl⟩
  rw [isFileMime, Bool.or_eq_true, decide_eq_true_eq, decide_eq_true_eq] at h
  rcases h with rfl | rfl
  · exact hfiles
  · exact hfiles

/-! ### Identifier zero -/

/-- What a request for identifier zero is matched with. -/
def underZero (f : ClipboardFormat) : Bool := f.id = 0 || f.name.isSome

theorem find?_addOnce (formats : List ClipboardFormat) {id : UInt32} (hid : id ≠ 0) :
    (addOnce formats id).find? underZero = formats.find? underZero := by
  rw [addOnce]
  split
  · rfl
  · have hnone : [ClipboardFormat.new id].find? underZero = none := by
      rw [List.find?_singleton, if_neg]
      simp [underZero, ClipboardFormat.new, hid]
    rw [List.find?_append, hnone, Option.or_none]

theorem find?_addMime (formats : List ClipboardFormat) (mime : String) :
    (addMime formats mime).find? underZero =
      (formats.find? underZero).or ((addMime [] mime).find? underZero) := by
  have htext : ((if hasId formats cfUnicodetext then formats
      else formats ++ [.unicodeText, .new cfText, .new cfOemtext]).find? underZero) =
        (formats.find? underZero).or none := by
    split
    · rw [Option.or_none]
    · rw [List.find?_append]
      rfl
  have hfiles : ((if hasName formats "FileGroupDescriptorW" then formats
      else formats ++ [.withName 0 "FileGroupDescriptorW", .withName 0 "FileContents"]).find?
        underZero) =
      (formats.find? underZero).or (some (.withName 0 "FileGroupDescriptorW")) := by
    split
    · rename_i hname
      obtain ⟨f, hf, heq⟩ := List.any_eq_true.mp hname
      have hzero : underZero f = true := by
        rw [underZero, of_decide_eq_true heq]
        exact Bool.or_true _
      have hsome : (formats.find? underZero).isSome = true :=
        List.find?_isSome.mpr ⟨f, hf, hzero⟩
      obtain ⟨g, hg⟩ := Option.isSome_iff_exists.mp hsome
      rw [hg]
      rfl
    · rw [List.find?_append]
      rfl
  unfold addMime
  split
  case h_1 | h_2 | h_3 | h_4 => exact htext
  case h_14 | h_15 => exact hfiles
  case h_8 =>
    rw [find?_addOnce _ (by decide), find?_addOnce _ (by decide), List.find?_append]
    rfl
  case h_9 | h_10 =>
    rw [find?_addOnce _ (by decide), List.find?_append]
    rfl
  case h_18 => exact (Option.or_none).symm
  all_goals
    rw [List.find?_append]
    rfl

/-- What stands first under identifier zero comes from the first offered type with a name. -/
theorem find?_foldl_addMime (offered : List String) (formats : List ClipboardFormat) :
    (offered.foldl addMime formats).find? underZero =
      (formats.find? underZero).or
        ((offered.find? registersName).bind fun mime => (addMime [] mime).find? underZero) := by
  have hnamed : ∀ mime, registersName mime = false → (addMime [] mime).find? underZero = none := by
    intro mime h
    unfold addMime
    split <;> first | rfl | exact absurd h (by decide)
  have hfound : ∀ mime, registersName mime = true →
      ((addMime [] mime).find? underZero).isSome = true := by
    intro mime h
    simp only [registersName, decide_eq_true_eq, List.mem_cons, List.not_mem_nil, or_false] at h
    rcases h with rfl | rfl | rfl | rfl | rfl | rfl | rfl | rfl | rfl <;> rfl
  induction offered generalizing formats with
  | nil => exact (Option.or_none).symm
  | cons mime rest ih =>
    rw [List.foldl_cons, ih, find?_addMime, List.find?_cons]
    cases hmime : registersName mime with
    | true =>
      obtain ⟨f, hf⟩ := Option.isSome_iff_exists.mp (hfound mime hmime)
      rw [Option.or_assoc, Option.bind_some, hf, Option.some_or]
    | false => rw [hnamed mime hmime, Option.or_none]

theorem find?_mimeToRdpFormats (offered : List String) :
    (mimeToRdpFormats offered).find? underZero =
      (offered.find? registersName).bind fun mime => (addMime [] mime).find? underZero := by
  rw [mimeToRdpFormats, find?_foldl_addMime]
  rfl

/-- **A file list is found again** exactly if no other type with a name comes before it. -/
theorem advertisedName_zero_iff (offered : List String) :
    advertisedName (mimeToRdpFormats offered) 0 = some "FileGroupDescriptorW" ↔
      ∃ mime, offered.find? registersName = some mime ∧ isFileMime mime = true := by
  have hzero : (fun f : ClipboardFormat => decide (f.id = 0) || (decide ((0 : UInt32) = 0) &&
      f.name.isSome)) = underZero := by
    funext f
    rw [underZero, decide_eq_true rfl, Bool.true_and]
  rw [advertisedName, hzero, find?_mimeToRdpFormats]
  cases hfind : offered.find? registersName with
  | none => simp
  | some mime =>
    have hnamed := List.find?_some hfind
    simp only [registersName, decide_eq_true_eq, List.mem_cons, List.not_mem_nil, or_false]
      at hnamed
    simp only [Option.bind_some, Option.some.injEq, exists_eq_left']
    rcases hnamed with rfl | rfl | rfl | rfl | rfl | rfl | rfl | rfl | rfl <;> decide

/-! ### What can be served -/

/-- The offers the two tables agree on. Each condition is about what the configuration lets through
of the offer (`kept`), and asks for the type it is going to be read as. -/
structure ReadBack (config : OrchestratorConfig) (offered : List String) : Prop where
  /-- Text under a legacy name is read as plain text. -/
  text : ∀ mime ∈ offered.filter (allowsMime config), mime ∈ ["UTF8_STRING", "STRING"] →
    ∃ m ∈ offered, mimeBase m = "text/plain"
  richText : "application/rtf" ∈ offered.filter (allowsMime config) →
    ∃ m ∈ offered, mimeBase m = "text/rtf"
  /-- Bitmaps are read as PNG. -/
  bitmap : ∀ mime ∈ offered.filter (allowsMime config),
    mime ∈ ["image/jpeg", "image/jpg", "image/bmp", "image/x-bmp"] → "image/png" ∈ offered
  jpeg : "image/jpg" ∈ offered.filter (allowsMime config) → "image/jpeg" ∈ offered
  audio : "audio/x-wav" ∈ offered.filter (allowsMime config) → "audio/wav" ∈ offered
  /-- No type registered under another name comes before a file list. -/
  files : ∀ mime ∈ offered.filter (allowsMime config), isFileMime mime = true →
    ∃ first, (offered.filter (allowsMime config)).find? registersName = some first ∧
      isFileMime first = true

theorem id_eq_zero_of_name {offered : List String} {f : ClipboardFormat}
    (h : f ∈ mimeToRdpFormats offered) (hname : f.name = some "FileGroupDescriptorW") :
    f.id = 0 := by
  obtain ⟨mime, -, hf⟩ := mem_mimeToRdpFormats h
  clear h
  revert hname
  unfold addMime at hf
  split at hf
  case h_18 => exact absurd hf List.not_mem_nil
  all_goals
    revert f
    decide

theorem advertisedName_ne {offered : List String} {id : UInt32} (hid : id ≠ 0) :
    advertisedName (mimeToRdpFormats offered) id ≠ some "FileGroupDescriptorW" := by
  intro h
  obtain ⟨f, hfind, hname⟩ := Option.bind_eq_some_iff.mp h
  have hmatch := List.find?_some hfind
  have hf : f.id = id := by simpa [hid] using hmatch
  exact hid (hf ▸ id_eq_zero_of_name (List.mem_of_find?_eq_some hfind) hname)

section Main

variable {lib : Libraries} {o : Orchestrator} {config : OrchestratorConfig}
  {kept offered : List String}

/-- Everything advertised can be served exactly if every type behind it can be, and the file list
is found. -/
theorem servable_iff_readTypes (hkept : kept ⊆ offered)
    (hadvertised : o.localAdvertisedFormats = mimeToRdpFormats kept) :
    (∀ f ∈ mimeToRdpFormats kept, Servable lib o offered f.id) ↔
      (∀ mime ∈ kept, ∀ target ∈ readTypes mime, (findMimeMatch target offered).isSome = true) ∧
        ∀ mime ∈ kept, isFileMime mime = true →
          ∃ first, kept.find? registersName = some first ∧ isFileMime first = true := by
  have hread : ∀ mime target, target ∈ readTypes mime → target ∉ fileListTypes := by
    intro mime target h
    unfold readTypes at h
    split at h
    case h_16 => exact absurd h List.not_mem_nil
    all_goals
      revert target
      decide
  constructor
  · intro h
    constructor
    · intro mime hmime target htarget
      obtain ⟨f, hf, hid⟩ :=
        exists_mem_mimeToRdpFormats hmime fun formats => exists_mem_addMime formats htarget
      have hne : f.id ≠ 0 := by
        intro hzero
        rw [hzero, show rdpFormatToMime 0 = none by decide] at hid
        cases hid
      refine (servable_iff ?_ hid (hread mime target htarget)).mp (h f hf)
      rw [hadvertised]
      exact advertisedName_ne hne
    · intro mime hmime hfile
      rw [← advertisedName_zero_iff, ← hadvertised]
      obtain ⟨f, hf, hlist⟩ :=
        exists_mem_mimeToRdpFormats hmime fun formats => exists_fileList_mem_addMime formats hfile
      have hzero := id_eq_zero_of_name hf hlist
      by_contra hname
      have hserved := h f hf
      rw [hzero] at hserved
      exact not_servable hname (by decide) hserved
  · rintro ⟨htypes, hfiles⟩ f hf
    obtain ⟨mime, hmime, hadd⟩ := mem_mimeToRdpFormats hf
    rcases readTypes_of_mem_addMime hadd with ⟨hfile, hzero⟩ | ⟨hne, target, htarget, hid⟩
    · refine servable_of_fileList ?_ ?_ (hkept hmime)
      · rw [hzero, hadvertised]
        exact (advertisedName_zero_iff kept).mpr (hfiles mime hmime hfile)
      · simp only [isFileMime, Bool.or_eq_true, decide_eq_true_eq] at hfile
        rcases hfile with rfl | rfl <;> decide
    · refine (servable_iff ?_ hid (hread mime target htarget)).mpr
        (htypes mime hmime target htarget)
      rw [hadvertised]
      exact advertisedName_ne hne

theorem findMimeMatch_plain_iff (offered : List String) :
    (findMimeMatch "text/plain;charset=utf-8" offered).isSome = true ↔
      ∃ m ∈ offered, mimeBase m = "text/plain" :=
  findMimeMatch_text (by decide) (by decide)

theorem findMimeMatch_rtf_iff (offered : List String) :
    (findMimeMatch "text/rtf" offered).isSome = true ↔ ∃ m ∈ offered, mimeBase m = "text/rtf" :=
  findMimeMatch_text (by decide) (by decide)

/-- Under the conditions of `ReadBack` every type that a format is read back as is found. -/
theorem ReadBack.findMimeMatch_isSome {config : OrchestratorConfig} {offered : List String}
    (h : ReadBack config offered) {mime target : String}
    (hmime : mime ∈ offered.filter (allowsMime config)) (htarget : target ∈ readTypes mime) :
    (findMimeMatch target offered).isSome = true := by
  have hoffered := (List.mem_filter.mp hmime).1
  have hsame : ∀ t, t ∈ offered → (findMimeMatch t offered).isSome = true :=
    fun t ht => Clipboard.findMimeMatch_isSome.mpr (.inl ht)
  unfold readTypes at htarget
  split at htarget
  case h_16 => exact absurd htarget List.not_mem_nil
  case h_9 =>
    rcases List.mem_cons.mp htarget with rfl | htarget
    · exact hsame _ hoffered
    · rw [List.mem_singleton.mp htarget]
      exact hsame _ (h.bitmap _ hmime (by decide))
  case h_10 =>
    rcases List.mem_cons.mp htarget with rfl | htarget
    · exact hsame _ (h.jpeg hmime)
    · rw [List.mem_singleton.mp htarget]
      exact hsame _ (h.bitmap _ hmime (by decide))
  all_goals rw [List.mem_singleton.mp htarget]
  case h_1 => exact (findMimeMatch_plain_iff offered).mpr ⟨_, hoffered, by decide⟩
  case h_3 | h_4 => exact (findMimeMatch_plain_iff offered).mpr (h.text _ hmime (by decide))
  case h_7 => exact (findMimeMatch_rtf_iff offered).mpr (h.richText hmime)
  case h_12 | h_13 => exact hsame _ (h.bitmap _ hmime (by decide))
  case h_15 => exact hsame _ (h.audio hmime)
  all_goals exact hsame _ hoffered

/-- The types behind an offer can be served exactly if the conditions of `ReadBack` hold. -/
theorem readTypes_iff_readBack (config : OrchestratorConfig) (offered : List String) :
    ((∀ mime ∈ offered.filter (allowsMime config), ∀ target ∈ readTypes mime,
        (findMimeMatch target offered).isSome = true) ∧
      ∀ mime ∈ offered.filter (allowsMime config), isFileMime mime = true →
        ∃ first, (offered.filter (allowsMime config)).find? registersName = some first ∧
          isFileMime first = true) ↔
      ReadBack config offered := by
  have hexact : ∀ target, startsWith "text/" target = false →
      ((findMimeMatch target offered).isSome = true ↔ target ∈ offered) :=
    fun target htext => findMimeMatch_exact htext
  constructor
  · rintro ⟨htypes, hfiles⟩
    refine ⟨?_, ?_, ?_, ?_, ?_, hfiles⟩
    · intro mime hmime hlegacy
      refine (findMimeMatch_plain_iff offered).mp (htypes mime hmime _ ?_)
      simp only [List.mem_cons, List.not_mem_nil, or_false] at hlegacy
      rcases hlegacy with rfl | rfl <;> decide
    · intro hmime
      exact (findMimeMatch_rtf_iff offered).mp (htypes _ hmime _ (by decide))
    · intro mime hmime hbitmap
      refine (hexact _ (by decide)).mp (htypes mime hmime _ ?_)
      simp only [List.mem_cons, List.not_mem_nil, or_false] at hbitmap
      rcases hbitmap with rfl | rfl | rfl | rfl <;> decide
    · intro hmime
      exact (hexact _ (by decide)).mp (htypes _ hmime _ (by decide))
    · intro hmime
      exact (hexact _ (by decide)).mp (htypes _ hmime _ (by decide))
  · intro h
    exact ⟨fun mime hmime target htarget => h.findMimeMatch_isSome hmime htarget, h.files⟩

/-- **Everything advertised can be served exactly for the offers the two tables agree on.** -/
theorem advertised_servable_iff {env : Env} {force : Bool} {formats : List ClipboardFormat}
    (hsent : .toClient (.sendInitiateCopy formats) ∈
      (respond lib o (.event env (.portalFormatsAvailable offered force))).out) :
    (∀ f ∈ formats, Servable lib
      (respond lib o (.event env (.portalFormatsAvailable offered force))).orch offered f.id) ↔
        ReadBack o.config offered := by
  have hcases := respond_portalFormatsAvailable
    (rfl : respond lib o (.event env (.portalFormatsAvailable offered force)) = _)
  rcases hcases with ⟨-, hnone⟩ | ⟨hadvertised, hout⟩
  · rw [hnone] at hsent
    exact absurd hsent List.not_mem_nil
  · have hformats : formats = mimeToRdpFormats (offered.filter (allowsMime o.config)) := by
      have heq := hout _ hsent
      rw [hadvertised] at heq
      injection heq with heq
      injection heq
    rw [hformats, servable_iff_readTypes (List.filter_subset_self _) hadvertised,
      readTypes_iff_readBack]

end Main

/-! ### Two offers -/

/-- What a file manager offers. -/
def copiedFiles : List String :=
  ["x-special/gnome-copied-files", "text/uri-list", "text/plain;charset=utf-8", "UTF8_STRING"]

/-- Nothing was announced. -/
def unannounced : Orchestrator := .new sampleConfig "/home/user/Downloads"

/-- The state after an offer was announced. -/
def announced (offered : List String) : Session :=
  respond sampleLibraries unannounced (.event sampleEnv (.portalFormatsAvailable offered true))

theorem copiedFiles_servable :
    ReadBack sampleConfig copiedFiles ∧ ∀ f ∈ mimeToRdpFormats copiedFiles,
      Servable sampleLibraries (announced copiedFiles).orch copiedFiles f.id := by
  have hread : ReadBack sampleConfig copiedFiles :=
    ⟨by decide +kernel, by decide +kernel, by decide +kernel, by decide +kernel, by decide +kernel,
      fun _ _ _ => ⟨"x-special/gnome-copied-files", by decide +kernel, by decide⟩⟩
  have hsent : .toClient (.sendInitiateCopy (mimeToRdpFormats copiedFiles)) ∈
      (announced copiedFiles).out := by decide +kernel
  exact ⟨hread, (advertised_servable_iff hsent).mpr hread⟩

/-- A picture offered as JPEG advertises a bitmap, and nothing offered is read for that. -/
theorem jpeg_bitmap_not_servable :
    .toClient (.sendInitiateCopy [.withName cfJpeg "JFIF", .new cfDib]) ∈
        (announced ["image/jpeg"]).out ∧
      ¬ Servable sampleLibraries (announced ["image/jpeg"]).orch ["image/jpeg"] cfDib := by
  constructor
  · decide +kernel
  · have htarget : rdpFormatToMime cfDib = some "image/png" := by decide
    rw [servable_iff (by decide +kernel) htarget (by decide)]
    decide +kernel

end Clipboard

end Cheirizo
