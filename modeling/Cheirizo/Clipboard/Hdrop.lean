import Mathlib.Data.UInt
import Cheirizo.Clipboard.Descriptors
import Cheirizo.Clipboard.Percent

/-!
# Lists of files for Windows

`uri_list_to_hdrop` and `hdrop_to_uri_list` of `src/rdp/channels/clipboard/core/formats.rs`. The
paths of a list of file URIs are written in UTF-16 with a zero after each and one at the end, behind
a header of 20 bytes. The reader follows the offset in the header and stops at the first empty path.

## Main definitions

* `FormatConverter.uriListToHdrop`, `FormatConverter.hdropToUriList`
* `zeroTerminated` — how the reader splits

## Main results

* `zeroTerminated_flatMap` — what is terminated is split
* `hdrop_roundTrip` — the round trip
-/

namespace Cheirizo

namespace Clipboard

open Unicode

/-- `Vec::join`. -/
def joinWith (separator : List Char) (parts : List (List Char)) : List Char :=
  (List.intersperse separator parts).flatten

namespace Formats

/-- A path as a URI. -/
def fileUri (path : List Char) : List Char := "file://".toList ++ percentEncode path

end Formats

section Terminators

variable {α : Type} [Zero α] [DecidableEq α]

/-- The runs up to a zero, as far as the first empty one. The last run may lack its zero. -/
def zeroTerminated : List α → List α → List (List α)
  | run, [] => if run = [] then [] else [run]
  | run, x :: xs =>
    if x = 0 then if run = [] then [] else run :: zeroTerminated [] xs
    else zeroTerminated (run ++ [x]) xs

end Terminators

namespace FormatConverter

variable (converter : FormatConverter)

/-- The `DROPFILES` structure: the offset of the paths, a point, two flags. -/
def dropFiles : List UInt8 :=
  natToLe 4 20 ++ natToLe 4 0 ++ natToLe 4 0 ++ natToLe 4 0 ++ natToLe 4 1

/-- A path in UTF-16, and its terminator. -/
def hdropEntry (path : List Char) : List UInt8 := (encodeUtf16 path).flatMap u16ToLe ++ [0, 0]

/-- Lines that are no URI of a file are left out. What is behind the prefix is a path as it
stands. -/
def uriListToHdrop (uriList : List Char) : Except ConversionError (List UInt8) :=
  if converter.maxSize < byteLen uriList then
    .error (.dataSizeExceeded (byteLen uriList) converter.maxSize)
  else
    let paths := ((Text.lines uriList).filter fun line => !"#".toList.isPrefixOf line).filterMap
      (Text.stripPrefix "file://".toList)
    if paths = [] then .error (.formatConversion "no valid file URIs")
    else
      match paths.mapM Formats.percentDecode with
      | .error e => .error e
      | .ok decoded =>
        let result := dropFiles ++ decoded.flatMap hdropEntry ++ [0, 0]
        if converter.maxSize < result.length then
          .error (.dataSizeExceeded result.length converter.maxSize)
        else .ok result

/-- A list of paths, in UTF-16 or not, as URIs. -/
def hdropToUriList (data : List UInt8) : Except ConversionError (List Char) :=
  if converter.maxSize < data.length then
    .error (.dataSizeExceeded data.length converter.maxSize)
  else if data.length < 20 then .error (.formatConversion "HDROP too small")
  else
    let pFiles := FileDescriptor.readLe data 0 4
    let fWide := FileDescriptor.readLe data 16 4 ≠ 0
    if pFiles < 20 ∨ data.length ≤ pFiles ∨ fWide ∧ pFiles % 2 ≠ 0 then
      .error (.formatConversion "invalid pFiles offset")
    else
      let fileData := data.drop pFiles
      let paths :=
        if fWide then (zeroTerminated [] (unitsOfLe fileData)).filterMap decodeUtf16
        -- ANSI paths are read as UTF-8.
        else (zeroTerminated [] fileData).filterMap decodeUtf8
      .ok (joinWith ['\r', '\n'] (paths.map Formats.fileUri))

end FormatConverter

/-! ### Terminators -/

section Terminators

variable {α : Type} [Zero α] [DecidableEq α]

theorem zeroTerminated_append {xs : List α} (h : 0 ∉ xs) (run rest : List α) :
    zeroTerminated run (xs ++ rest) = zeroTerminated (run ++ xs) rest := by
  induction xs generalizing run with
  | nil => rw [List.append_nil, List.nil_append]
  | cons x xs ih =>
    obtain ⟨hx, hxs⟩ : ¬ 0 = x ∧ 0 ∉ xs := by simpa using h
    rw [List.cons_append, zeroTerminated, if_neg (Ne.symm hx), ih hxs, List.append_assoc,
      List.singleton_append]

/-- **What is terminated is split**: runs that are not empty and have no zero of their own. -/
theorem zeroTerminated_flatMap {runs : List (List α)} (h : ∀ run ∈ runs, run ≠ [] ∧ 0 ∉ run)
    (rest : List α) :
    zeroTerminated [] (runs.flatMap (fun run => run ++ [0]) ++ 0 :: rest) = runs := by
  induction runs with
  | nil => rw [List.flatMap_nil, List.nil_append, zeroTerminated, if_pos rfl, if_pos rfl]
  | cons run runs ih =>
    obtain ⟨hne, hzero⟩ := h run List.mem_cons_self
    rw [List.flatMap_cons, List.append_assoc, List.append_assoc, zeroTerminated_append hzero,
      List.nil_append, List.singleton_append, zeroTerminated, if_pos rfl, if_neg hne,
      ih fun r hr => h r (List.mem_cons_of_mem _ hr)]

end Terminators

/-! ### File URIs, one a line -/

namespace Formats

/-- What is encoded has neither spaces nor control characters. -/
theorem mem_percentEncode {c : Char} {path : List Char} (h : c ∈ percentEncode path) :
    c ≠ '\n' ∧ c ≠ '\r' := by
  obtain ⟨b, -, hc⟩ := List.mem_flatMap.mp h
  have hall : ((percentEncodeByte b).all fun c => decide (c ≠ '\n' ∧ c ≠ '\r')) = true :=
    forall_byte (P := fun b =>
      ((percentEncodeByte b).all fun c => decide (c ≠ '\n' ∧ c ≠ '\r')) = true)
      (by decide +kernel) b
  exact of_decide_eq_true (List.all_eq_true.mp hall c hc)

theorem mem_fileUri {c : Char} {path : List Char} (h : c ∈ fileUri path) : c ≠ '\n' ∧ c ≠ '\r' := by
  obtain h | h := List.mem_append.mp h
  · have hall : ("file://".toList.all fun c => decide (c ≠ '\n' ∧ c ≠ '\r')) = true := rfl
    exact of_decide_eq_true (List.all_eq_true.mp hall c h)
  · exact mem_percentEncode h

theorem stripPrefix_fileUri (path : List Char) :
    Text.stripPrefix "file://".toList (fileUri path) = some (percentEncode path) := rfl

end Formats

theorem joinWith_cons_cons (separator part next : List Char) (parts : List (List Char)) :
    joinWith separator (part :: next :: parts) =
      part ++ (separator ++ joinWith separator (next :: parts)) := by
  rw [joinWith, List.intersperse_cons_cons, List.flatten_cons, List.flatten_cons, joinWith]

theorem stripCarriageReturn_of_notMem {line : List Char} (h : '\r' ∉ line) :
    Text.stripCarriageReturn line = line := by
  refine if_neg fun hlast => h ?_
  exact List.mem_of_getLast? hlast

/-- Lines that are joined by line breaks are the lines of the text. -/
theorem lines_joinWith {eol : List Char} (heol : eol = ['\n'] ∨ eol = ['\r', '\n'])
    {parts : List (List Char)} (h : ∀ part ∈ parts, part ≠ [] ∧ '\n' ∉ part ∧ '\r' ∉ part) :
    Text.lines (joinWith eol parts) = parts := by
  match parts with
  | [] => rfl
  | [part] =>
    obtain ⟨hne, hlf, -⟩ := h part List.mem_cons_self
    have hsplit : part.splitOnP (· = '\n') = [part] :=
      List.splitOnP_eq_singleton fun c hc => decide_eq_false (ne_of_mem_of_not_mem hc hlf)
    rw [joinWith, List.intersperse_singleton, List.flatten_singleton, Text.lines, hsplit]
    simp [hne]
  | part :: next :: parts =>
    obtain ⟨-, hlf, hcr⟩ := h part List.mem_cons_self
    have hrest := lines_joinWith heol fun p hp => h p (List.mem_cons_of_mem part hp)
    rw [joinWith_cons_cons]
    obtain rfl | rfl := heol
    · rw [List.singleton_append, Text.lines_append hlf, hrest, stripCarriageReturn_of_notMem hcr]
    · have hbreak := Text.lines_append_crlf hlf (joinWith ['\r', '\n'] (next :: parts))
      rw [hrest] at hbreak
      exact hbreak

namespace FormatConverter

theorem unitsOfLe_flatMap_hdropEntry (paths : List (List Char)) (rest : List UInt8) :
    unitsOfLe (paths.flatMap hdropEntry ++ rest) =
      (paths.map encodeUtf16).flatMap (fun run => run ++ [0]) ++ unitsOfLe rest := by
  induction paths with
  | nil => rfl
  | cons path paths ih =>
    rw [List.flatMap_cons, hdropEntry, List.append_assoc, List.append_assoc, unitsOfLe_append,
      List.cons_append, List.cons_append, List.nil_append, unitsOfLe, ih, List.map_cons,
      List.flatMap_cons, List.append_assoc, List.append_assoc]
    rfl

theorem encodeUtf16_eq_nil {cs : List Char} : encodeUtf16 cs = [] ↔ cs = [] := by
  cases cs with
  | nil => exact iff_of_true rfl rfl
  | cons c cs =>
    refine iff_of_false ?_ (List.cons_ne_nil c cs)
    rw [encodeUtf16, List.flatMap_cons, encodeUtf16Char]
    split_ifs <;> exact List.cons_ne_nil _ _

theorem filterMap_decodeUtf16 (paths : List (List Char)) :
    (paths.map encodeUtf16).filterMap decodeUtf16 = paths := by
  rw [List.filterMap_map]
  refine (List.filterMap_congr fun path _ => decodeUtf16_encodeUtf16 path).trans ?_
  exact List.filterMap_some

variable {converter : FormatConverter}

/-- The reader returns the URIs of the paths that were written. -/
theorem hdropToUriList_append {paths : List (List Char)}
    (hpaths : ∀ path ∈ paths, path ≠ [] ∧ '\x00' ∉ path)
    (hsize : (dropFiles ++ paths.flatMap hdropEntry ++ [0, 0]).length ≤ converter.maxSize) :
    converter.hdropToUriList (dropFiles ++ paths.flatMap hdropEntry ++ [0, 0]) =
      .ok (joinWith ['\r', '\n'] (paths.map Formats.fileUri)) := by
  have hsplit : zeroTerminated [] (unitsOfLe (paths.flatMap hdropEntry ++ [0, 0])) =
      paths.map encodeUtf16 := by
    rw [unitsOfLe_flatMap_hdropEntry]
    refine zeroTerminated_flatMap (fun run hrun => ?_) []
    obtain ⟨path, hpath, rfl⟩ := List.mem_map.mp hrun
    obtain ⟨hne, hzero⟩ := hpaths path hpath
    refine ⟨?_, fun hmem => hzero (zero_mem_encodeUtf16.mp hmem)⟩
    exact fun hnil => hne (encodeUtf16_eq_nil.mp hnil)
  have hlength : 2 ≤ (paths.flatMap hdropEntry ++ [0, 0]).length := by
    rw [List.length_append]
    exact Nat.le_add_left _ _
  rw [List.append_assoc] at hsize ⊢
  generalize paths.flatMap hdropEntry ++ [0, 0] = files at hsize hsplit hlength ⊢
  have hlong : (dropFiles ++ files).length = 20 + files.length := List.length_append
  have hoffset : FileDescriptor.readLe (dropFiles ++ files) 0 4 = 20 := rfl
  have hwide : FileDescriptor.readLe (dropFiles ++ files) 16 4 = 1 := rfl
  have hdrop : (dropFiles ++ files).drop 20 = files := rfl
  rw [hdropToUriList, if_neg (by omega), if_neg (by omega), hoffset, hwide, if_neg (by omega),
    hdrop]
  simp only [if_pos Nat.one_ne_zero, hsplit, filterMap_decodeUtf16]

theorem mapM_eq_ok {α ε : Type} {f : α → Except ε α} {xs : List α} (h : ∀ x ∈ xs, f x = .ok x) :
    xs.mapM f = .ok xs := by
  induction xs with
  | nil => rfl
  | cons x xs ih =>
    rw [List.mapM_cons, h x List.mem_cons_self, ih fun y hy => h y (List.mem_cons_of_mem x hy)]
    rfl

theorem length_hdropEntries (paths : List (List Char)) :
    (paths.flatMap hdropEntry).length =
      (paths.map fun path => 2 * (encodeUtf16 path).length + 2).sum := by
  rw [List.length_flatMap]
  refine congrArg List.sum (List.map_congr_left fun path _ => ?_)
  rw [hdropEntry, List.length_append, List.length_flatMap]
  have hunit : ((encodeUtf16 path).map fun u => (u16ToLe u).length) =
      (encodeUtf16 path).map fun _ => 2 := rfl
  rw [hunit, List.map_const', List.sum_replicate_nat, Nat.mul_comm]
  rfl

/-- The writer takes the paths from their URIs. -/
theorem uriListToHdrop_joinWith {eol : List Char} (heol : eol = ['\n'] ∨ eol = ['\r', '\n'])
    {paths : List (List Char)} (hne : paths ≠ [])
    (huris : byteLen (joinWith eol (paths.map Formats.fileUri)) ≤ converter.maxSize)
    (hsize : (dropFiles ++ paths.flatMap hdropEntry ++ [0, 0]).length ≤ converter.maxSize) :
    converter.uriListToHdrop (joinWith eol (paths.map Formats.fileUri)) =
      .ok (dropFiles ++ paths.flatMap hdropEntry ++ [0, 0]) := by
  have hlines : Text.lines (joinWith eol (paths.map Formats.fileUri)) =
      paths.map Formats.fileUri := by
    refine lines_joinWith heol fun part hpart => ?_
    obtain ⟨path, -, rfl⟩ := List.mem_map.mp hpart
    exact ⟨List.cons_ne_nil _ _, fun h => (Formats.mem_fileUri h).1 rfl,
      fun h => (Formats.mem_fileUri h).2 rfl⟩
  have hfilter : (paths.map Formats.fileUri).filter (fun line => !"#".toList.isPrefixOf line) =
      paths.map Formats.fileUri := by
    refine List.filter_eq_self.mpr fun line hline => ?_
    obtain ⟨path, -, rfl⟩ := List.mem_map.mp hline
    rfl
  have hstrip : (paths.map Formats.fileUri).filterMap (Text.stripPrefix "file://".toList) =
      paths.map Formats.percentEncode := by
    rw [List.filterMap_map, ← List.filterMap_eq_map]
    exact List.filterMap_congr fun path _ => Formats.stripPrefix_fileUri path
  have hdecode : (paths.map Formats.percentEncode).mapM Formats.percentDecode = .ok paths := by
    rw [List.mapM_map]
    exact mapM_eq_ok fun path _ => Formats.percentDecode_percentEncode path
  rw [uriListToHdrop, if_neg (by omega), hlines, hfilter, hstrip]
  simp only [hdecode, List.map_eq_nil_iff, if_neg hne, if_neg (Nat.not_lt.mpr hsize)]

end FormatConverter

/-- **The round trip of a list of files.** Paths that are not empty and have no zero, written as
URIs on lines that end in LF or CRLF, come back as the same URIs in the same order, joined by CRLF,
if neither the list nor the data is too large. -/
theorem hdrop_roundTrip (converter : FormatConverter) {eol : List Char}
    (heol : eol = ['\n'] ∨ eol = ['\r', '\n']) {paths : List (List Char)} (hne : paths ≠ [])
    (hpaths : ∀ path ∈ paths, path ≠ [] ∧ '\x00' ∉ path)
    (huris : byteLen (joinWith eol (paths.map Formats.fileUri)) ≤ converter.maxSize)
    (hsize : 22 + (paths.map fun path => 2 * (encodeUtf16 path).length + 2).sum ≤
      converter.maxSize) :
    (converter.uriListToHdrop (joinWith eol (paths.map Formats.fileUri))).bind
        converter.hdropToUriList =
      .ok (joinWith ['\r', '\n'] (paths.map Formats.fileUri)) := by
  have hdata : (FormatConverter.dropFiles ++ paths.flatMap FormatConverter.hdropEntry ++
      [0, 0]).length ≤ converter.maxSize := by
    have hheader : FormatConverter.dropFiles.length = 20 := rfl
    rw [List.length_append, List.length_append, FormatConverter.length_hdropEntries, hheader]
    simp only [List.length_cons, List.length_nil]
    omega
  rw [FormatConverter.uriListToHdrop_joinWith heol hne huris hdata]
  exact FormatConverter.hdropToUriList_append hpaths hdata

/-- Two paths with an accent, a percent sign, a space and line breaks. -/
theorem hdrop_roundTrip_two :
    (FormatConverter.new.uriListToHdrop (joinWith ['\r', '\n']
        (["/é %41".toList, "/\r\n#".toList].map Formats.fileUri))).bind
        FormatConverter.new.hdropToUriList =
      .ok "file:///%C3%A9%20%2541\r\nfile:///%0D%0A%23".toList :=
  hdrop_roundTrip FormatConverter.new (Or.inr rfl) (List.cons_ne_nil _ _) (by decide) (by decide)
    (by decide)

end Clipboard

end Cheirizo
