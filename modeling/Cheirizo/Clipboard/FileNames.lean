import Mathlib.Data.List.DropRight
import Cheirizo.Clipboard.Files

/-!
# The names of files on the other side

What `src/rdp/channels/clipboard/core/sanitize.rs` makes of file names, in both directions. A name
is prepared first and shortened last, and shortening counts characters where the limits are in bytes
or UTF-16 units. On Linux the temporary name of a download is longer than the name by a dot on both
sides, the stream's number and `.tmp`, so a name that was shortened never has room for it. On
Windows the cut may end in a dot or a space, leave a reserved name, keep too many units, or fall
differently the second time.

## Main definitions

* `fileExtension`, `tempName`, `LinuxUsable` — names of received files
* `windowsPrepared`, `WindowsValid`, `CutsWell` — names of offered files

## Main results

* `truncateName_cases` — the three ways of shortening
* `linuxUsable_iff` — a received name has room for its temporary name, in a closed form
* `windowsStable_iff` — a name for Windows is valid and stable if and only if it is cut well
-/

namespace Cheirizo

namespace Clipboard

open Unicode

/-! ### Lengths -/

theorem length_le_byteLen (cs : List Char) : cs.length ≤ byteLen cs :=
  length_le_length_encodeUtf8 cs

theorem byteLen_take_le (n : ℕ) (cs : List Char) : byteLen (cs.take n) ≤ byteLen cs := by
  conv_rhs => rw [← List.take_append_drop n cs, byteLen_append]
  exact Nat.le_add_right _ _

/-- What is taken is all, or that many bytes at least. -/
theorem le_byteLen_take {n m : ℕ} {cs : List Char} (h : n ≤ m) (hall : n ≤ byteLen cs) :
    n ≤ byteLen (cs.take m) := by
  by_cases hlength : m ≤ cs.length
  · calc n ≤ m := h
      _ = (cs.take m).length := by rw [List.length_take, Nat.min_eq_left hlength]
      _ ≤ byteLen (cs.take m) := length_le_byteLen _
  · rwa [List.take_of_length_le (by omega)]

/-- A map to characters of the same or a shorter encoding does not lengthen a text. -/
theorem byteLen_map_le {f : Char → Char} (hf : ∀ c, (f c).utf8Size ≤ c.utf8Size) (cs : List Char) :
    byteLen (cs.map f) ≤ byteLen cs := by
  induction cs with
  | nil => exact Nat.le_refl _
  | cons c cs ih =>
    rw [List.map_cons, byteLen_cons, byteLen_cons]
    exact Nat.add_le_add (hf c) ih

/-! ### Shortening -/

/-- A name is short enough, or cut in front of its extension, or cut after 255 characters. -/
theorem truncateName_cases (name : List Char) :
    byteLen name ≤ 255 ∧ truncateName name = name ∨
      255 < byteLen name ∧
        ((∃ base ext, name = base ++ '.' :: ext ∧ '.' ∉ ext ∧ byteLen ('.' :: ext) < 254 ∧
            truncateName name = base.take (255 - byteLen ('.' :: ext)) ++ '.' :: ext) ∨
          (∀ base ext, Text.rsplitOnce ['.'] name = some (base, ext) →
            254 ≤ byteLen ('.' :: ext)) ∧ truncateName name = name.take 255) := by
  by_cases hlength : byteLen name ≤ 255
  · exact Or.inl ⟨hlength, by rw [truncateName, if_pos hlength]⟩
  · refine Or.inr ⟨by omega, ?_⟩
    rw [truncateName, if_neg hlength]
    obtain ⟨-, hnone⟩ | ⟨base, ext, rfl, hext, hsome⟩ := Text.rsplitOnce_cases '.' name
    · rw [hnone]
      exact Or.inr ⟨nofun, rfl⟩
    · simp only [hsome]
      split_ifs with hshort
      · exact Or.inl ⟨base, ext, rfl, hext, hshort, rfl⟩
      · refine Or.inr ⟨fun base' ext' h => ?_, rfl⟩
        cases h
        exact Nat.not_lt.mp hshort

theorem byteLen_truncateName_le (name : List Char) :
    byteLen (truncateName name) ≤ byteLen name := by
  obtain ⟨-, h⟩ | ⟨-, ⟨base, ext, rfl, -, -, h⟩ | ⟨-, h⟩⟩ := truncateName_cases name
  · rw [h]
  · rw [h, byteLen_append, byteLen_append]
    exact Nat.add_le_add_right (byteLen_take_le _ _) _
  · rw [h]
    exact byteLen_take_le _ _

/-- A name that is shortened still has 255 bytes. -/
theorem le_byteLen_truncateName {name : List Char} (h : 255 < byteLen name) :
    255 ≤ byteLen (truncateName name) := by
  obtain ⟨hle, -⟩ | ⟨-, ⟨base, ext, rfl, -, -, h'⟩ | ⟨-, h'⟩⟩ := truncateName_cases name
  · omega
  · rw [byteLen_append] at h
    have hbase : 255 - byteLen ('.' :: ext) ≤
        byteLen (base.take (255 - byteLen ('.' :: ext))) :=
      le_byteLen_take (Nat.le_refl _) (by omega)
    rw [h', byteLen_append]
    omega
  · rw [h']
    exact le_byteLen_take (Nat.le_refl _) (by omega)

/-! ### Received files -/

/-- What a character of a client's name becomes. -/
def linuxChar (c : Char) : Char := if c = '/' || c = '\x00' || c = '\\' then '_' else c

/-- The part of a name from its last dot on. -/
def fileExtension (name : List Char) : Option (List Char) :=
  if name = ['.'] ∨ name = ['.', '.'] then none
  else (Text.rsplitOnce ['.'] name).map fun parts => '.' :: parts.2

/-- The name of the temporary file of a download. -/
def tempName (filename : List Char) (streamId : UInt32) : List Char :=
  '.' :: (filename ++ '.' :: (Nat.toDigits 10 streamId.toNat ++ ".tmp".toList))

theorem tempPath_eq (s : FileTransferState) (filename : List Char) (streamId : UInt32) :
    s.tempPath filename streamId =
      joinPath s.downloadDir (String.ofList (tempName filename streamId)) := by
  rw [FileTransferState.tempPath]
  congr 1
  rw [← String.toList_inj]
  simp [tempName]

/-- The name and the temporary name fit into 255 bytes, and the name keeps an extension of less than
254 bytes. -/
structure LinuxUsable (filename : List Char) (streamId : UInt32) : Prop where
  name : byteLen (sanitizeFilenameForLinux filename) ≤ 255
  temp : byteLen (tempName (sanitizeFilenameForLinux filename) streamId) ≤ 255
  extension : ∀ ext, fileExtension filename = some ext → byteLen ext < 254 →
    ext.map linuxChar <:+ sanitizeFilenameForLinux filename

/-- The name before it is shortened. -/
def linuxPrepared (filename : List Char) : List Char :=
  if (filename.map linuxChar).head? = some '-' then '_' :: filename.map linuxChar
  else filename.map linuxChar

theorem sanitizeFilenameForLinux_eq (filename : List Char) :
    sanitizeFilenameForLinux filename =
      if linuxPrepared filename = [] ∨ linuxPrepared filename = ['.'] ∨
          linuxPrepared filename = ['.', '.'] then "_unnamed_".toList
      else truncateName (linuxPrepared filename) :=
  rfl

theorem linuxChar_cases (c : Char) :
    linuxChar c = c ∨ linuxChar c = '_' ∧ (c = '/' ∨ c = '\x00' ∨ c = '\\') := by
  rw [linuxChar]
  split_ifs with h
  · exact Or.inr ⟨rfl, by simpa [or_assoc] using h⟩
  · exact Or.inl rfl

theorem linuxChar_eq_iff {c d : Char} (hd : d ≠ '_' ∧ d ≠ '/' ∧ d ≠ '\x00' ∧ d ≠ '\\') :
    linuxChar c = d ↔ c = d := by
  obtain h | ⟨h, hc⟩ := linuxChar_cases c
  · rw [h]
  · rw [h]
    refine iff_of_false (fun h => hd.1 h.symm) ?_
    rintro rfl
    obtain rfl | rfl | rfl := hc
    · exact hd.2.1 rfl
    · exact hd.2.2.1 rfl
    · exact hd.2.2.2 rfl

theorem utf8Size_linuxChar (c : Char) : (linuxChar c).utf8Size = c.utf8Size := by
  obtain h | ⟨h, rfl | rfl | rfl⟩ := linuxChar_cases c
  · rw [h]
  · rfl
  · rfl
  · rfl

theorem byteLen_map_linuxChar (cs : List Char) : byteLen (cs.map linuxChar) = byteLen cs := by
  induction cs with
  | nil => rfl
  | cons c cs ih => rw [List.map_cons, byteLen_cons, byteLen_cons, utf8Size_linuxChar, ih]

theorem dot_mem_map_linuxChar {cs : List Char} : '.' ∈ cs.map linuxChar ↔ '.' ∈ cs := by
  simp only [List.mem_map, linuxChar_eq_iff (d := '.') (by decide), exists_eq_right]

theorem head?_map_linuxChar (cs : List Char) :
    (cs.map linuxChar).head? = some '-' ↔ cs.head? = some '-' := by
  cases cs with
  | nil => exact Iff.rfl
  | cons c cs =>
    rw [List.map_cons, List.head?_cons, List.head?_cons, Option.some.injEq, Option.some.injEq,
      linuxChar_eq_iff (by decide)]

theorem byteLen_linuxPrepared (filename : List Char) :
    byteLen (linuxPrepared filename) =
      byteLen filename + if filename.head? = some '-' then 1 else 0 := by
  rw [linuxPrepared]
  simp only [head?_map_linuxChar]
  split_ifs
  · rw [byteLen_cons, byteLen_map_linuxChar, Nat.add_comm]
    rfl
  · rw [byteLen_map_linuxChar, Nat.add_zero]

/-- Only the names that stand for directories become unnamed, and the empty one. -/
theorem linuxPrepared_unnamed {filename : List Char} (h : linuxPrepared filename = [] ∨
    linuxPrepared filename = ['.'] ∨ linuxPrepared filename = ['.', '.']) :
    filename = [] ∨ filename = ['.'] ∨ filename = ['.', '.'] := by
  have hdot : ∀ c, linuxChar c = '.' ↔ c = '.' := fun c => linuxChar_eq_iff (by decide)
  rw [linuxPrepared] at h
  split_ifs at h
  · simp at h
  · obtain h | h | h := h
    · exact Or.inl (List.map_eq_nil_iff.mp h)
    · obtain ⟨c, rfl, hc⟩ := List.map_eq_singleton_iff.mp h
      exact Or.inr (Or.inl (by rw [(hdot c).mp hc]))
    · obtain ⟨c, cs, rfl, hc, hcs⟩ := List.map_eq_cons_iff.mp h
      obtain ⟨d, rfl, hd⟩ := List.map_eq_singleton_iff.mp hcs
      exact Or.inr (Or.inr (by rw [(hdot c).mp hc, (hdot d).mp hd]))

theorem byteLen_tempName (filename : List Char) (streamId : UInt32) :
    byteLen (tempName filename streamId) =
      byteLen filename + (Nat.toDigits 10 streamId.toNat).length + 6 := by
  have hdigits : byteLen (Nat.toDigits 10 streamId.toNat) =
      (Nat.toDigits 10 streamId.toNat).length := by
    refine byteLen_of_ascii fun c hc => ?_
    have hdigit := Nat.isDigit_of_mem_toDigits (by decide) (by decide) hc
    exact lt_of_le_of_lt (Char.isDigit_iff_toNat.mp hdigit).2 (by decide)
  have hrest : byteLen ".tmp".toList = 4 ∧ '.'.utf8Size = 1 := by decide
  rw [tempName, byteLen_cons, byteLen_append, byteLen_cons, byteLen_append, hdigits, hrest.1,
    hrest.2]
  omega

/-- A short extension survives. -/
theorem fileExtension_suffix {filename ext : List Char}
    (hname : ¬ (linuxPrepared filename = [] ∨ linuxPrepared filename = ['.'] ∨
      linuxPrepared filename = ['.', '.']))
    (hext : fileExtension filename = some ext) (hshort : byteLen ext < 254) :
    ext.map linuxChar <:+ sanitizeFilenameForLinux filename := by
  rw [fileExtension] at hext
  split_ifs at hext
  obtain ⟨-, hnone⟩ | ⟨base, after, rfl, hafter, hsome⟩ := Text.rsplitOnce_cases '.' filename
  · rw [hnone] at hext
    cases hext
  · rw [hsome] at hext
    cases hext
    change byteLen ('.' :: after) < 254 at hshort
    have hmap : ('.' :: after).map linuxChar = '.' :: after.map linuxChar := rfl
    have hdot : '.' ∉ after.map linuxChar := dot_mem_map_linuxChar.not.mpr hafter
    obtain ⟨base', hprepared⟩ : ∃ base', linuxPrepared (base ++ '.' :: after) =
        base' ++ '.' :: after.map linuxChar := by
      rw [linuxPrepared, List.map_append, hmap]
      split_ifs
      · exact ⟨'_' :: base.map linuxChar, rfl⟩
      · exact ⟨base.map linuxChar, rfl⟩
    have hsplit := Text.rsplitOnce_append hdot base'
    rw [sanitizeFilenameForLinux_eq, if_neg hname, hprepared, hmap]
    obtain ⟨-, h⟩ | ⟨-, ⟨base₂, ext₂, heq, hext₂, -, h⟩ | ⟨hlong, -⟩⟩ :=
      truncateName_cases (base' ++ '.' :: after.map linuxChar)
    · rw [h]
      exact List.suffix_append _ _
    · rw [heq, Text.rsplitOnce_append hext₂] at hsplit
      cases hsplit
      rw [h]
      exact List.suffix_append _ _
    · have hle := hlong _ _ hsplit
      rw [← hmap, byteLen_map_linuxChar] at hle
      omega

/-- **Room for the temporary name.** A client's name is usable if and only if it leaves room for the
dots, the stream's digits and `.tmp`. -/
theorem linuxUsable_iff (filename : List Char) (streamId : UInt32) :
    LinuxUsable filename streamId ↔
      byteLen filename + (if filename.head? = some '-' then 1 else 0) +
        (Nat.toDigits 10 streamId.toNat).length + 6 ≤ 255 := by
  have hlength := byteLen_linuxPrepared filename
  have htemp := byteLen_tempName (sanitizeFilenameForLinux filename) streamId
  by_cases hname : linuxPrepared filename = [] ∨ linuxPrepared filename = ['.'] ∨
      linuxPrepared filename = ['.', '.']
  · have hunnamed : sanitizeFilenameForLinux filename = "_unnamed_".toList := by
      rw [sanitizeFilenameForLinux_eq, if_pos hname]
    have hdigits : (Nat.toDigits 10 streamId.toNat).length ≤ 10 := by
      have hlt := streamId.toNat_lt
      exact (Nat.length_toDigits_le_iff (by decide) (by decide)).mpr (by omega)
    have hnine : byteLen "_unnamed_".toList = 9 := by decide
    rw [hunnamed, hnine] at htemp
    have hshort : byteLen filename ≤ 2 ∧ filename.head? ≠ some '-' ∧
        fileExtension filename = none := by
      obtain rfl | rfl | rfl := linuxPrepared_unnamed hname <;> decide
    rw [if_neg hshort.2.1]
    refine iff_of_true ⟨by rw [hunnamed, hnine]; decide, by rw [hunnamed]; omega, ?_⟩ (by omega)
    intro ext hext
    rw [hshort.2.2] at hext
    cases hext
  · have hsanitize : sanitizeFilenameForLinux filename = truncateName (linuxPrepared filename) := by
      rw [sanitizeFilenameForLinux_eq, if_neg hname]
    rw [← hlength]
    rw [hsanitize] at htemp
    by_cases hfits : byteLen (linuxPrepared filename) ≤ 255
    · rw [truncateName, if_pos hfits] at htemp hsanitize
      refine ⟨fun h => ?_, fun h => ⟨by rwa [hsanitize], by rw [hsanitize]; omega, ?_⟩⟩
      · have hle := h.temp
        rw [hsanitize] at hle
        omega
      · exact fun ext hext hshort => fileExtension_suffix hname hext hshort
    · have hle := le_byteLen_truncateName (Nat.not_le.mp hfits)
      refine iff_of_false (fun h => ?_) (by omega)
      have htoo := h.temp
      rw [hsanitize] at htoo
      omega

/-- A name of 250 bytes has no room for its temporary name. -/
theorem longName_unusable : ¬ LinuxUsable (List.replicate 250 'a') 1 := by
  intro h
  have hlength :
      byteLen (tempName (sanitizeFilenameForLinux (List.replicate 250 'a')) 1) = 257 := by
    decide +kernel
  have htemp := h.temp
  omega

/-! ### Offered files -/

/-- What a character of a local name becomes. -/
def windowsChar (c : Char) : Char :=
  if windowsInvalidChars.contains c || isControl c then '_' else c

/-- The part in front of the first dot names a device. -/
def isReserved (name : List Char) : Bool :=
  (windowsReservedNames.map String.toList).contains (upperBase name)

/-- The name before it is shortened. -/
def windowsPrepared (filename : List Char) : List Char :=
  let sanitized := trimDotsAndSpaces (filename.map windowsChar)
  if sanitized.isEmpty then "_unnamed_".toList
  else if isReserved sanitized then '_' :: sanitized
  else sanitized

theorem sanitizeFilenameForWindows_eq (filename : List Char) :
    sanitizeFilenameForWindows filename = truncateName (windowsPrepared filename) := by
  have hunnamed : truncateName "_unnamed_".toList = "_unnamed_".toList := by decide
  rw [windowsPrepared]
  show (if (trimDotsAndSpaces (filename.map windowsChar)).isEmpty then _ else
    if isReserved (trimDotsAndSpaces (filename.map windowsChar)) then _ else _) = _
  split_ifs
  · exact hunnamed.symm
  · rfl
  · rfl

/-- A name that Windows takes, but for its length. -/
structure WindowsName (name : List Char) : Prop where
  nonempty : name ≠ []
  chars : ∀ c ∈ name, c ∉ windowsInvalidChars ∧ isControl c = false
  trailing : name.getLast? ≠ some '.' ∧ name.getLast? ≠ some ' '
  base : isReserved name = false

/-- The sanitized name is one that Windows takes, of at most 255 UTF-16 units, and sanitizing it
again changes nothing. -/
structure WindowsStable (filename : List Char) : Prop where
  name : WindowsName (sanitizeFilenameForWindows filename)
  units : (encodeUtf16 (sanitizeFilenameForWindows filename)).length ≤ 255
  stable : sanitizeFilenameForWindows (sanitizeFilenameForWindows filename) =
    sanitizeFilenameForWindows filename

theorem windowsChar_valid (c : Char) :
    windowsChar c ∉ windowsInvalidChars ∧ isControl (windowsChar c) = false := by
  rw [windowsChar]
  split_ifs with h
  · decide
  · rw [Bool.not_eq_true, Bool.or_eq_false_iff] at h
    exact ⟨by simpa using h.1, h.2⟩

theorem windowsChar_of_valid {c : Char} (h : c ∉ windowsInvalidChars ∧ isControl c = false) :
    windowsChar c = c := by
  rw [windowsChar, if_neg]
  rw [Bool.not_eq_true, Bool.or_eq_false_iff]
  exact ⟨by simpa using h.1, h.2⟩

/-- Trimming leaves what ends in neither a dot nor a space. -/
theorem trimDotsAndSpaces_eq_self_iff {name : List Char} :
    trimDotsAndSpaces name = name ↔ name.getLast? ≠ some '.' ∧ name.getLast? ≠ some ' ' := by
  have hdrop : trimDotsAndSpaces name = name.rdropWhile fun c => c = '.' || c = ' ' := rfl
  rw [hdrop, List.rdropWhile_eq_self_iff]
  obtain rfl | ⟨front, c, rfl⟩ := List.eq_nil_or_concat name
  · simp
  · simp [not_or]

theorem trailing_trimDotsAndSpaces (name : List Char) :
    (trimDotsAndSpaces name).getLast? ≠ some '.' ∧ (trimDotsAndSpaces name).getLast? ≠ some ' ' :=
  trimDotsAndSpaces_eq_self_iff.mp (List.rdropWhile_idempotent _ name)

/-- No reserved name starts with an underscore. -/
theorem isReserved_underscore (name : List Char) : isReserved ('_' :: name) = false := by
  have hbase : upperBase ('_' :: name) = '_' :: upperBase name := by
    rw [upperBase, List.takeWhile_cons_of_pos (by decide)]
    rfl
  have hreserved : ∀ r ∈ windowsReservedNames.map String.toList, r.head? ≠ some '_' := by decide
  rw [isReserved, hbase, ← Bool.not_eq_true, List.contains_iff_mem]
  exact fun hmem => hreserved _ hmem rfl

theorem windowsName_windowsPrepared (filename : List Char) :
    WindowsName (windowsPrepared filename) := by
  have htrailing := trailing_trimDotsAndSpaces (filename.map windowsChar)
  have hchars : ∀ c ∈ trimDotsAndSpaces (filename.map windowsChar),
      c ∉ windowsInvalidChars ∧ isControl c = false := by
    intro c hc
    have hmem := (List.rdropWhile_prefix _ (filename.map windowsChar)).subset hc
    obtain ⟨d, -, rfl⟩ := List.mem_map.mp hmem
    exact windowsChar_valid d
  rw [windowsPrepared]
  generalize trimDotsAndSpaces (filename.map windowsChar) = sanitized at *
  split_ifs with hempty hreserved
  · have hall : ("_unnamed_".toList.all fun c =>
        !windowsInvalidChars.contains c && !isControl c) = true := by decide
    refine ⟨by decide, fun c hc => ?_, by decide, by decide⟩
    simpa using List.all_eq_true.mp hall c hc
  · obtain ⟨c, cs, rfl⟩ := List.exists_cons_of_ne_nil (by simpa using hempty)
    refine ⟨by simp, ?_, ?_, isReserved_underscore _⟩
    · rintro d (_ | ⟨_, hd⟩)
      · decide
      · exact hchars d hd
    · rwa [List.getLast?_cons_cons]
  · exact ⟨by simpa using hempty, hchars, htrailing, by simpa using hreserved⟩

/-- Nothing is left to prepare. -/
theorem windowsPrepared_of_windowsName {name : List Char} (h : WindowsName name) :
    windowsPrepared name = name := by
  have hmap : name.map windowsChar = name.map id :=
    List.map_congr_left fun c hc => windowsChar_of_valid (h.chars c hc)
  rw [windowsPrepared, hmap, List.map_id, trimDotsAndSpaces_eq_self_iff.mpr h.trailing]
  rw [if_neg (by simpa using h.nonempty), if_neg (by rw [h.base]; decide)]

theorem sanitizeFilenameForWindows_of_windowsName {name : List Char} (h : WindowsName name) :
    sanitizeFilenameForWindows name = truncateName name := by
  rw [sanitizeFilenameForWindows_eq, windowsPrepared_of_windowsName h]

/-! ### The cut -/

/-- Cutting the part in front of the extension keeps few enough units, and does not leave a reserved
name. -/
def CutsBase (base ext : List Char) : Prop :=
  (encodeUtf16 (base.take (255 - byteLen ('.' :: ext)))).length +
      (encodeUtf16 ('.' :: ext)).length ≤ 255 ∧
    isReserved (base.take (255 - byteLen ('.' :: ext))) = false

/-- Cutting after 255 characters keeps few enough units, does not end in a dot or a space, and
leaves no short extension that would be kept in a second cut. -/
def CutsName (name : List Char) : Prop :=
  (encodeUtf16 (name.take 255)).length ≤ 255 ∧
    ((name.take 255).getLast? ≠ some '.' ∧ (name.take 255).getLast? ≠ some ' ') ∧
    ∀ base ext, Text.rsplitOnce ['.'] (name.take 255) = some (base, ext) →
      byteLen ('.' :: ext) < 254 → base.length + byteLen ('.' :: ext) ≤ 255

/-- The name is short enough, or the cut it gets is a good one. -/
def CutsWell (name : List Char) : Prop :=
  byteLen name ≤ 255 ∨
    match Text.rsplitOnce ['.'] name with
    | some (base, ext) => if byteLen ('.' :: ext) < 254 then CutsBase base ext else CutsName name
    | none => CutsName name

/-- What decides the cut of a name that is too long, if its extension is kept. -/
theorem cutsWell_of_short {base ext : List Char} (hlong : 255 < byteLen (base ++ '.' :: ext))
    (hext : '.' ∉ ext) (hshort : byteLen ('.' :: ext) < 254) :
    CutsWell (base ++ '.' :: ext) ↔ CutsBase base ext := by
  rw [CutsWell, or_iff_right (Nat.not_le.mpr hlong), Text.rsplitOnce_append hext]
  simp only [hshort, if_true]

/-- And what decides it otherwise. -/
theorem cutsWell_of_long {name : List Char} (hlong : 255 < byteLen name)
    (hext : ∀ base ext, Text.rsplitOnce ['.'] name = some (base, ext) →
      254 ≤ byteLen ('.' :: ext)) : CutsWell name ↔ CutsName name := by
  rw [CutsWell, or_iff_right (Nat.not_le.mpr hlong)]
  split
  · rename_i base ext hsome
    rw [if_neg (Nat.not_lt.mpr (hext base ext hsome))]
  · exact Iff.rfl

/-- A name whose extension is kept is not cut again if there are few enough characters before it. -/
theorem truncateName_of_short {base ext : List Char} (hext : '.' ∉ ext)
    (hshort : byteLen ('.' :: ext) < 254) (hfits : base.length + byteLen ('.' :: ext) ≤ 255) :
    truncateName (base ++ '.' :: ext) = base ++ '.' :: ext := by
  rw [truncateName]
  split_ifs
  · rfl
  · rw [Text.rsplitOnce_append hext]
    simp only [hshort, if_true]
    rw [List.take_of_length_le (by omega)]

/-- A name of at most 255 characters is cut again if and only if it has a short extension that does
not fit. -/
theorem truncateName_eq_self_iff {name : List Char} (h : name.length ≤ 255) :
    truncateName name = name ↔ ∀ base ext, Text.rsplitOnce ['.'] name = some (base, ext) →
      byteLen ('.' :: ext) < 254 → base.length + byteLen ('.' :: ext) ≤ 255 := by
  constructor
  · rintro htruncate base ext hsome hshort
    obtain ⟨-, hnone⟩ | ⟨base', ext', rfl, hext, hsome'⟩ := Text.rsplitOnce_cases '.' name
    · rw [hnone] at hsome
      cases hsome
    · rw [hsome'] at hsome
      cases hsome
      by_contra hfits
      have hlong : ¬ byteLen (base ++ '.' :: ext) ≤ 255 := by
        have hbase := length_le_byteLen base
        rw [byteLen_append]
        omega
      rw [truncateName, if_neg hlong, hsome'] at htruncate
      simp only [hshort, if_true] at htruncate
      have hlength := congrArg List.length (List.append_cancel_right htruncate)
      rw [List.length_take] at hlength
      omega
  · intro hfits
    obtain ⟨-, hself⟩ | ⟨-, ⟨base, ext, rfl, hext, hshort, -⟩ | ⟨-, hself⟩⟩ :=
      truncateName_cases name
    · exact hself
    · exact truncateName_of_short hext hshort
        (hfits base ext (Text.rsplitOnce_append hext base) hshort)
    · rw [hself, List.take_of_length_le h]

/-- Up to the first dot, a name with an extension is what is in front of it. -/
theorem isReserved_append (base ext : List Char) :
    isReserved (base ++ '.' :: ext) = isReserved base := by
  have hbase : (base ++ '.' :: ext).takeWhile (· ≠ '.') = base.takeWhile (· ≠ '.') := by
    rw [List.takeWhile_append, List.takeWhile_cons_of_neg (by simp), List.append_nil]
    split_ifs with hall
    · rw [(List.takeWhile_sublist _).eq_of_length hall]
    · rfl
  rw [isReserved, isReserved, upperBase, upperBase, hbase]

/-- Cutting after 255 characters makes no name reserved. -/
theorem isReserved_take {name : List Char} (h : isReserved name = false) :
    isReserved (name.take 255) = false := by
  have hlength : ∀ r ∈ windowsReservedNames.map String.toList, r.length < 255 := by decide
  rw [isReserved, upperBase, ← List.take_takeWhile, ← Bool.not_eq_true, List.contains_iff_mem]
  intro hmem
  have hshort := hlength _ hmem
  rw [List.length_map, List.length_take] at hshort
  rw [List.take_of_length_le (by omega)] at hmem
  rw [isReserved, upperBase, ← Bool.not_eq_true, List.contains_iff_mem] at h
  exact h hmem

theorem WindowsName.of_subset {name cut : List Char} (h : WindowsName name) (hne : cut ≠ [])
    (hsubset : cut ⊆ name) (htrailing : cut.getLast? ≠ some '.' ∧ cut.getLast? ≠ some ' ')
    (hbase : isReserved cut = false) : WindowsName cut :=
  ⟨hne, fun c hc => h.chars c (hsubset hc), htrailing, hbase⟩

/-- What is to show of a name once it is known how it is cut. -/
theorem windowsStable_iff_cut {filename cut : List Char}
    (h : sanitizeFilenameForWindows filename = cut) :
    WindowsStable filename ↔
      WindowsName cut ∧ (encodeUtf16 cut).length ≤ 255 ∧ truncateName cut = cut := by
  constructor
  · rintro ⟨hname, hunits, hstable⟩
    rw [h] at hname hunits hstable
    rw [sanitizeFilenameForWindows_of_windowsName hname] at hstable
    exact ⟨hname, hunits, hstable⟩
  · rintro ⟨hname, hunits, hstable⟩
    refine ⟨by rwa [h], by rwa [h], ?_⟩
    rw [h, sanitizeFilenameForWindows_of_windowsName hname, hstable]

/-- A cut in front of the extension can go wrong in one way only: what it leaves is reserved. -/
theorem windowsName_take_append_iff {base ext : List Char} (h : WindowsName (base ++ '.' :: ext))
    (n : ℕ) : WindowsName (base.take n ++ '.' :: ext) ↔ isReserved (base.take n) = false := by
  have hlast : ∀ front : List Char, (front ++ '.' :: ext).getLast? = ('.' :: ext).getLast? :=
    fun front => List.getLast?_append_of_ne_nil _ (List.cons_ne_nil _ _)
  constructor
  · intro hcut
    rw [← isReserved_append _ ext]
    exact hcut.base
  · intro hbase
    refine h.of_subset (by simp) ?_ ?_ (by rwa [isReserved_append])
    · exact List.append_subset.mpr
        ⟨fun c hc => List.mem_append_left _ (List.take_subset _ _ hc),
          List.subset_append_right _ _⟩
    · rw [hlast, ← hlast base]
      exact h.trailing

/-- A cut after 255 characters can go wrong in one way only: it leaves a dot or a space. -/
theorem windowsName_take_iff {name : List Char} (h : WindowsName name) :
    WindowsName (name.take 255) ↔
      (name.take 255).getLast? ≠ some '.' ∧ (name.take 255).getLast? ≠ some ' ' := by
  refine ⟨fun hcut => hcut.trailing, fun htrailing => ?_⟩
  refine h.of_subset ?_ (List.take_subset _ _) htrailing (isReserved_take h.base)
  obtain ⟨c, cs, rfl⟩ := List.exists_cons_of_ne_nil h.nonempty
  exact List.cons_ne_nil _ _

/-- **Cut well.** The sanitized name is valid and stable if and only if the name, prepared, is short
enough or cut well. -/
theorem windowsStable_iff (filename : List Char) :
    WindowsStable filename ↔ CutsWell (windowsPrepared filename) := by
  have hname := windowsName_windowsPrepared filename
  have hsanitize := sanitizeFilenameForWindows_eq filename
  generalize windowsPrepared filename = name at hname hsanitize
  rw [windowsStable_iff_cut hsanitize]
  obtain ⟨hlength, hself⟩ | ⟨hlong, ⟨base, ext, rfl, hext, hshort, hcut⟩ | ⟨hext, hcut⟩⟩ :=
    truncateName_cases name
  · rw [hself]
    exact iff_of_true ⟨hname, (length_encodeUtf16_le name).trans hlength, hself⟩ (Or.inl hlength)
  · have hfits : (base.take (255 - byteLen ('.' :: ext))).length + byteLen ('.' :: ext) ≤ 255 := by
      rw [List.length_take]
      omega
    rw [cutsWell_of_short hlong hext hshort, CutsBase, hcut, windowsName_take_append_iff hname,
      and_iff_left (truncateName_of_short hext hshort hfits), encodeUtf16_append,
      List.length_append, and_comm]
  · rw [cutsWell_of_long hlong hext, CutsName, hcut, windowsName_take_iff hname,
      truncateName_eq_self_iff (List.length_take_le _ _)]
    exact and_left_comm

/-- A name of 256 characters, cut in front of its last one. -/
def cutName : List Char := List.replicate 254 'a' ++ [' ', 'b']

theorem cutName_unstable : ¬ WindowsStable cutName := by
  intro h
  have hlast : (sanitizeFilenameForWindows cutName).getLast? = some ' ' := by decide +kernel
  exact h.name.trailing.2 hlast

end Clipboard

end Cheirizo
