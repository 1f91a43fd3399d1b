import Mathlib.Algebra.Group.Nat.Defs
import Mathlib.Data.List.Forall2
import Cheirizo.Clipboard.FileNames

/-!
# Lists of file descriptors

`FileDescriptor::build_list` and `FileDescriptor::parse_list` of
`src/rdp/channels/clipboard/core/formats.rs` write and read one layout: a count and 592 bytes for
each file. Reading is stated twice. Here every access to the data is checked, and the check never
fails, for any bytes; then the unchecked reading of the other modules is the same. The count has 32
bits, so a list comes back if and only if it has fewer than `2 ^ 32` files.

## Main definitions

* `FileDescriptor.parseList?` — `parse_list` with checked accesses
* `Readable`, `Describes`, `DescriptorsRoundTrip` — what is to come back

## Main results

* `FileDescriptor.parseList?_eq` — nothing is read out of bounds
* `descriptors_roundTrip_iff` — the round trip
-/

namespace Cheirizo

namespace Clipboard

open Unicode

/-! ### Numbers in bytes -/

theorem length_natToLe (n x : ℕ) : (natToLe n x).length = n := by
  induction n generalizing x with
  | zero => rfl
  | succ n ih => rw [natToLe, List.length_cons, ih]

theorem leToNat_natToLe (n x : ℕ) : leToNat (natToLe n x) = x % 256 ^ n := by
  induction n generalizing x with
  | zero => rw [natToLe, leToNat, Nat.pow_zero, Nat.mod_one]
  | succ n ih =>
    rw [natToLe, leToNat, ih, Nat.pow_succ', Nat.mod_mul, UInt8.toNat_ofNat']

namespace FileDescriptor

/-- A number is read back from where it was written. -/
theorem readLe_append {front : List UInt8} {offset : ℕ} (h : front.length = offset) (n x : ℕ)
    (rest : List UInt8) : readLe (front ++ (natToLe n x ++ rest)) offset n = x % 256 ^ n := by
  have htake : (natToLe n x ++ rest).take n = natToLe n x := by
    nth_rw 1 [← length_natToLe n x]
    exact List.take_left
  rw [readLe, ← h, List.drop_left, htake, leToNat_natToLe]

/-! ### Checked accesses -/

/-- `data[offset..offset + n]`, which is in bounds or panics. -/
def slice? (data : List UInt8) (offset n : ℕ) : Option (List UInt8) :=
  if offset + n ≤ data.length then some ((data.drop offset).take n) else none

/-- A number, if all of its bytes are there. -/
def readLe? (data : List UInt8) (offset n : ℕ) : Option ℕ := (slice? data offset n).map leToNat

/-- A field that a flag announces. -/
def readFlagged? (data : List UInt8) (flags flag : UInt32) (offset : ℕ) :
    Option (Option UInt64) :=
  if hasFlag flags flag then (readLe? data offset 8).map fun x => some (UInt64.ofNat x)
  else some none

/-- The size, high half first. -/
def readSize? (data : List UInt8) (flags : UInt32) : Option (Option UInt64) :=
  if hasFlag flags flagFilesize then do
    let sizeHigh ← readLe? data 64 4
    let sizeLow ← readLe? data 68 4
    return some (UInt64.ofNat (sizeHigh * 4294967296 + sizeLow))
  else some none

/-- One descriptor, with every access checked. -/
def parse? (data : List UInt8) : Option (Except CoreError FileDescriptor) :=
  if data.length < 592 then
    some (.error (.formatConversion ("FILEDESCRIPTORW too small: " ++ toString data.length ++
      " bytes (need 592)")))
  else do
    let flags := UInt32.ofNat (← readLe? data 0 4)
    let attributes := UInt32.ofNat (← readLe? data 36 4)
    let creationTime ← readFlagged? data flags flagCreatetime 40
    let accessTime ← readFlagged? data flags flagAccesstime 48
    let writeTime ← readFlagged? data flags flagWritestime 56
    let size ← readSize? data flags
    let filenameBytes ← slice? data 72 520
    return (parseUtf16Filename filenameBytes).map fun name =>
      { flags, attributes, creationTime, accessTime, writeTime, size, name }

/-- The turns of the loop from the `i`-th descriptor on. -/
def parseFrom? (data : List UInt8) : ℕ → ℕ → Option (Except CoreError (List FileDescriptor))
  | 0, _ => some (.ok [])
  | n + 1, i => do
    let descriptorData ← slice? data (4 + i * 592) 592
    match ← parse? descriptorData with
    | .error e => return .error e
    | .ok descriptor => return (← parseFrom? data n (i + 1)).map (descriptor :: ·)

/-- All descriptors. Without any, nothing behind the count is looked at. -/
def parseList? (data : List UInt8) : Option (Except CoreError (List FileDescriptor)) :=
  if data.length < 4 then
    some (.error (.formatConversion "FileGroupDescriptorW too small for count"))
  else do
    let count ← readLe? data 0 4
    if count = 0 then return .ok []
    let expected := 4 + count * 592
    if data.length < expected then
      return .error (.formatConversion ("FileGroupDescriptorW too small: " ++
        toString data.length ++ " bytes (need " ++ toString expected ++ " for " ++
        toString count ++ " files)"))
    else parseFrom? data count 0

variable {data : List UInt8}

theorem slice?_eq {offset n : ℕ} (h : offset + n ≤ data.length) :
    slice? data offset n = some ((data.drop offset).take n) :=
  if_pos h

theorem readLe?_eq {offset n : ℕ} (h : offset + n ≤ data.length) :
    readLe? data offset n = some (readLe data offset n) := by
  rw [readLe?, slice?_eq h, Option.map_some, readLe]

theorem readFlagged?_eq {offset : ℕ} (h : offset + 8 ≤ data.length) (flags flag : UInt32) :
    readFlagged? data flags flag offset = some (readFlagged data flags flag offset) := by
  rw [readFlagged?, readFlagged]
  split_ifs
  · rw [readLe?_eq h, Option.map_some]
  · rfl

theorem parse?_eq (data : List UInt8) : parse? data = some (parse data) := by
  rw [parse?, parse]
  split_ifs with hlength
  · rfl
  · have hsize : ∀ flags, readSize? data flags = some (if hasFlag flags flagFilesize then
        some (UInt64.ofNat (readLe data 64 4 * 4294967296 + readLe data 68 4)) else none) := by
      intro flags
      rw [readSize?]
      split_ifs
      · rw [readLe?_eq (by omega), readLe?_eq (by omega)]
        rfl
      · rfl
    simp only [readLe?_eq (show 0 + 4 ≤ data.length by omega),
      readLe?_eq (show 36 + 4 ≤ data.length by omega),
      readFlagged?_eq (show 40 + 8 ≤ data.length by omega),
      readFlagged?_eq (show 48 + 8 ≤ data.length by omega),
      readFlagged?_eq (show 56 + 8 ≤ data.length by omega), hsize,
      slice?_eq (show 72 + 520 ≤ data.length by omega), Option.bind_eq_bind, Option.bind_some]
    cases parseUtf16Filename ((data.drop 72).take 520) <;> rfl

/-- The loop reads the descriptors one after the other. -/
theorem parseFrom?_eq (n i : ℕ) (h : 4 + (i + n) * 592 ≤ data.length) :
    parseFrom? data n i = some (parseMany n (data.drop (4 + i * 592))) := by
  induction n generalizing i with
  | zero => rfl
  | succ n ih =>
    have hnext : (data.drop (4 + i * 592)).drop 592 = data.drop (4 + (i + 1) * 592) := by
      rw [List.drop_drop]
      congr 1
      omega
    have hcount : i + 1 + n = i + (n + 1) := by omega
    have hrest : parseFrom? data n (i + 1) =
        some (parseMany n (data.drop (4 + (i + 1) * 592))) := ih (i + 1) (by rwa [hcount])
    have hslice : slice? data (4 + i * 592) 592 = some ((data.drop (4 + i * 592)).take 592) :=
      slice?_eq (by omega)
    rw [parseFrom?, parseMany, hslice, hnext]
    simp only [Option.bind_eq_bind, Option.bind_some, parse?_eq]
    cases parse ((data.drop (4 + i * 592)).take 592) with
    | error e => rfl
    | ok descriptor =>
      show (parseFrom? data n (i + 1)).bind _ = _
      rw [hrest]
      cases parseMany n (data.drop (4 + (i + 1) * 592)) <;> rfl

/-- Nothing is read out of bounds. -/
theorem parseList?_eq (data : List UInt8) : parseList? data = some (parseList data) := by
  rw [parseList?, parseList]
  by_cases hlength : data.length < 4
  · rw [if_pos hlength, if_pos hlength]
  · rw [if_neg hlength, if_neg hlength, readLe?_eq (show 0 + 4 ≤ data.length by omega)]
    simp only [Option.bind_eq_bind, Option.bind_some]
    generalize readLe data 0 4 = count
    by_cases hzero : count = 0
    · subst hzero
      rw [if_pos rfl, if_neg (by omega)]
      rfl
    · rw [if_neg hzero]
      by_cases hexpected : data.length < 4 + count * 592
      · rw [if_pos hexpected, if_pos hexpected]
        rfl
      · rw [if_neg hexpected, if_neg hexpected, parseFrom?_eq count 0 (by omega)]

end FileDescriptor

/-! ### Names in descriptors -/

theorem utf8Size_windowsChar_le (c : Char) : (windowsChar c).utf8Size ≤ c.utf8Size := by
  rw [windowsChar]
  split_ifs
  · exact c.utf8Size_pos
  · exact Nat.le_refl _

/-- A sanitized name gains at most the underscore of a reserved name, unless it has no name. -/
theorem byteLen_sanitizeFilenameForWindows_le (filename : List Char) :
    byteLen (sanitizeFilenameForWindows filename) ≤ max 9 (byteLen filename + 1) := by
  rw [sanitizeFilenameForWindows_eq]
  refine Nat.le_trans (byteLen_truncateName_le _) ?_
  have htrim : byteLen (trimDotsAndSpaces (filename.map windowsChar)) ≤ byteLen filename := by
    obtain ⟨rest, hrest⟩ := List.rdropWhile_prefix (fun c => c = '.' || c = ' ')
      (filename.map windowsChar)
    have hmap := byteLen_map_le utf8Size_windowsChar_le filename
    rw [← hrest, byteLen_append] at hmap
    exact Nat.le_trans (Nat.le_add_right _ _) hmap
  have hnine : byteLen "_unnamed_".toList = 9 := by decide
  have hone : '_'.utf8Size = 1 := rfl
  rw [windowsPrepared]
  split_ifs
  · rw [hnine]
    exact Nat.le_max_left _ _
  · rw [byteLen_cons, hone]
    omega
  · omega

/-- A sanitized name of a file fits into a descriptor, with room for a terminator. -/
theorem length_units_le {filename : List Char} (h : byteLen filename ≤ 255) :
    (encodeUtf16 (sanitizeFilenameForWindows filename)).length ≤ 259 := by
  have hunits := length_encodeUtf16_le (sanitizeFilenameForWindows filename)
  have hbytes := byteLen_sanitizeFilenameForWindows_le filename
  rw [byteLen] at hbytes
  omega

/-- No unit of a sanitized name is the terminator. -/
theorem zero_notMem_units (filename : List Char) :
    0 ∉ encodeUtf16 (sanitizeFilenameForWindows filename) := by
  rw [zero_mem_encodeUtf16, sanitizeFilenameForWindows_eq]
  intro hmem
  have hprepared : '\x00' ∈ windowsPrepared filename := by
    obtain ⟨-, h⟩ | ⟨-, ⟨base, ext, heq, -, -, h⟩ | ⟨-, h⟩⟩ :=
      truncateName_cases (windowsPrepared filename)
    · rwa [h] at hmem
    · rw [h, List.mem_append] at hmem
      rw [heq, List.mem_append]
      exact hmem.imp_left List.mem_of_mem_take
    · rw [h] at hmem
      exact List.mem_of_mem_take hmem
  exact absurd ((windowsName_windowsPrepared filename).chars _ hprepared).2 (by decide)

theorem zero_of_mem_unitsOfLe_replicate (n : ℕ) :
    ∀ u ∈ unitsOfLe (List.replicate n 0), u = 0 := by
  induction n using Nat.twoStepInduction with
  | zero => simp [unitsOfLe]
  | one => simp [unitsOfLe]
  | more n ih _ =>
    rw [List.replicate_succ, List.replicate_succ, unitsOfLe]
    rintro u (_ | ⟨_, hu⟩)
    · rfl
    · exact ih u hu

namespace FileDescriptor

/-- A name is read up to its terminator. -/
theorem parseUtf16Filename_eq {name : List Char} (hzero : 0 ∉ encodeUtf16 name) :
    parseUtf16Filename ((encodeUtf16 name).flatMap u16ToLe ++
      List.replicate (520 - ((encodeUtf16 name).flatMap u16ToLe).length) 0) = .ok name := by
  have hlength := length_flatMap_u16ToLe (encodeUtf16 name)
  have hunits : ((unitsOfLe ((encodeUtf16 name).flatMap u16ToLe ++
      List.replicate (520 - ((encodeUtf16 name).flatMap u16ToLe).length) 0)).takeWhile (· ≠ 0)) =
      encodeUtf16 name := by
    rw [unitsOfLe_append, List.takeWhile_append_of_pos, List.takeWhile_eq_nil_iff.mpr,
      List.append_nil]
    · intro hpos
      rw [zero_of_mem_unitsOfLe_replicate _ _ (List.get_mem _ _)]
      decide
    · intro u hu
      exact decide_eq_true (ne_of_mem_of_not_mem hu hzero)
  rw [parseUtf16Filename, if_neg, hunits, decodeUtf16_encodeUtf16]
  rw [List.length_append, List.length_replicate]
  omega

/-- What is written about a file. -/
def of (metadata : Metadata) (filename : List Char) : FileDescriptor where
  flags := flagFilesize
  attributes := if metadata.isDir then 0x10 else 0x80
  creationTime := none
  accessTime := none
  writeTime := none
  size := some metadata.size
  name := sanitizeFilenameForWindows filename

/-- The bytes of a descriptor, field after field. -/
def layout (metadata : Metadata) (nameBytes : List UInt8) : List UInt8 :=
  natToLe 4 flagFilesize.toNat ++ (List.replicate 32 0 ++
    (natToLe 4 (if metadata.isDir then 0x10 else 0x80) ++ (List.replicate 24 0 ++
      (natToLe 4 (metadata.size.toNat / 4294967296) ++ (natToLe 4 metadata.size.toNat ++
        nameBytes)))))

theorem length_layout (metadata : Metadata) (nameBytes : List UInt8) :
    (layout metadata nameBytes).length = 72 + nameBytes.length := by
  simp only [layout, List.length_append, length_natToLe, List.length_replicate]
  omega

/-- The fields of a descriptor are where they are read. -/
theorem readLe_layout (metadata : Metadata) (nameBytes : List UInt8) :
    readLe (layout metadata nameBytes) 0 4 = 0x40 ∧
      readLe (layout metadata nameBytes) 36 4 = (if metadata.isDir then 0x10 else 0x80) ∧
      readLe (layout metadata nameBytes) 64 4 = metadata.size.toNat / 4294967296 ∧
      readLe (layout metadata nameBytes) 68 4 = metadata.size.toNat % 4294967296 ∧
      (layout metadata nameBytes).drop 72 = nameBytes := by
  have hsize := metadata.size.toNat_lt
  have hread : ∀ (front : List UInt8) (offset x : ℕ) (rest : List UInt8),
      layout metadata nameBytes = front ++ (natToLe 4 x ++ rest) → front.length = offset →
        readLe (layout metadata nameBytes) offset 4 = x % 256 ^ 4 := by
    intro front offset x rest heq hlength
    rw [heq, readLe_append hlength]
  have hattributes := hread (natToLe 4 flagFilesize.toNat ++ List.replicate 32 0) 36 _ _
    (by rw [List.append_assoc]; rfl) rfl
  have hhigh := hread (natToLe 4 flagFilesize.toNat ++ (List.replicate 32 0 ++
    (natToLe 4 (if metadata.isDir then 0x10 else 0x80) ++ List.replicate 24 0))) 64 _ _
    (by simp only [List.append_assoc]; rfl) rfl
  have hlow := hread (natToLe 4 flagFilesize.toNat ++ (List.replicate 32 0 ++
    (natToLe 4 (if metadata.isDir then 0x10 else 0x80) ++ (List.replicate 24 0 ++
      natToLe 4 (metadata.size.toNat / 4294967296))))) 68 _ _
    (by simp only [List.append_assoc]; rfl) rfl
  refine ⟨hread [] 0 _ _ rfl rfl, ?_, ?_, hlow, rfl⟩
  · rw [hattributes]
    split_ifs <;> rfl
  · rw [hhigh]
    omega

/-- A descriptor is read back. -/
theorem parse_layout {metadata : Metadata} {filename : List Char} {nameBytes : List UInt8}
    (hcount : nameBytes.length = 520)
    (hname : parseUtf16Filename nameBytes = .ok (sanitizeFilenameForWindows filename)) :
    parse (layout metadata nameBytes) = .ok (of metadata filename) := by
  obtain ⟨hflags, hattributes, hhigh, hlow, hdrop⟩ := readLe_layout metadata nameBytes
  have hlength := length_layout metadata nameBytes
  rw [parse, if_neg (by omega), hflags, hattributes, hhigh, hlow, hdrop,
    List.take_of_length_le (by omega), hname]
  have hsize : UInt64.ofNat (metadata.size.toNat / 4294967296 * 4294967296 +
      metadata.size.toNat % 4294967296) = metadata.size := by
    rw [Nat.div_add_mod', UInt64.ofNat_toNat]
  have hflag : ∀ flag : UInt32, (flag = flagCreatetime ∨ flag = flagAccesstime ∨
      flag = flagWritestime) → hasFlag (UInt32.ofNat 0x40) flag = false := by
    rintro flag (rfl | rfl | rfl) <;> decide
  simp only [readFlagged, hflag flagCreatetime (by simp), hflag flagAccesstime (by simp),
    hflag flagWritestime (by simp), hsize]
  rw [of]
  cases metadata.isDir <;> rfl

/-- One descriptor has 592 bytes and is read back. -/
theorem parse_build {disk : Disk} {path : String} {metadata : Metadata} {filename : List Char}
    (hmetadata : disk.metadata path = some metadata) (hname : fileName path = some filename)
    (hshort : byteLen filename ≤ 255) :
    ∃ data, build disk path = .ok data ∧ data.length = 592 ∧
      parse data = .ok (of metadata filename) := by
  have hparse := parseUtf16Filename_eq (zero_notMem_units filename)
  have hfits := length_units_le hshort
  have hlength := length_flatMap_u16ToLe (encodeUtf16 (sanitizeFilenameForWindows filename))
  rw [build, hmetadata]
  simp only [hname]
  rw [List.take_of_length_le hfits]
  refine ⟨_, rfl, ?_⟩
  simp only [List.append_assoc]
  generalize hnameBytes : (encodeUtf16 (sanitizeFilenameForWindows filename)).flatMap u16ToLe ++
    List.replicate (520 - ((encodeUtf16 (sanitizeFilenameForWindows filename)).flatMap
      u16ToLe).length) 0 = nameBytes at hparse ⊢
  have hcount : nameBytes.length = 520 := by
    rw [← hnameBytes, List.length_append, List.length_replicate]
    omega
  exact ⟨by rw [← layout, length_layout]; omega, parse_layout hcount hparse⟩

end FileDescriptor

/-! ### The round trip -/

/-- A file whose metadata can be read, with a name of at most 255 bytes. -/
def Readable (disk : Disk) (path : String) : Prop :=
  ∃ metadata filename, disk.metadata path = some metadata ∧ fileName path = some filename ∧
    byteLen filename ≤ 255

/-- The descriptor has the file's name for Windows and its size, and is marked as a directory if and
only if it is one. -/
def Describes (disk : Disk) (path : String) (descriptor : FileDescriptor) : Prop :=
  ∃ metadata filename, disk.metadata path = some metadata ∧ fileName path = some filename ∧
    descriptor.name = sanitizeFilenameForWindows filename ∧
    descriptor.size = some metadata.size ∧
    FileDescriptor.hasFlag descriptor.attributes 0x10 = metadata.isDir

/-- The list that is built is read as one descriptor for each path, in order. -/
def DescriptorsRoundTrip (disk : Disk) (paths : List String) : Prop :=
  ∃ data descriptors, FileDescriptor.buildList disk paths = .ok data ∧
    FileDescriptor.parseList data = .ok descriptors ∧
    List.Forall₂ (Describes disk) paths descriptors

namespace FileDescriptor

variable {disk : Disk}

theorem describes_of {path : String} {metadata : Metadata} {filename : List Char}
    (hmetadata : disk.metadata path = some metadata) (hname : fileName path = some filename) :
    Describes disk path (of metadata filename) := by
  have hmark : ∀ isDir : Bool, hasFlag (if isDir then 0x10 else 0x80) 0x10 = isDir := by decide
  exact ⟨metadata, filename, hmetadata, hname, rfl, rfl, hmark metadata.isDir⟩

/-- The descriptors of readable files, one after the other. -/
theorem parseMany_buildMany {paths : List String} (h : ∀ path ∈ paths, Readable disk path) :
    ∃ data descriptors, buildMany disk paths = .ok data ∧ data.length = paths.length * 592 ∧
      parseMany paths.length data = .ok descriptors ∧
      List.Forall₂ (Describes disk) paths descriptors := by
  induction paths with
  | nil => exact ⟨[], [], rfl, rfl, rfl, .nil⟩
  | cons path paths ih =>
    obtain ⟨metadata, filename, hmetadata, hname, hshort⟩ := h path List.mem_cons_self
    obtain ⟨first, hbuild, hlength, hparse⟩ := parse_build hmetadata hname hshort
    obtain ⟨data, descriptors, hbuildMany, hlengths, hparseMany, hdescribes⟩ :=
      ih fun path hpath => h path (List.mem_cons_of_mem _ hpath)
    refine ⟨first ++ data, of metadata filename :: descriptors, ?_, ?_, ?_,
      .cons (describes_of hmetadata hname) hdescribes⟩
    · rw [buildMany, hbuild, hbuildMany]
      rfl
    · rw [List.length_append, List.length_cons, hlength, hlengths]
      omega
    · rw [List.length_cons, parseMany, ← hlength, List.take_left, List.drop_left, hparse,
        hparseMany]
      rfl

/-- The list, with the count as it is read. -/
theorem parseList_append {count : ℕ} {data : List UInt8}
    (hlength : (count % 4294967296) * 592 ≤ data.length) :
    parseList (natToLe 4 count ++ data) = parseMany (count % 4294967296) data := by
  have hcount : readLe (natToLe 4 count ++ data) 0 4 = count % 4294967296 :=
    readLe_append (rfl : ([] : List UInt8).length = 0) 4 count data
  have htotal : (natToLe 4 count ++ data).length = 4 + data.length := by
    rw [List.length_append, length_natToLe]
  have hdrop : (natToLe 4 count ++ data).drop 4 = data := rfl
  rw [parseList, if_neg (by omega), hcount]
  dsimp only
  rw [if_neg (by omega), hdrop]

theorem length_parseMany {n : ℕ} {data : List UInt8} {descriptors : List FileDescriptor}
    (h : parseMany n data = .ok descriptors) : descriptors.length = n := by
  induction n generalizing data descriptors with
  | zero =>
    cases h
    rfl
  | succ n ih =>
    rw [parseMany] at h
    cases hparse : parse (data.take 592) with
    | error e =>
      rw [hparse] at h
      cases h
    | ok descriptor =>
      cases hrest : parseMany n (data.drop 592) with
      | error e =>
        rw [hparse, hrest] at h
        cases h
      | ok rest =>
        rw [hparse, hrest] at h
        cases h
        rw [List.length_cons, ih hrest]

/-- A list whose count fits into 32 bits comes back. -/
theorem roundTrip_of_lt {paths : List String} (h : ∀ path ∈ paths, Readable disk path)
    (hcount : paths.length < 4294967296) : DescriptorsRoundTrip disk paths := by
  obtain ⟨data, descriptors, hbuild, hlength, hparse, hdescribes⟩ := parseMany_buildMany h
  refine ⟨natToLe 4 paths.length ++ data, descriptors, ?_, ?_, hdescribes⟩
  · rw [buildList, hbuild]
    rfl
  · rw [parseList_append (by omega), Nat.mod_eq_of_lt hcount, hparse]

/-- A longer list loses files. -/
theorem not_roundTrip_of_le {paths : List String} (h : ∀ path ∈ paths, Readable disk path)
    (hcount : 4294967296 ≤ paths.length) : ¬ DescriptorsRoundTrip disk paths := by
  rintro ⟨data, descriptors, hbuildList, hparse, hdescribes⟩
  obtain ⟨data', -, hbuild, hlength, -, -⟩ := parseMany_buildMany h
  rw [buildList, hbuild] at hbuildList
  cases hbuildList
  rw [parseList_append (by omega)] at hparse
  have hread := length_parseMany hparse
  have hall := hdescribes.length_eq
  omega

end FileDescriptor

/-- **Fewer than `2 ^ 32` files.** Nothing is read out of bounds, and the list of readable files
comes back if and only if its length fits into the count. -/
theorem descriptors_roundTrip_iff {disk : Disk} {paths : List String}
    (h : ∀ path ∈ paths, Readable disk path) :
    (∀ data, FileDescriptor.parseList? data = some (FileDescriptor.parseList data)) ∧
      (DescriptorsRoundTrip disk paths ↔ paths.length < 4294967296) := by
  refine ⟨FileDescriptor.parseList?_eq, fun hroundTrip => ?_, FileDescriptor.roundTrip_of_lt h⟩
  by_contra hcount
  exact FileDescriptor.not_roundTrip_of_le h (Nat.not_lt.mp hcount) hroundTrip

/-- A disk with a large directory and a small file. -/
def directoryDisk : Disk where
  existing := ["/srv/data", "/srv/CON.txt"]
  metadata path :=
    if path = "/srv/data" then some ⟨4294967298, true⟩
    else if path = "/srv/CON.txt" then some ⟨5, false⟩ else none
  createsDownloadDir := true
  createsFile _ := true
  readsChunk _ _ _ := none
  writes := .ok ()
  flushes := .ok ()
  renames _ _ := .ok ()

theorem directoryDisk_roundTrip :
    DescriptorsRoundTrip directoryDisk ["/srv/data", "/srv/CON.txt"] := by
  have hreadable : ∀ path ∈ ["/srv/data", "/srv/CON.txt"], Readable directoryDisk path := by
    simp only [List.forall_mem_cons, List.not_mem_nil, IsEmpty.forall_iff, implies_true, and_true]
    exact ⟨⟨⟨4294967298, true⟩, "data".toList, by decide +kernel⟩,
      ⟨⟨5, false⟩, "CON.txt".toList, by decide +kernel⟩⟩
  exact (descriptors_roundTrip_iff hreadable).2.mpr (by decide)

end Clipboard

end Cheirizo
