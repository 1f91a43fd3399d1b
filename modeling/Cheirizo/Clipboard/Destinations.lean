import Mathlib.Data.Set.Card
import Cheirizo.Clipboard.Delivery
import Cheirizo.Clipboard.FileNames

/-!
# Where received files are put

The names of received files come from the client, and a name that is taken is numbered until it is
free. Here the reservations of a transfer are followed from its start through the list of its files.
A reserved path is a direct child of the download directory and in use by nothing: no file that is
there, no temporary file, no other file of the transfer.

The search counts in 32 bits and starts over when it has tried all numbers. It ends if fewer than
`2 ^ 32` files are present, for the numbered names of a name are different, and a file that is being
received stands in the way of one of them at most: if its temporary name is among them, its own name
is not.

## Main definitions

* `IsName`, `IsChild` — names of files, and direct children of a directory
* `reserveWithin` — the search with its counter, cut off after a number of turns
* `Reservation`, `reservations` — the reservations of a transfer, with the states they are made in

## Main results

* `isName_sanitizeFilenameForLinux`, `isName_suffixedName` — names stay names
* `exists_free` — one of as many candidates as there are files present, and one more, is free
* `reservations_sound` — the paths reserved for a transfer are free, and the search for them ends
-/

namespace Cheirizo

namespace Clipboard

/-! ### Names -/

/-- A name that a file can have. -/
structure IsName (name : List Char) : Prop where
  ne_nil : name ≠ []
  ne_dot : name ≠ ['.']
  ne_dots : name ≠ ['.', '.']
  slash : '/' ∉ name
  zero : '\x00' ∉ name

/-- A path of a file in a directory, not further down and not further up. -/
def IsChild (dir path : String) : Prop :=
  ∃ name, IsName name ∧ path = joinPath dir (String.ofList name)

theorem truncateName_subset (name : List Char) : truncateName name ⊆ name := by
  obtain ⟨-, h⟩ | ⟨-, ⟨base, ext, rfl, -, -, h⟩ | ⟨-, h⟩⟩ := truncateName_cases name
  · rw [h]
    exact List.Subset.refl _
  · rw [h]
    exact List.append_subset.mpr ⟨fun c hc => List.mem_append_left _ (List.mem_of_mem_take hc),
      List.subset_append_right _ _⟩
  · rw [h]
    exact List.take_subset _ _

/-- What a client's name contains that a name may not is replaced. -/
theorem notMem_linuxPrepared (filename : List Char) :
    '/' ∉ linuxPrepared filename ∧ '\x00' ∉ linuxPrepared filename := by
  have hmap : ∀ c ∈ filename.map linuxChar, c ≠ '/' ∧ c ≠ '\x00' := by
    intro c hc
    obtain ⟨d, -, rfl⟩ := List.mem_map.mp hc
    rw [linuxChar]
    split_ifs with h
    · decide
    · simp only [Bool.or_eq_true, decide_eq_true_eq, not_or] at h
      exact h.1
  rw [linuxPrepared]
  split_ifs
  · constructor
    · simpa using fun hmem => (hmap _ hmem).1 rfl
    · simpa using fun hmem => (hmap _ hmem).2 rfl
  · exact ⟨fun hmem => (hmap _ hmem).1 rfl, fun hmem => (hmap _ hmem).2 rfl⟩

/-- A name with bytes enough is not one of the short ones. -/
theorem isName_of_byteLen {name : List Char} (h : 2 < byteLen name) (hslash : '/' ∉ name)
    (hzero : '\x00' ∉ name) : IsName name := by
  refine ⟨?_, ?_, ?_, hslash, hzero⟩
  · rintro rfl
    exact absurd h (by decide)
  · rintro rfl
    exact absurd h (by decide)
  · rintro rfl
    exact absurd h (by decide)

/-- **Every name of a client becomes a name.** -/
theorem isName_sanitizeFilenameForLinux (filename : List Char) :
    IsName (sanitizeFilenameForLinux filename) := by
  obtain ⟨hslash, hzero⟩ := notMem_linuxPrepared filename
  rw [sanitizeFilenameForLinux_eq]
  split_ifs with hname
  · exact isName_of_byteLen (by decide) (by decide) (by decide)
  · by_cases hlong : 255 < byteLen (linuxPrepared filename)
    · have hle := le_byteLen_truncateName hlong
      exact isName_of_byteLen (by omega) (fun hmem => hslash (truncateName_subset _ hmem))
        fun hmem => hzero (truncateName_subset _ hmem)
    · rw [truncateName, if_pos (Nat.not_lt.mp hlong)]
      obtain ⟨hnil, hdot, hdots⟩ : linuxPrepared filename ≠ [] ∧ linuxPrepared filename ≠ ['.'] ∧
          linuxPrepared filename ≠ ['.', '.'] := by simpa using hname
      exact ⟨hnil, hdot, hdots, hslash, hzero⟩

/-! ### Numbered names -/

/-- A name has no extension, or is split at its last dot. -/
theorem splitExtension_cases (name : List Char) :
    splitExtension name = (name, none) ∨ ∃ stem ext, name = stem ++ '.' :: ext ∧ '.' ∉ ext ∧
      splitExtension name = (stem, some ext) := by
  rw [splitExtension]
  obtain ⟨-, hnone⟩ | ⟨base, ext, hname, hext, hsome⟩ := Text.rsplitOnce_cases '.' name
  · rw [hnone]
    exact Or.inl rfl
  · rw [hsome]
    cases base with
    | nil => exact Or.inl rfl
    | cons c base => exact Or.inr ⟨c :: base, ext, hname, hext, rfl⟩

/-- A numbered name is the stem, the number and the extension. -/
theorem toList_suffixedName (filename : List Char) :
    ∃ stem tail, filename = stem ++ tail ∧ (tail = [] ∨ ∃ ext, '.' ∉ ext ∧ tail = '.' :: ext) ∧
      ∀ index, (FileTransferState.suffixedName filename index).toList =
        stem ++ ' ' :: '(' :: (Nat.toDigits 10 index ++ ')' :: tail) := by
  obtain hsplit | ⟨stem, ext, hname, hext, hsplit⟩ := splitExtension_cases filename
  · refine ⟨filename, [], (List.append_nil _).symm, Or.inl rfl, fun index => ?_⟩
    simp [FileTransferState.suffixedName, hsplit]
  · refine ⟨stem, '.' :: ext, hname, Or.inr ⟨ext, hext, rfl⟩, fun index => ?_⟩
    simp [FileTransferState.suffixedName, hsplit]

/-- A numbered name is a name. -/
theorem isName_suffixedName {filename : List Char} (h : IsName filename) (index : ℕ) :
    IsName (FileTransferState.suffixedName filename index).toList := by
  obtain ⟨stem, tail, hname, -, hlist⟩ := toList_suffixedName filename
  have hdigits : ∀ c ∈ Nat.toDigits 10 index, c.isDigit = true :=
    fun c hc => Nat.isDigit_of_mem_toDigits (by decide) (by decide) hc
  have hmem : ∀ c, c.isDigit = false → c ≠ ' ' → c ≠ '(' → c ≠ ')' → c ∉ filename →
      c ∉ (FileTransferState.suffixedName filename index).toList := by
    intro c hdigit hblank hopen hclose hc hin
    rw [hlist] at hin
    rw [hname, List.mem_append, not_or] at hc
    simp only [List.mem_append, List.mem_cons] at hin
    obtain hin | hin | hin | hin | hin | hin := hin
    · exact hc.1 hin
    · exact hblank hin
    · exact hopen hin
    · rw [hdigits c hin] at hdigit
      cases hdigit
    · exact hclose hin
    · exact hc.2 hin
  refine isName_of_byteLen ?_ (hmem _ (by decide) (by decide) (by decide) (by decide) h.slash)
    (hmem _ (by decide) (by decide) (by decide) (by decide) h.zero)
  have hpos := List.length_pos_of_ne_nil (Nat.toDigits_ne_nil (b := 10) (n := index))
  calc 2 < (FileTransferState.suffixedName filename index).toList.length := by
        rw [hlist]
        simp only [List.length_append, List.length_cons]
        omega
    _ ≤ _ := length_le_byteLen _

/-- The names that are tried for a file: its own, and the numbered ones. -/
def candidateName (filename : List Char) : ℕ → String
  | 0 => String.ofList filename
  | index + 1 => FileTransferState.suffixedName filename (index + 1)

theorem isName_candidateName {filename : List Char} (h : IsName filename) (index : ℕ) :
    IsName (candidateName filename index).toList := by
  cases index with
  | zero => rwa [candidateName, String.toList_ofList]
  | succ index => exact isName_suffixedName h (index + 1)

theorem length_lt_suffixedName (filename : List Char) (index : ℕ) :
    filename.length < (FileTransferState.suffixedName filename index).toList.length := by
  obtain ⟨stem, tail, hname, -, hlist⟩ := toList_suffixedName filename
  rw [hlist, hname]
  simp only [List.length_append, List.length_cons]
  omega

theorem length_le_candidateName (filename : List Char) (index : ℕ) :
    filename.length ≤ (candidateName filename index).toList.length := by
  cases index with
  | zero => rw [candidateName, String.toList_ofList]
  | succ index => exact (length_lt_suffixedName filename (index + 1)).le

theorem candidateName_injective (filename : List Char) : (candidateName filename).Injective := by
  have hne : ∀ index, String.ofList filename ≠ candidateName filename (index + 1) := by
    intro index heq
    have hlt := length_lt_suffixedName filename (index + 1)
    rw [← show _ = FileTransferState.suffixedName filename (index + 1) from heq,
      String.toList_ofList] at hlt
    exact Nat.lt_irrefl _ hlt
  intro i j h
  cases i with
  | zero =>
    cases j with
    | zero => rfl
    | succ j => exact absurd h (hne j)
  | succ i =>
    cases j with
    | zero => exact absurd h.symm (hne i)
    | succ j => exact FileTransferState.suffixedName_injective filename h

/-- A temporary name in front of its extension. -/
theorem tempName_eq (filename : List Char) (streamId : UInt32) :
    tempName filename streamId =
      ('.' :: filename ++ '.' :: Nat.toDigits 10 streamId.toNat) ++ '.' :: ['t', 'm', 'p'] := by
  simp [tempName]

/-- A numbered name that ends like a temporary one has that extension. -/
theorem suffixedName_tmp {filename front : List Char} {index : ℕ}
    (h : (FileTransferState.suffixedName filename index).toList = front ++ '.' :: ['t', 'm', 'p']) :
    ∃ stem, filename = stem ++ '.' :: ['t', 'm', 'p'] ∧
      front = stem ++ ' ' :: '(' :: (Nat.toDigits 10 index ++ [')']) := by
  obtain ⟨stem, tail, rfl, rfl | ⟨ext, hext, rfl⟩, hlist⟩ := toList_suffixedName filename
  · -- Without an extension it ends in a parenthesis.
    rw [hlist] at h
    have hends : (stem ++ ' ' :: '(' :: Nat.toDigits 10 index) ++ [')'] =
        (front ++ '.' :: ['t', 'm']) ++ ['p'] := by simpa using h
    exact absurd (List.append_inj' hends rfl).2 (by decide)
  · have hsplit := congrArg (Text.rsplitOnce ['.']) h
    have hlist' : stem ++ ' ' :: '(' :: (Nat.toDigits 10 index ++ ')' :: '.' :: ext) =
        (stem ++ ' ' :: '(' :: (Nat.toDigits 10 index ++ [')'])) ++ '.' :: ext := by simp
    rw [hlist, hlist', Text.rsplitOnce_append hext, Text.rsplitOnce_append (by decide)] at hsplit
    cases hsplit
    exact ⟨stem, rfl, rfl⟩

/-- A parenthesis is not the last digit of a stream. -/
theorem numbered_ne_tempFront (stem filename : List Char) (index : ℕ) (streamId : UInt32) :
    stem ++ ' ' :: '(' :: (Nat.toDigits 10 index ++ [')']) ≠
      '.' :: filename ++ '.' :: Nat.toDigits 10 streamId.toNat := by
  intro h
  obtain hnil | ⟨digits, last, hdigits⟩ := List.eq_nil_or_concat (Nat.toDigits 10 streamId.toNat)
  · exact absurd hnil Nat.toDigits_ne_nil
  · rw [List.concat_eq_append] at hdigits
    have hends : (stem ++ ' ' :: '(' :: Nat.toDigits 10 index) ++ [')'] =
        ('.' :: filename ++ '.' :: digits) ++ [last] := by simpa [hdigits] using h
    obtain rfl : ')' = last := List.singleton_inj.mp (List.append_inj' hends rfl).2
    have hdigit : (')' : Char).isDigit = true :=
      Nat.isDigit_of_mem_toDigits (b := 10) (n := streamId.toNat) (by decide) (by decide)
        (hdigits ▸ List.mem_append_right _ (List.mem_singleton_self _))
    exact absurd hdigit (by decide)

/-- No numbered name is a temporary name. -/
theorem suffixedName_ne_tempName (filename other : List Char) (index : ℕ) (streamId : UInt32) :
    (FileTransferState.suffixedName filename index).toList ≠ tempName other streamId := by
  intro h
  rw [tempName_eq] at h
  obtain ⟨stem, -, hfront⟩ := suffixedName_tmp h
  exact numbered_ne_tempFront stem other index streamId hfront.symm

/-- A numbered temporary name keeps what stands before its extension. -/
theorem suffixedName_tempName (filename : List Char) (streamId : UInt32) (index : ℕ) :
    (FileTransferState.suffixedName (tempName filename streamId) index).toList =
      (('.' :: filename ++ '.' :: Nat.toDigits 10 streamId.toNat) ++
        ' ' :: '(' :: (Nat.toDigits 10 index ++ [')'])) ++ '.' :: ['t', 'm', 'p'] := by
  have hsplit : splitExtension (tempName filename streamId) =
      ('.' :: filename ++ '.' :: Nat.toDigits 10 streamId.toNat, some ['t', 'm', 'p']) := by
    rw [tempName_eq, splitExtension, Text.rsplitOnce_append (by decide)]
    rfl
  simp [FileTransferState.suffixedName, hsplit]

/-- The stem can be told from a numbered one. -/
theorem numbered_inj {stem stem' : List Char} {m n : ℕ}
    (h : stem ++ ' ' :: '(' :: (Nat.toDigits 10 m ++ [')']) =
      stem' ++ ' ' :: '(' :: (Nat.toDigits 10 n ++ [')'])) : stem = stem' := by
  have hnotMem : ∀ k, '(' ∉ Nat.toDigits 10 k ++ [')'] := by
    intro k hmem
    obtain hmem | hmem := List.mem_append.mp hmem
    · exact absurd (Nat.isDigit_of_mem_toDigits (by decide) (by decide) hmem) (by decide)
    · exact absurd hmem (by decide)
  have hsplit : ∀ (front : List Char) (k : ℕ),
      Text.rsplitOnce ['('] (front ++ ' ' :: '(' :: (Nat.toDigits 10 k ++ [')'])) =
        some (front ++ [' '], Nat.toDigits 10 k ++ [')']) := by
    intro front k
    rw [← Text.rsplitOnce_append (hnotMem k), List.append_assoc, List.singleton_append]
  have hparts := congrArg (Text.rsplitOnce ['(']) h
  rw [hsplit, hsplit, Option.some.injEq, Prod.mk.injEq] at hparts
  exact List.append_cancel_right hparts.1

/-- If the temporary name of a file is tried for another one, the names of the file are not. -/
theorem candidateName_ne_of_tempName {filename other : List Char} {streamId : UInt32} {k : ℕ}
    (h : (candidateName other k).toList = tempName filename streamId) (i j : ℕ) :
    candidateName filename i ≠ candidateName other j := by
  intro heq
  have hlist := congrArg String.toList heq
  cases k with
  | succ k => exact suffixedName_ne_tempName other filename (k + 1) streamId h
  | zero =>
    rw [candidateName, String.toList_ofList] at h
    subst h
    have hlength : filename.length < (tempName filename streamId).length := by
      simp only [tempName, List.length_cons, List.length_append]
      omega
    have hlonger := length_le_candidateName (tempName filename streamId) j
    cases i with
    | zero =>
      rw [← hlist, candidateName, String.toList_ofList] at hlonger
      omega
    | succ i =>
      cases j with
      | zero =>
        rw [candidateName, candidateName, String.toList_ofList] at hlist
        exact suffixedName_ne_tempName filename filename (i + 1) streamId hlist
      | succ j =>
        -- Both are numbered, so the stem of the first is longer than the whole name.
        rw [candidateName, candidateName, suffixedName_tempName] at hlist
        obtain ⟨stem, hname, hfront⟩ := suffixedName_tmp hlist
        have hstem := congrArg List.length (numbered_inj hfront)
        rw [hname] at hstem
        simp only [List.length_append, List.length_cons] at hstem
        omega

/-! ### The search -/

/-- The numbers from `index` on, counted in 32 bits, until a candidate is free or the given number
of turns is over. -/
def searchFree (taken : String → Bool) (candidate : UInt32 → String) : ℕ → UInt32 → Option String
  | 0, _ => none
  | fuel + 1, index =>
    if taken (candidate index) then searchFree taken candidate fuel (index + 1)
    else some (candidate index)

theorem free_of_searchFree {taken : String → Bool} {candidate : UInt32 → String} {fuel : ℕ}
    {index : UInt32} {path : String} (h : searchFree taken candidate fuel index = some path) :
    taken path = false ∧ ∃ i, path = candidate i := by
  induction fuel generalizing index with
  | zero => cases h
  | succ fuel ih =>
    rw [searchFree] at h
    split at h
    · exact ih h
    · rename_i hfree
      cases h
      exact ⟨Bool.not_eq_true _ ▸ hfree, index, rfl⟩

/-- The search stops at the first free candidate. -/
theorem searchFree_eq {taken : String → Bool} (candidate : ℕ → String) {least : ℕ}
    (hleast : least < 2 ^ 32) (hfree : taken (candidate least) = false) {n index : ℕ}
    (hindex : index + n = least)
    (htaken : ∀ i, index ≤ i → i < least → taken (candidate i) = true) :
    searchFree taken (fun i => candidate i.toNat) (n + 1) (UInt32.ofNat index) =
      some (candidate least) := by
  induction n generalizing index with
  | zero =>
    obtain rfl : index = least := hindex
    rw [searchFree, UInt32.toNat_ofNat_of_lt' hleast, hfree]
    rfl
  | succ n ih =>
    have hlt : index < UInt32.size := lt_of_le_of_lt (by omega : index ≤ least) hleast
    have hnext : UInt32.ofNat index + 1 = UInt32.ofNat (index + 1) :=
      (UInt32.ofNat_add index 1).symm
    rw [searchFree, UInt32.toNat_ofNat_of_lt' hlt, if_pos (htaken index (Nat.le_refl _) (by omega)),
      hnext]
    exact ih (by omega) fun i hi hlt => htaken i (by omega) hlt

namespace FileTransferState

/-- `reserve_destination` with its counter, cut off after a number of turns. -/
def reserveWithin (disk : Disk) (s : FileTransferState) (filename : List Char) (fuel : ℕ) :
    Option String :=
  let candidate := joinPath s.downloadDir (String.ofList filename)
  if destinationIsTaken disk s candidate then
    searchFree (destinationIsTaken disk s)
      (fun index => joinPath s.downloadDir (suffixedName filename index.toNat)) fuel 1
  else some candidate

/-- The number of files present: those in the download directory, and those of the transfer, of
which each is there under one name. -/
noncomputable def present (disk : Disk) (s : FileTransferState) : ℕ :=
  {path | path ∈ disk.existing ∧ IsChild s.downloadDir path}.ncard + s.incomingFiles.length +
    s.completedFiles.length

/-- A reserved path has one of the names that are tried. -/
theorem reserveDestination_eq (disk : Disk) (s : FileTransferState) (filename : List Char) :
    ∃ index, s.reserveDestination disk filename =
      joinPath s.downloadDir (candidateName filename index) := by
  rw [reserveDestination]
  split
  · obtain ⟨i, -, heq, -, -⟩ := firstFree_cases (destinationIsTaken disk s)
      (fun index => joinPath s.downloadDir (suffixedName filename index))
      (disk.existing.length + 2 * s.incomingFiles.length + s.completedFiles.length) 1
    refine ⟨i + 1, ?_⟩
    rw [heq, Nat.add_comm]
    rfl
  · exact ⟨0, rfl⟩

/-- Every file of the transfer has its path and its temporary path from one name. -/
def Planned (s : FileTransferState) : Prop :=
  ∀ f ∈ s.incomingFiles, ∃ filename index streamId,
    f.2.finalPath = joinPath s.downloadDir (candidateName filename index) ∧
      f.2.tempPath = joinPath s.downloadDir (String.ofList (tempName filename streamId))

/-- The path at which a file of the transfer stands in the way of some candidates: its own if that
is among them, or else the one of its temporary file. -/
def obstacle (candidates : Finset String) (f : UInt32 × IncomingFile) : String :=
  if f.2.finalPath ∈ candidates then f.2.finalPath else f.2.tempPath

/-- No file of the transfer stands in the way of two candidates. -/
theorem obstacle_eq {s : FileTransferState} (hplanned : s.Planned) {filename : List Char}
    {candidates : Finset String}
    (hcandidates : ∀ path ∈ candidates, ∃ i,
      path = joinPath s.downloadDir (candidateName filename i))
    {f : UInt32 × IncomingFile} (hf : f ∈ s.incomingFiles) {path : String}
    (hpath : path ∈ candidates) (heq : f.2.finalPath = path ∨ f.2.tempPath = path) :
    obstacle candidates f = path := by
  obtain ⟨other, i, streamId, hfinal, htemp⟩ := hplanned f hf
  rw [obstacle]
  split_ifs with hmem
  · obtain heq | heq := heq
    · exact heq
    · exfalso
      obtain ⟨j, hj⟩ := hcandidates _ hmem
      obtain ⟨k, hk⟩ := hcandidates _ hpath
      have hname : (candidateName filename k).toList = tempName other streamId := by
        rw [← joinPath_injective _ (htemp.symm.trans (heq.trans hk)), String.toList_ofList]
      exact candidateName_ne_of_tempName hname i j (joinPath_injective _ (hfinal.symm.trans hj))
  · obtain rfl | heq := heq
    · exact absurd hpath hmem
    · exact heq

/-- Every candidate in use is there, complete, or in the way of one file of the transfer. -/
theorem candidates_subset {disk : Disk} {s : FileTransferState} (hplanned : s.Planned)
    {filename : List Char} {candidates : Finset String}
    (hcandidates : ∀ path ∈ candidates, ∃ i,
      path = joinPath s.downloadDir (candidateName filename i))
    (htaken : ∀ path ∈ candidates, path ∈ s.usedPaths disk) :
    candidates ⊆ candidates.filter (· ∈ disk.existing) ∪ s.completedFiles.toFinset ∪
      (s.incomingFiles.map (obstacle candidates)).toFinset := by
  intro path hpath
  have hobstacle : ∀ f ∈ s.incomingFiles, f.2.finalPath = path ∨ f.2.tempPath = path →
      path ∈ (s.incomingFiles.map (obstacle candidates)).toFinset := by
    intro f hf heq
    rw [List.mem_toFinset]
    exact List.mem_map.mpr ⟨f, hf, obstacle_eq hplanned hcandidates hf hpath heq⟩
  have hused := htaken path hpath
  simp only [usedPaths, List.mem_append] at hused
  rw [Finset.mem_union, Finset.mem_union]
  obtain ((hexisting | htemp) | hcompleted) | hfinal := hused
  · exact Or.inl (Or.inl (Finset.mem_filter.mpr ⟨hpath, hexisting⟩))
  · obtain ⟨f, hf, heq⟩ := List.mem_map.mp htemp
    exact Or.inr (hobstacle f hf (Or.inr heq))
  · exact Or.inl (Or.inr (List.mem_toFinset.mpr hcompleted))
  · obtain ⟨f, hf, heq⟩ := List.mem_map.mp hfinal
    exact Or.inr (hobstacle f hf (Or.inl heq))

/-- No more candidates are in use than there are files present. -/
theorem card_le_present {disk : Disk} {s : FileTransferState} (hplanned : s.Planned)
    {filename : List Char} (hname : IsName filename) {candidates : Finset String}
    (hcandidates : ∀ path ∈ candidates, ∃ i,
      path = joinPath s.downloadDir (candidateName filename i))
    (htaken : ∀ path ∈ candidates, path ∈ s.usedPaths disk) :
    candidates.card ≤ s.present disk := by
  have hexisting : (candidates.filter (· ∈ disk.existing)).card ≤
      {path | path ∈ disk.existing ∧ IsChild s.downloadDir path}.ncard := by
    rw [← Set.ncard_coe_finset]
    refine Set.ncard_le_ncard ?_ (disk.existing.finite_toSet.subset fun _ h => h.1)
    intro path hpath
    obtain ⟨hmem, hthere⟩ := Finset.mem_filter.mp (Finset.mem_coe.mp hpath)
    obtain ⟨i, hi⟩ := hcandidates path hmem
    exact ⟨hthere, _, isName_candidateName hname i, by rw [hi, String.ofList_toList]⟩
  have hincoming := List.toFinset_card_le (s.incomingFiles.map (obstacle candidates))
  rw [List.length_map] at hincoming
  calc candidates.card
      ≤ (candidates.filter (· ∈ disk.existing) ∪ s.completedFiles.toFinset ∪
          (s.incomingFiles.map (obstacle candidates)).toFinset).card :=
        Finset.card_le_card (candidates_subset hplanned hcandidates htaken)
    _ ≤ (candidates.filter (· ∈ disk.existing)).card + s.completedFiles.toFinset.card +
          (s.incomingFiles.map (obstacle candidates)).toFinset.card :=
        (Finset.card_union_le _ _).trans (Nat.add_le_add_right (Finset.card_union_le _ _) _)
    _ ≤ s.present disk := by
        have hcompleted := List.toFinset_card_le s.completedFiles
        rw [present]
        omega

/-- **One of as many candidates as there are files present, and one more, is free.** -/
theorem exists_free {disk : Disk} {s : FileTransferState} (hplanned : s.Planned)
    {filename : List Char} (hname : IsName filename) {n : ℕ} (h : s.present disk < n) :
    ∃ i < n, destinationIsTaken disk s (joinPath s.downloadDir (candidateName filename i)) =
      false := by
  by_contra hall
  push Not at hall
  have hcard : ((Finset.range n).image fun i =>
      joinPath s.downloadDir (candidateName filename i)).card = n := by
    rw [Finset.card_image_of_injective, Finset.card_range]
    exact (joinPath_injective _).comp (candidateName_injective filename)
  refine absurd (card_le_present hplanned hname ?_ ?_) (Nat.not_le.mpr (hcard.symm ▸ h))
  · intro path hpath
    obtain ⟨i, -, rfl⟩ := Finset.mem_image.mp hpath
    exact ⟨i, rfl⟩
  · intro path hpath
    obtain ⟨i, hi, rfl⟩ := Finset.mem_image.mp hpath
    exact mem_usedPaths.mpr (Bool.eq_true_of_not_eq_false (hall i (Finset.mem_range.mp hi)))

/-- **The search with its counter ends** if fewer than `2 ^ 32` files are present, and finds the
path that is reserved. -/
theorem reserveWithin_ends {disk : Disk} {s : FileTransferState} (hplanned : s.Planned)
    {filename : List Char} (hname : IsName filename) (h : s.present disk < 2 ^ 32) :
    ∃ fuel, s.reserveWithin disk filename fuel = some (s.reserveDestination disk filename) := by
  have hreserved := reserveDestination_free disk s filename
  rw [mem_usedPaths, Bool.not_eq_true] at hreserved
  rw [reserveDestination] at hreserved ⊢
  simp only [reserveWithin]
  split_ifs at hreserved ⊢ with htaken
  · obtain ⟨i, -, heq, hall, -⟩ := firstFree_cases (destinationIsTaken disk s)
      (fun index => joinPath s.downloadDir (suffixedName filename index))
      (disk.existing.length + 2 * s.incomingFiles.length + s.completedFiles.length) 1
    rw [heq] at hreserved ⊢
    -- A free candidate below the bound is not before the first one.
    have hbound : 1 + i < 2 ^ 32 := by
      obtain ⟨m, hm, hfree⟩ := exists_free hplanned hname h
      cases m with
      | zero => exact absurd (htaken.symm.trans hfree) (by decide)
      | succ m =>
        by_contra hge
        have hbefore := hall m (by omega)
        rw [Nat.add_comm] at hbefore
        exact absurd (hbefore.symm.trans hfree) (by decide)
    have hbefore : ∀ k, 1 ≤ k → k < 1 + i →
        destinationIsTaken disk s (joinPath s.downloadDir (suffixedName filename k)) = true := by
      intro k hk hlt
      obtain ⟨j, rfl⟩ := Nat.exists_eq_add_of_le hk
      exact hall j (by omega)
    exact ⟨i + 1, searchFree_eq (fun index => joinPath s.downloadDir (suffixedName filename index))
      hbound hreserved rfl hbefore⟩
  · exact ⟨0, rfl⟩

/-- What the search finds is a free path in the directory, however long it took. -/
theorem of_reserveWithin {disk : Disk} {s : FileTransferState} {filename : List Char}
    (hname : IsName filename) {fuel : ℕ} {path : String}
    (h : s.reserveWithin disk filename fuel = some path) :
    IsChild s.downloadDir path ∧ path ∉ s.usedPaths disk := by
  simp only [reserveWithin] at h
  rw [mem_usedPaths, Bool.not_eq_true]
  split_ifs at h with htaken
  · obtain ⟨hfree, index, rfl⟩ := free_of_searchFree h
    exact ⟨⟨_, isName_suffixedName hname index.toNat, by rw [String.ofList_toList]⟩, hfree⟩
  · cases h
    exact ⟨⟨filename, hname, rfl⟩, Bool.not_eq_true _ ▸ htaken⟩

/-- A reserved path is in the directory. -/
theorem isChild_reserveDestination (disk : Disk) (s : FileTransferState) {filename : List Char}
    (hname : IsName filename) : IsChild s.downloadDir (s.reserveDestination disk filename) := by
  obtain ⟨index, heq⟩ := reserveDestination_eq disk s filename
  rw [heq]
  exact ⟨_, isName_candidateName hname index, by rw [String.ofList_toList]⟩

end FileTransferState

/-! ### A transfer -/

/-- A path that nothing uses: it is in the directory, not there, and promised to no other file of
the transfer. -/
structure Free (disk : Disk) (files : FileTransferState) (path : String) : Prop where
  child : IsChild files.downloadDir path
  existing : path ∉ disk.existing ++ files.tempPaths
  completed : path ∉ files.completedFiles
  incoming : path ∉ files.incomingFiles.map fun f => f.2.finalPath

theorem free_of_notMem {disk : Disk} {files : FileTransferState} {path : String}
    (hchild : IsChild files.downloadDir path) (h : path ∉ files.usedPaths disk) :
    Free disk files path := by
  simp only [FileTransferState.usedPaths, List.mem_append, not_or] at h
  obtain ⟨⟨⟨hexisting, htemp⟩, hcompleted⟩, hincoming⟩ := h
  refine ⟨hchild, ?_, hcompleted, hincoming⟩
  rw [List.mem_append, not_or]
  exact ⟨hexisting, htemp⟩

/-- A reservation: the state it is made in, and the name it is made for. -/
structure Reservation where
  files : FileTransferState
  filename : List Char

namespace Reservation

/-- Where the file is to be written. -/
def path (disk : Disk) (r : Reservation) : String := r.files.reserveDestination disk r.filename

/-- The reserved path is free, and so is whatever the search with its counter finds; with fewer than
`2 ^ 32` files present it ends, and finds the reserved path. -/
structure Sound (disk : Disk) (r : Reservation) : Prop where
  free : Free disk r.files (r.path disk)
  search : ∀ fuel path, r.files.reserveWithin disk r.filename fuel = some path →
    Free disk r.files path
  ends : r.files.present disk < 2 ^ 32 →
    ∃ fuel, r.files.reserveWithin disk r.filename fuel = some (r.path disk)

theorem sound_of_planned (disk : Disk) {r : Reservation} (hplanned : r.files.Planned)
    (hname : IsName r.filename) : r.Sound disk where
  free := free_of_notMem (r.files.isChild_reserveDestination disk hname)
    (r.files.reserveDestination_free disk r.filename)
  search _ _ h := by
    obtain ⟨hchild, hfree⟩ := FileTransferState.of_reserveWithin hname h
    exact free_of_notMem hchild hfree
  ends h := FileTransferState.reserveWithin_ends hplanned hname h

end Reservation

/-- The reservations that are made while files are requested. -/
def reservations (env : Env) : ℕ → List FileDescriptor → Session → List Reservation
  | _, [], _ => []
  | index, descriptor :: rest, s =>
    ⟨s.orch.files.allocateStreamId.2, sanitizeFilenameForLinux descriptor.name⟩ ::
      reservations env (index + 1) rest ((requestFile env index descriptor).run s).2

/-- The files of a transfer have reserved paths, and no two of them the same. -/
structure Destined (disk : Disk) (reserved : List Reservation) (files : FileTransferState) :
    Prop where
  reserved : ∀ f ∈ files.incomingFiles, f.2.finalPath ∈ reserved.map (Reservation.path disk)
  child : ∀ f ∈ files.incomingFiles, IsChild files.downloadDir f.2.finalPath
  existing : ∀ f ∈ files.incomingFiles, f.2.finalPath ∉ disk.existing
  distinct : (files.completedFiles ++ files.incomingFiles.map fun f => f.2.finalPath).Nodup

/-- A transfer whose files are being requested. -/
structure Underway (disk : Disk) (reserved : List Reservation) (files : FileTransferState) :
    Prop where
  fresh : Reception.Fresh files
  planned : files.Planned
  destined : Destined disk reserved files

variable {env : Env} {s : Session} {reserved : List Reservation}

theorem Underway.allocateStreamId {disk : Disk} {files : FileTransferState}
    (h : Underway disk reserved files) : Underway disk reserved files.allocateStreamId.2 :=
  ⟨Reception.fresh_allocateStreamId h.fresh, h.planned, h.destined.reserved, h.destined.child,
    h.destined.existing, h.destined.distinct⟩

/-- Another reservation takes nothing away. -/
theorem Underway.reserve {disk : Disk} {files : FileTransferState}
    (h : Underway disk reserved files) (r : Reservation) :
    Underway disk (reserved ++ [r]) files := by
  refine ⟨h.fresh, h.planned, ?_, h.destined.child, h.destined.existing, h.destined.distinct⟩
  intro f hf
  rw [List.map_append]
  exact List.mem_append_left _ (h.destined.reserved f hf)

/-- A file is opened at the path of the last reservation. -/
theorem Underway.insertIncoming {disk : Disk} {files : FileTransferState}
    (h : Underway disk reserved files) {streamId : UInt32} {file : IncomingFile} {name : List Char}
    (hfresh : Reception.Fresh (files.insertIncoming streamId file)) (hname : IsName name)
    (hfinal : file.finalPath = files.reserveDestination disk name)
    (htemp : file.tempPath = files.tempPath name streamId) :
    Underway disk (reserved ++ [⟨files, name⟩]) (files.insertIncoming streamId file) := by
  have hsound := Reservation.sound_of_planned disk (r := ⟨files, name⟩) h.planned hname
  refine ⟨hfresh, ?_, ?_, ?_, ?_, hfresh.distinct.paths⟩
  · intro f hf
    obtain rfl | ⟨hold, -⟩ := FileTransferState.mem_insertIncoming.mp hf
    · obtain ⟨index, hindex⟩ := FileTransferState.reserveDestination_eq disk files name
      exact ⟨name, index, streamId, hfinal.trans hindex,
        htemp.trans (tempPath_eq files name streamId)⟩
    · exact h.planned f hold
  · intro f hf
    obtain rfl | ⟨hold, -⟩ := FileTransferState.mem_insertIncoming.mp hf
    · rw [List.map_append, hfinal]
      exact List.mem_append_right _ (List.mem_singleton_self _)
    · exact (h.reserve _).destined.reserved f hold
  · intro f hf
    obtain rfl | ⟨hold, -⟩ := FileTransferState.mem_insertIncoming.mp hf
    · exact hfinal ▸ hsound.free.child
    · exact h.destined.child f hold
  · intro f hf
    obtain rfl | ⟨hold, -⟩ := FileTransferState.mem_insertIncoming.mp hf
    · rw [hfinal]
      exact fun hmem => hsound.free.existing (List.mem_append_left _ hmem)
    · exact h.destined.existing f hold

/-- **One file** is reserved for, and received at the reserved path if it could be opened. -/
theorem underway_requestFile (h : Underway env.disk reserved s.orch.files) (index : ℕ)
    (descriptor : FileDescriptor) :
    Underway env.disk (reserved ++
        [⟨s.orch.files.allocateStreamId.2, sanitizeFilenameForLinux descriptor.name⟩])
      ((requestFile env index descriptor).run s).2.orch.files := by
  have hfresh : Reception.Fresh ((requestFile env index descriptor).run s).2.orch.files :=
    Reception.fresh_requestFile h.fresh index descriptor
  obtain hfiles | hfiles := Reception.requestFile_opened env s index descriptor
  · rw [hfiles]
    exact h.allocateStreamId.reserve _
  · rw [hfiles] at hfresh ⊢
    exact h.allocateStreamId.insertIncoming hfresh (isName_sanitizeFilenameForLinux _) rfl rfl

/-- **All files of a list** are, each with a sound reservation. -/
theorem underway_requestFiles (h : Underway env.disk reserved s.orch.files) (index : ℕ)
    (descriptors : List FileDescriptor) :
    (∀ r ∈ reservations env index descriptors s, r.Sound env.disk) ∧
      Underway env.disk (reserved ++ reservations env index descriptors s)
        ((requestFiles env index descriptors).run s).2.orch.files := by
  induction descriptors generalizing index s reserved with
  | nil =>
    rw [reservations, List.append_nil]
    exact ⟨fun r hr => absurd hr List.not_mem_nil, h⟩
  | cons descriptor rest ih =>
    obtain ⟨hall, hrest⟩ := ih (underway_requestFile h index descriptor) (index + 1)
    rw [reservations, run_requestFiles_cons]
    constructor
    · intro r hr
      obtain rfl | hr := List.mem_cons.mp hr
      · exact Reservation.sound_of_planned env.disk h.planned (isName_sanitizeFilenameForLinux _)
      · exact hall r hr
    · rwa [List.append_assoc] at hrest

/-- **The destinations of a transfer never collide or escape**: every path that is reserved is a
direct child of the download directory and free, the search for it ends if fewer than `2 ^ 32` files
are present, and the files of the transfer have reserved paths, all different. -/
theorem reservations_sound {o : Orchestrator} (hidle : o.files.incomingFiles = [])
    (hsender : env.sender ≠ .unregistered) (serial : UInt32) (mime : String)
    (descriptors : List FileDescriptor) :
    let reserved := reservations env 0 descriptors (beginTransfer ⟨o, []⟩ serial descriptors)
    (∀ r ∈ reserved, r.Sound env.disk) ∧
      Destined env.disk reserved
        ((startFileTransfer env serial mime descriptors).run ⟨o, []⟩).2.orch.files := by
  have hnone : ∀ f : UInt32 × IncomingFile, f ∉ ([] : List (UInt32 × IncomingFile)) :=
    fun _ => List.not_mem_nil
  have hbegin : Underway env.disk [] (beginTransfer ⟨o, []⟩ serial descriptors).orch.files :=
    ⟨⟨⟨List.nodup_nil, List.nodup_nil⟩, rfl, fun f hf => absurd hf (hnone f)⟩,
      fun f hf => absurd hf (hnone f), fun f hf => absurd hf (hnone f),
      fun f hf => absurd hf (hnone f), fun f hf => absurd hf (hnone f), List.nodup_nil⟩
  obtain ⟨hsound, hunderway⟩ := underway_requestFiles hbegin 0 descriptors
  rw [run_startFileTransfer_idle hidle hsender]
  exact ⟨hsound, hunderway.destined⟩

/-- A download directory with one file in it. -/
def occupiedDisk : Disk := { sampleDisk with existing := ["/home/user/Downloads/a_b.txt"] }

/-- Names that become the same, a name that looks numbered, and one that leads upwards. -/
def collidingFiles : List FileDescriptor :=
  [⟨0x40, 0, none, none, none, some 2, "a/b.txt".toList⟩,
    ⟨0x40, 0, none, none, none, some 2, "a\\b.txt".toList⟩,
    ⟨0x40, 0, none, none, none, some 2, "a_b (1).txt".toList⟩,
    ⟨0x40, 0, none, none, none, some 2, "..".toList⟩]

/-- All of them are received under names of their own. -/
theorem collidingFiles_sound :
    let env := { sampleEnv with disk := occupiedDisk }
    let o := Orchestrator.new sampleConfig "/home/user/Downloads"
    let reserved := reservations env 0 collidingFiles (beginTransfer ⟨o, []⟩ 7 collidingFiles)
    ((∀ r ∈ reserved, r.Sound occupiedDisk) ∧
      Destined occupiedDisk reserved
        ((startFileTransfer env 7 "text/uri-list" collidingFiles).run ⟨o, []⟩).2.orch.files) ∧
      reserved.map (Reservation.path occupiedDisk) =
        ["/home/user/Downloads/a_b (1).txt", "/home/user/Downloads/a_b (2).txt",
          "/home/user/Downloads/a_b (1) (1).txt", "/home/user/Downloads/_unnamed_"] :=
  ⟨reservations_sound rfl (by decide) 7 "text/uri-list" collidingFiles, by decide +kernel⟩

end Clipboard

end Cheirizo
