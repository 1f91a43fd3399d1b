import Cheirizo.Lib.Path
import Mathlib.Data.List.Dedup

/-!
# Directory trees

A file system as a process sees it: directories with their entries, the places a path walks
through, and the removal of an entry that is not a directory. Where a name leads is fixed, symbolic
links included, as long as the name is listed.

## Main definitions

* `FileSystem` — directories, their entries, and where the names in them lead
* `FileSystem.walk`, `openDir`, `locate` — the directory and the entry a path stands for
* `FileSystem.removeFile` — the removal of the entry of a path

## Main results

* `FileSystem.walk_remove` — a walk ends where the removed entry was on its way, and is the same
  elsewhere
-/

namespace Cheirizo

/-- A name as the system has it; not every name is text. -/
inductive OsString
  | text (name : List Char)
  | raw (bytes : List UInt8)
  deriving DecidableEq

/-- What an entry of a directory is. -/
inductive EntryKind
  | directory
  /-- Anything that can be removed by itself: files, sockets, symbolic links. -/
  | other
  deriving DecidableEq

/-- An entry, as reading its directory lists it. -/
structure DirEntry where
  name : OsString
  kind : EntryKind
  deriving DecidableEq

/-- Why an operation fails, as far as programs tell. -/
inductive IoErrorKind
  | notFound
  | other
  deriving DecidableEq

/-- The directories of a system, with the entries of each. -/
structure FileSystem (Dir : Type) where
  root : Dir
  cwd : Dir
  parent : Dir → Dir
  entries : Dir → List DirEntry
  /-- The directory that a listed name leads to, by itself or as a link. -/
  target : Dir → List Char → Except IoErrorKind Dir
  parent_root : parent root = root
  parent_target : ∀ d name d', ⟨.text name, .directory⟩ ∈ entries d → target d name = .ok d' →
    parent d' = d
  nodup : ∀ d, ((entries d).map DirEntry.name).Nodup
  names : ∀ d kind name, ⟨.text name, kind⟩ ∈ entries d →
    Path.IsName name ∧ '/' ∉ name ∧ '\x00' ∉ name

namespace FileSystem

variable {Dir : Type}

/-- The entry of a name. -/
def find (fs : FileSystem Dir) (d : Dir) (name : List Char) : Option DirEntry :=
  (fs.entries d).find? (·.name = .text name)

/-- The directory that a name leads to. -/
def child (fs : FileSystem Dir) (d : Dir) (name : List Char) : Except IoErrorKind Dir :=
  if (fs.find d name).isSome then fs.target d name else .error .notFound

/-- One part of a path. The parent of a directory need not be one of its entries. -/
def step (fs : FileSystem Dir) (d : Dir) (part : List Char) : Except IoErrorKind Dir :=
  if part = ['.', '.'] then .ok (fs.parent d) else fs.child d part

/-- Where a sequence of names and double dots leads. -/
def walk (fs : FileSystem Dir) : Dir → List (List Char) → Except IoErrorKind Dir
  | d, [] => .ok d
  | d, part :: parts => (fs.step d part).bind fun d' => fs.walk d' parts

/-- Where a walk along a path begins. -/
def start (fs : FileSystem Dir) (path : List Char) : Dir :=
  if Path.IsAbsolute path then fs.root else fs.cwd

/-- The directory of a path. -/
def openDir (fs : FileSystem Dir) (path : List Char) : Except IoErrorKind Dir :=
  if '\x00' ∈ path then .error .other
  else if path = [] then .error .notFound
  else fs.walk (fs.start path) (Path.components path)

/-- The directory and the name of the entry a path stands for. A path that does not end with a
name, as one with a trailing separator, may be a directory, which is not an entry to remove. -/
def locate (fs : FileSystem Dir) (path : List Char) : Except IoErrorKind (Dir × List Char) :=
  if '\x00' ∈ path then .error .other
  else if Path.IsName (Path.last path) then
    (fs.walk (fs.start path) (Path.directoryParts path)).map fun d => (d, Path.last path)
  else (fs.openDir path).bind fun _ => .error .other

/-- The system without an entry. -/
def remove [DecidableEq Dir] (fs : FileSystem Dir) (d : Dir) (name : List Char) :
    FileSystem Dir where
  root := fs.root
  cwd := fs.cwd
  parent := fs.parent
  entries d' := if d' = d then (fs.entries d').filter (·.name ≠ .text name) else fs.entries d'
  target := fs.target
  parent_root := fs.parent_root
  parent_target d' name' d'' h := fs.parent_target d' name' d'' (by
    split_ifs at h
    · exact List.mem_of_mem_filter h
    · exact h)
  nodup d' := by
    split_ifs
    · exact (fs.nodup d').sublist (List.filter_sublist.map _)
    · exact fs.nodup d'
  names d' kind name' h := fs.names d' kind name' (by
    split_ifs at h
    · exact List.mem_of_mem_filter h
    · exact h)

/-- The removal of the entry a path stands for, which may not be a directory. -/
def removeFile [DecidableEq Dir] (fs : FileSystem Dir) (path : List Char) :
    Except IoErrorKind (FileSystem Dir) :=
  (fs.locate path).bind fun (d, name) =>
    match fs.find d name with
    | none => .error .notFound
    | some ⟨_, .directory⟩ => .error .other
    | some ⟨_, .other⟩ => .ok (fs.remove d name)

/-! ### Entries -/

section Entries

variable {fs : FileSystem Dir} {d d' : Dir} {name : List Char} {e : DirEntry}

/-- The entries of a directory have different names. -/
theorem eq_of_name {e' : DirEntry} (he : e ∈ fs.entries d) (he' : e' ∈ fs.entries d)
    (h : e.name = e'.name) : e = e' :=
  List.inj_on_of_nodup_map (fs.nodup d) he he' h

theorem name_eq_iff {d₀ : Dir} {kind : EntryKind} (hentry : ⟨.text name, kind⟩ ∈ fs.entries d₀)
    (he : e ∈ fs.entries d) :
    d = d₀ ∧ e.name = .text name ↔ d = d₀ ∧ e = ⟨.text name, kind⟩ := by
  refine and_congr_right fun hd => ⟨fun h => ?_, fun h => by rw [h]⟩
  exact eq_of_name (hd ▸ he) hentry h

/-- What is found has the name. -/
theorem find_eq_some_iff : fs.find d name = some e ↔ e ∈ fs.entries d ∧ e.name = .text name := by
  constructor
  · intro h
    exact ⟨List.mem_of_find?_eq_some h, by simpa using List.find?_some h⟩
  · rintro ⟨he, hname⟩
    obtain ⟨found, hfound⟩ : ∃ found, fs.find d name = some found :=
      Option.isSome_iff_exists.mp (List.find?_isSome.mpr ⟨e, he, by simp [hname]⟩)
    have hfound' : found.name = .text name := by simpa using List.find?_some hfound
    rw [hfound, eq_of_name (List.mem_of_find?_eq_some hfound) he (hfound'.trans hname.symm)]

/-- Nothing is found if nothing has the name. -/
theorem find_eq_none_iff : fs.find d name = none ↔ ∀ e ∈ fs.entries d, e.name ≠ .text name := by
  simp [find]

/-- A listed name leads where the file system says. -/
theorem child_of_mem (kind : EntryKind) (h : ⟨.text name, kind⟩ ∈ fs.entries d) :
    fs.child d name = fs.target d name := by
  rw [child, find_eq_some_iff.mpr ⟨h, rfl⟩]
  rfl

variable [DecidableEq Dir]

/-- Only the one entry is gone. -/
theorem mem_remove : e ∈ (fs.remove d name).entries d' ↔
    e ∈ fs.entries d' ∧ ¬ (d' = d ∧ e.name = .text name) := by
  change e ∈ (if d' = d then (fs.entries d').filter (·.name ≠ .text name) else fs.entries d') ↔ _
  split_ifs with h
  · simp [h]
  · simp [h]

/-- Only the one name leads nowhere. -/
theorem child_remove (name' : List Char) : (fs.remove d name).child d' name' =
    if d' = d ∧ name' = name then .error .notFound else fs.child d' name' := by
  have hfind : ((fs.remove d name).find d' name').isSome =
      ((fs.find d' name').isSome && !decide (d' = d ∧ name' = name)) := by
    rw [Bool.eq_iff_iff]
    simp only [find, List.find?_isSome, mem_remove, decide_eq_true_eq, Bool.and_eq_true,
      Bool.not_eq_true', decide_eq_false_iff_not]
    constructor
    · rintro ⟨e, ⟨he, hnot⟩, hname⟩
      rw [hname, OsString.text.injEq] at hnot
      exact ⟨⟨e, he, hname⟩, hnot⟩
    · rintro ⟨⟨e, he, hname⟩, hnot⟩
      refine ⟨e, ⟨he, ?_⟩, hname⟩
      rwa [hname, OsString.text.injEq]
  rw [child, child, hfind]
  by_cases h : d' = d ∧ name' = name
  · simp [h]
  · simp [h, remove]

end Entries

/-! ### Walks -/

section Walk

variable {fs : FileSystem Dir} {d₀ d : Dir} {name : List Char} {parts : List (List Char)}

/-- An entry that a walk goes through. -/
def Passes (fs : FileSystem Dir) (d₀ : Dir) (parts : List (List Char)) (d : Dir)
    (name : List Char) : Prop :=
  ∃ before after, parts = before ++ name :: after ∧ fs.walk d₀ before = .ok d

theorem not_passes_nil : ¬ fs.Passes d₀ [] d name := by
  rintro ⟨before, after, h, -⟩
  cases before <;> cases h

/-- A walk passes an entry in its first step or after it. -/
theorem passes_cons_iff {part : List Char} : fs.Passes d₀ (part :: parts) d name ↔
    part = name ∧ d₀ = d ∨ ∃ d₁, fs.step d₀ part = .ok d₁ ∧ fs.Passes d₁ parts d name := by
  constructor
  · rintro ⟨before, after, h, hwalk⟩
    cases before with
    | nil =>
      cases h
      cases hwalk
      exact Or.inl ⟨rfl, rfl⟩
    | cons part' before =>
      cases h
      rw [walk] at hwalk
      cases hstep : fs.step d₀ part with
      | error e =>
        rw [hstep] at hwalk
        cases hwalk
      | ok d₁ =>
        rw [hstep] at hwalk
        exact Or.inr ⟨d₁, rfl, before, after, rfl, hwalk⟩
  · rintro (⟨rfl, rfl⟩ | ⟨d₁, hstep, before, after, rfl, hwalk⟩)
    · exact ⟨[], parts, rfl, rfl⟩
    · refine ⟨part :: before, after, rfl, ?_⟩
      rw [walk, hstep]
      exact hwalk

variable [DecidableEq Dir]

/-- A step over the removed entry ends there, and the others are the same. -/
theorem step_remove {part : List Char} (hname : Path.IsName name) (d₁ : Dir) :
    (fs.remove d name).step d₁ part =
      if part = name ∧ d₁ = d then .error .notFound else fs.step d₁ part := by
  rw [step, step]
  by_cases hdots : part = ['.', '.']
  · have hne : part ≠ name := fun h => hname.2.2 (h ▸ hdots)
    simp [hdots, remove, hdots ▸ hne]
  · rw [if_neg hdots, if_neg hdots, child_remove]
    simp only [and_comm]

/-- Without an entry, a walk through it finds nothing, and another walk does not change. -/
theorem walk_remove (fs : FileSystem Dir) (d₀ : Dir) (parts : List (List Char))
    (hname : Path.IsName name) :
    fs.Passes d₀ parts d name ∧ (fs.remove d name).walk d₀ parts = .error .notFound ∨
      ¬ fs.Passes d₀ parts d name ∧ (fs.remove d name).walk d₀ parts = fs.walk d₀ parts := by
  induction parts generalizing d₀ with
  | nil => exact Or.inr ⟨not_passes_nil, rfl⟩
  | cons part parts ih =>
    rw [passes_cons_iff, walk, walk, step_remove hname]
    split_ifs with h
    · exact Or.inl ⟨Or.inl h, rfl⟩
    · cases hstep : fs.step d₀ part with
      | error e => exact Or.inr ⟨by simp [h], rfl⟩
      | ok d₁ => simpa [h, Except.bind] using ih d₁

/-- A walk that does not pass the entry passes what it did. -/
theorem passes_remove {name' : List Char} (hname : Path.IsName name)
    (h : ¬ fs.Passes d₀ parts d name) :
    (fs.remove d name).Passes d₀ parts d name' ↔ fs.Passes d₀ parts d name' := by
  refine exists_congr fun before => exists_congr fun after => and_congr_right fun hparts => ?_
  obtain ⟨⟨before', after', hbefore, hwalk⟩, -⟩ | ⟨-, hwalk⟩ :=
    walk_remove fs d₀ before (d := d) hname
  · refine absurd ⟨before', after' ++ name' :: after, ?_, hwalk⟩ h
    rw [hparts, hbefore, List.append_assoc]
    rfl
  · rw [hwalk]

end Walk

/-! ### Locations -/

section Locate

variable {fs : FileSystem Dir} {d : Dir} {name path : List Char}

/-- A path is located if its directory can be walked to and it ends in a name. -/
theorem locate_eq_ok_iff : fs.locate path = .ok (d, name) ↔
    '\x00' ∉ path ∧ Path.IsName (Path.last path) ∧
      fs.walk (fs.start path) (Path.directoryParts path) = .ok d ∧ Path.last path = name := by
  rw [locate]
  split_ifs with hnul hlast
  · simp [hnul]
  · cases fs.walk (fs.start path) (Path.directoryParts path) with
    | error e => simp [Except.map]
    | ok d' => simp [Except.map, hnul, hlast]
  · cases fs.openDir path with
    | error e => simp [Except.bind, hlast]
    | ok d' => simp [Except.bind, hlast]

theorem nul_notMem_of_openDir (fs : FileSystem Dir) (h : fs.openDir path ≠ .error .other) :
    '\x00' ∉ path :=
  fun hnul => h (if_pos hnul)

/-- A name joined to the path of a directory stands for the entry there. -/
theorem locate_join (fs : FileSystem Dir) {dir : List Char} (hdir : dir ≠ []) (hnul : '\x00' ∉ dir)
    (hname : Path.IsName name) (hslash : '/' ∉ name) (hnul' : '\x00' ∉ name) :
    fs.locate (Path.join dir name) = (fs.openDir dir).map fun d => (d, name) := by
  obtain ⟨dir', hjoin, hcomponents, habsolute, hmem⟩ := Path.join_cut hdir name
  have hnul'' : '\x00' ∉ Path.join dir name := by
    rw [hjoin]
    simpa using ⟨fun h => hnul (hmem _ h), hnul'⟩
  have hlast : Path.last (Path.join dir name) = name := by
    rw [hjoin, Path.last_cut hslash]
  rw [locate, if_neg hnul'', hlast, if_pos hname, openDir, if_neg hnul, if_neg hdir, start, start,
    if_congr habsolute rfl rfl, hjoin, Path.directoryParts_cut hslash, hcomponents]

/-- The directory of a path without an entry. -/
theorem openDir_remove [DecidableEq Dir] (d : Dir) {d₀ : Dir} (hname : Path.IsName name)
    (hopen : fs.openDir path = .ok d₀) :
    fs.Passes (fs.start path) (Path.components path) d name ∧
        (fs.remove d name).openDir path = .error .notFound ∨
      ¬ fs.Passes (fs.start path) (Path.components path) d name ∧
        (fs.remove d name).openDir path = .ok d₀ := by
  unfold openDir at hopen ⊢
  split_ifs at hopen ⊢ with hnul hpath
  rw [← hopen]
  exact walk_remove fs _ _ hname

end Locate

/-! ### The tree of a path

The directories of the tree are the sequences of names below the root, innermost first. The names
on the path lead one level down wherever the path could still need them, and the place where the
path ends has the entry it stands for, before all others. -/

section OfPath

/-- Where a sequence of names and double dots leads in a tree that has all of them. -/
def climb : List (List Char) → List (List Char) → List (List Char)
  | d, [] => d
  | d, part :: parts => climb (if part = ['.', '.'] then d.tail else part :: d) parts

/-- The names of the directories at a place, as far as they are on the path. -/
def pathNames (path : List Char) (d : List (List Char)) : List (List Char) :=
  if d.length < (Path.directoryParts path).length then
    ((Path.directoryParts path).filter fun part =>
      part ≠ ['.', '.'] ∧ (d = climb [] (Path.directoryParts path) → part ≠ Path.last path)).dedup
  else []

variable {path : List Char}

/-- The names that a path needs in a directory. -/
theorem mem_pathNames {d : List (List Char)} {part : List Char} :
    part ∈ pathNames path d ↔ d.length < (Path.directoryParts path).length ∧
      part ∈ Path.directoryParts path ∧ part ≠ ['.', '.'] ∧
        (d = climb [] (Path.directoryParts path) → part ≠ Path.last path) := by
  unfold pathNames
  split_ifs with h <;> simp [h, imp_iff_not_or]

theorem nodup_pathNames (d : List (List Char)) : (pathNames path d).Nodup := by
  unfold pathNames
  split_ifs
  · exact List.nodup_dedup _
  · exact List.nodup_nil

/-- The directories at a place, after the entry of the path where that is. -/
def pathEntries (path : List Char) (d : List (List Char)) : List DirEntry :=
  (if d = climb [] (Path.directoryParts path) then [⟨.text (Path.last path), .other⟩] else []) ++
    (pathNames path d).map fun part => ⟨.text part, .directory⟩

/-- What the tree of a path has in a directory: the names on its way, and at its end the file. -/
theorem mem_pathEntries {d : List (List Char)} {e : DirEntry} : e ∈ pathEntries path d ↔
    d = climb [] (Path.directoryParts path) ∧ e = ⟨.text (Path.last path), .other⟩ ∨
      ∃ part ∈ pathNames path d, e = ⟨.text part, .directory⟩ := by
  unfold pathEntries
  split_ifs with h <;> simp [h, eq_comm]

theorem isName_of_mem_pathNames {d : List (List Char)} {part : List Char}
    (h : part ∈ pathNames path d) : Path.IsName part := by
  obtain ⟨-, hpart, hdots, -⟩ := mem_pathNames.mp h
  have hmoves := (List.mem_filter.mp hpart).2
  simpa [Path.isSkipped, Path.IsName, and_assoc] using And.intro hmoves hdots

theorem mem_splitOn_of_mem_directoryParts {part : List Char}
    (h : part ∈ Path.directoryParts path) : part ∈ path.splitOn '/' :=
  List.dropLast_subset _ (List.mem_of_mem_filter h)

theorem last_mem_splitOn (path : List Char) : Path.last path ∈ path.splitOn '/' := by
  rw [Path.last, List.getLastD_eq_getLast?, List.getLast?_eq_some_getLast (List.splitOn_ne_nil _ _)]
  exact List.getLast_mem _

theorem nodup_pathEntries (d : List (List Char)) :
    ((pathEntries path d).map DirEntry.name).Nodup := by
  have hnames : ((pathNames path d).map OsString.text).Nodup :=
    (nodup_pathNames d).map fun _ _ h => OsString.text.inj h
  unfold pathEntries
  split_ifs with h
  · have hfresh : OsString.text (Path.last path) ∉ (pathNames path d).map OsString.text := by
      intro hmem
      obtain ⟨part, hpart, heq⟩ := List.mem_map.mp hmem
      exact (mem_pathNames.mp hpart).2.2.2 h (OsString.text.inj heq)
    simpa [Function.comp_def] using List.nodup_cons.mpr ⟨hfresh, hnames⟩
  · simpa [Function.comp_def] using hnames

/-- The entries have proper names. -/
theorem names_pathEntries (hnul : '\x00' ∉ path) (hlast : Path.IsName (Path.last path))
    {d : List (List Char)} {kind : EntryKind} {name : List Char}
    (h : ⟨.text name, kind⟩ ∈ pathEntries path d) :
    Path.IsName name ∧ '/' ∉ name ∧ '\x00' ∉ name := by
  have hpart : ∀ part ∈ path.splitOn '/', '/' ∉ part ∧ '\x00' ∉ part := fun part hpart =>
    ⟨Text.notMem_of_mem_splitOn hpart, fun hmem =>
      hnul ((Path.mem_iff_exists_part (by decide)).mpr ⟨part, hpart, hmem⟩)⟩
  obtain ⟨-, heq⟩ | ⟨part, hmem, heq⟩ := mem_pathEntries.mp h
  · cases heq
    exact ⟨hlast, hpart _ (last_mem_splitOn path)⟩
  · cases heq
    refine ⟨isName_of_mem_pathNames hmem, hpart _ ?_⟩
    exact mem_splitOn_of_mem_directoryParts (mem_pathNames.mp hmem).2.1

/-- A tree in which a path stands for an entry. -/
def ofPath (path : List Char) (hnul : '\x00' ∉ path) (hlast : Path.IsName (Path.last path)) :
    FileSystem (List (List Char)) where
  root := []
  cwd := []
  parent := List.tail
  entries := pathEntries path
  target d name := .ok (name :: d)
  parent_root := rfl
  parent_target d name d' _ h := by
    cases h
    rfl
  nodup := nodup_pathEntries
  names d kind name := names_pathEntries hnul hlast

variable (hnul : '\x00' ∉ path) (hlast : Path.IsName (Path.last path))

/-- In the tree of a path its names lead on. -/
theorem child_ofPath {d : List (List Char)} {part : List Char}
    (hd : d.length < (Path.directoryParts path).length) (hpart : part ∈ Path.directoryParts path)
    (hdots : part ≠ ['.', '.']) : (ofPath path hnul hlast).child d part = .ok (part :: d) := by
  by_cases h : d = climb [] (Path.directoryParts path) ∧ part = Path.last path
  · exact child_of_mem .other (mem_pathEntries.mpr (Or.inl ⟨h.1, by rw [h.2]⟩))
  · refine child_of_mem .directory (mem_pathEntries.mpr (Or.inr ⟨part, ?_, rfl⟩))
    exact mem_pathNames.mpr ⟨hd, hpart, hdots, fun hd' heq => h ⟨hd', heq⟩⟩

/-- A walk along the names of the path ends, as it does not go deeper than the path is long. -/
theorem walk_ofPath {parts : List (List Char)} (hparts : ∀ part ∈ parts,
    part ∈ Path.directoryParts path) {d : List (List Char)}
    (hd : d.length + parts.length ≤ (Path.directoryParts path).length) :
    (ofPath path hnul hlast).walk d parts = .ok (climb d parts) := by
  induction parts generalizing d with
  | nil => rfl
  | cons part parts ih =>
    rw [List.length_cons] at hd
    have hrest : ∀ part ∈ parts, part ∈ Path.directoryParts path := fun part' h =>
      hparts part' (List.mem_cons_of_mem _ h)
    rw [walk, step, climb]
    split_ifs with hdots
    · refine ih hrest (le_trans ?_ hd)
      have hshorter : ((ofPath path hnul hlast).parent d).length ≤ d.length :=
        (List.tail_sublist d).length_le
      omega
    · rw [child_ofPath hnul hlast (by omega) (hparts part List.mem_cons_self) hdots]
      refine ih hrest ?_
      rw [List.length_cons]
      omega

/-- In its own tree a path is located. -/
theorem locate_ofPath : (ofPath path hnul hlast).locate path =
    .ok (climb [] (Path.directoryParts path), Path.last path) := by
  have hstart : (ofPath path hnul hlast).start path = [] := by
    unfold start
    split_ifs <;> rfl
  refine locate_eq_ok_iff.mpr ⟨hnul, hlast, ?_, rfl⟩
  rw [hstart]
  exact walk_ofPath hnul hlast (fun _ h => h) (by simp)

/-- The entry of the path comes first where it is. -/
theorem entries_ofPath :
    (ofPath path hnul hlast).entries (climb [] (Path.directoryParts path)) =
      ⟨.text (Path.last path), .other⟩ ::
        (pathNames path (climb [] (Path.directoryParts path))).map
          fun part => ⟨.text part, .directory⟩ := by
  change pathEntries path _ = _
  rw [pathEntries, if_pos rfl]
  rfl

/-- The entry of the path is listed before all others, and only directories are. -/
theorem pairwise_ofPath {R : DirEntry → DirEntry → Prop} (d : List (List Char))
    (h : ∀ first e, e.kind = .directory → R first e) :
    ((ofPath path hnul hlast).entries d).Pairwise R := by
  have hdirectories : ((pathNames path d).map fun part =>
      (⟨.text part, .directory⟩ : DirEntry)).Pairwise R :=
    List.pairwise_map.mpr (List.pairwise_of_forall fun _ _ => h _ _ rfl)
  change (pathEntries path d).Pairwise R
  unfold pathEntries
  split_ifs
  · refine List.pairwise_cons.mpr ⟨fun e he => ?_, hdirectories⟩
    obtain ⟨part, -, rfl⟩ := List.mem_map.mp he
    exact h _ _ rfl
  · exact hdirectories

end OfPath

end FileSystem

end Cheirizo
