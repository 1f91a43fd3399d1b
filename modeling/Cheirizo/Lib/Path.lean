import Cheirizo.Lib.Text
import Mathlib.Data.List.DropRight

/-!
# Paths

Textual paths, with `/` between their parts. Empty parts and single dots do not move; what is left
are names and double dots. The parent and the file name of a path are found from its end, where
the parts that do not move are passed over.

## Main definitions

* `Path.components`, `Path.last`, `Path.directoryParts` — the parts of a path
* `Path.fileName`, `Path.parent`, `Path.join` — the operations of a systems language

## Main results

* `Path.parts_of_fileName`, `Path.parent_of_parts` — where the file name and the parent come from
-/

namespace Cheirizo

namespace Path

/-- A part that does not move. -/
def isSkipped (part : List Char) : Bool := part = [] || part = ['.']

/-- A part that names an entry of a directory. -/
def IsName (part : List Char) : Prop := part ≠ [] ∧ part ≠ ['.'] ∧ part ≠ ['.', '.']

instance instDecidableIsName (part : List Char) : Decidable (IsName part) :=
  inferInstanceAs (Decidable (_ ∧ _ ∧ _))

/-- The parts that move. -/
def components (path : List Char) : List (List Char) :=
  (path.splitOn '/').filter fun part => !isSkipped part

/-- What follows the last separator. -/
def last (path : List Char) : List Char := (path.splitOn '/').getLastD []

/-- The parts that move, up to the last separator. -/
def directoryParts (path : List Char) : List (List Char) :=
  (path.splitOn '/').dropLast.filter fun part => !isSkipped part

/-- The last part that moves, if it is a name. -/
def fileName (path : List Char) : Option (List Char) :=
  (components path).getLast?.filter (· ≠ ['.', '.'])

/-- A path from its first part and those that follow. -/
def render : List Char → List (List Char) → List Char
  | [], [] => ['/']
  | first, rest => List.intercalate ['/'] (first :: rest)

/-- The path without its last part, and without the parts before it that do not move. A first part
counts even if it is a single dot; an empty first part is the root, which has no parent. -/
def parent (path : List Char) : Option (List Char) :=
  let rest := (path.splitOn '/').tail.rdropWhile isSkipped
  match (path.splitOn '/').headD [], rest with
  | [], [] => none
  | _, [] => some []
  | first, _ => some (render first (rest.dropLast.rdropWhile isSkipped))

/-- A relative path below another. -/
def join (dir name : List Char) : List Char :=
  if dir = [] ∨ dir.getLast? = some '/' then dir ++ name else dir ++ '/' :: name

example : (["/tmp/foo/", "/tmp/./foo", "foo", "./a", "/", "a/.."].map fun path =>
    ((parent path.toList).map String.ofList, (fileName path.toList).map String.ofList)) =
      [(some "/tmp", some "foo"), (some "/tmp", some "foo"), (some "", some "foo"),
        (some ".", some "a"), (none, none), (some "a", none)] := by
  decide +kernel

/-! ### The last separator -/

theorem not_isSkipped {part : List Char} (h : IsName part) : isSkipped part = false := by
  simp [isSkipped, h.1, h.2.1]

/-- The parts of a path that is cut at its last separator. -/
theorem splitOn_cut {name : List Char} (hname : '/' ∉ name) (dir : List Char) :
    (dir ++ '/' :: name).splitOn '/' = dir.splitOn '/' ++ [name] := by
  rw [List.splitOn_append_cons_self, List.splitOn_eq_singleton hname]

theorem last_cut {name : List Char} (hname : '/' ∉ name) (dir : List Char) :
    last (dir ++ '/' :: name) = name := by
  rw [last, splitOn_cut hname, List.getLastD_concat]

theorem last_of_notMem {path : List Char} (h : '/' ∉ path) : last path = path := by
  rw [last, List.splitOn_eq_singleton h]
  rfl

/-- A path has no separator, or is cut at the last one. -/
theorem cut_cases (path : List Char) :
    '/' ∉ path ∨ ∃ dir name, path = dir ++ '/' :: name ∧ '/' ∉ name := by
  obtain ⟨h, -⟩ | ⟨dir, name, h, hname, -⟩ := Text.rsplitOnce_cases '/' path
  · exact Or.inl h
  · exact Or.inr ⟨dir, name, h, hname⟩

theorem last_append {cs : List Char} (hcs : '/' ∉ cs) (path : List Char) :
    last (path ++ cs) = last path ++ cs := by
  obtain h | ⟨dir, name, rfl, hname⟩ := cut_cases path
  · rw [last_of_notMem h, last_of_notMem (by simpa using ⟨h, hcs⟩)]
  · rw [last_cut hname, List.append_assoc, List.cons_append, last_cut (by simpa using ⟨hname, hcs⟩)]

theorem directoryParts_cut {name : List Char} (hname : '/' ∉ name) (dir : List Char) :
    directoryParts (dir ++ '/' :: name) = components dir := by
  rw [directoryParts, splitOn_cut hname, List.dropLast_concat, components]

theorem notMem_last (path : List Char) : '/' ∉ last path := by
  obtain h | ⟨dir, name, rfl, hname⟩ := cut_cases path
  · rwa [last_of_notMem h]
  · rwa [last_cut hname]

/-! ### The file name and the parent -/

theorem filter_rdropWhile (parts : List (List Char)) :
    (parts.rdropWhile isSkipped).filter (fun part => !isSkipped part) =
      parts.filter fun part => !isSkipped part := by
  have hdropped : (parts.rtakeWhile isSkipped).filter (fun part => !isSkipped part) = [] :=
    List.filter_eq_nil_iff.mpr fun part hpart => by simp [List.mem_rtakeWhile_imp hpart]
  conv_rhs => rw [← List.rdropWhile_append_rtakeWhile (p := isSkipped) (l := parts)]
  rw [List.filter_append, hdropped, List.append_nil]

/-- The file name is a part, and what follows it does not move. -/
theorem parts_of_fileName {path name : List Char} (h : fileName path = some name) :
    IsName name ∧ ∃ before after, path.splitOn '/' = before ++ name :: after ∧
      ∀ part ∈ after, isSkipped part = true := by
  obtain ⟨hlast, hdots⟩ := Option.filter_eq_some_iff.mp h
  have hsplit := List.rdropWhile_append_rtakeWhile (p := isSkipped) (l := path.splitOn '/')
  rw [components, ← filter_rdropWhile] at hlast
  obtain hnil | ⟨before, found, hfound⟩ :=
    List.eq_nil_or_concat ((path.splitOn '/').rdropWhile isSkipped)
  · rw [hnil] at hlast
    cases hlast
  · have hmoves : isSkipped found = false := by
      have hne : (path.splitOn '/').rdropWhile isSkipped ≠ [] := by simp [hfound]
      have hnot := List.rdropWhile_last_not isSkipped _ hne
      simpa [hfound] using hnot
    obtain rfl : found = name := by
      rw [hfound, List.concat_eq_append, List.filter_append] at hlast
      simpa [hmoves] using hlast
    refine ⟨?_, before, (path.splitOn '/').rtakeWhile isSkipped, ?_,
      fun part hpart => List.mem_rtakeWhile_imp hpart⟩
    · simpa [IsName, isSkipped, and_assoc] using And.intro hmoves hdots
    · rw [hfound, List.concat_eq_append, List.append_assoc] at hsplit
      exact hsplit.symm

theorem rdropWhile_of_parts {name : List Char} (hname : isSkipped name = false)
    (before : List (List Char)) {after : List (List Char)}
    (hafter : ∀ part ∈ after, isSkipped part = true) :
    (before ++ name :: after).rdropWhile isSkipped = before ++ [name] := by
  induction after using List.reverseRecOn with
  | nil => exact List.rdropWhile_concat_neg _ _ _ (by simp [hname])
  | append_singleton after part ih =>
    have hpart := hafter part (by simp)
    rw [← List.cons_append, ← List.append_assoc, List.rdropWhile_concat_pos _ _ _ hpart]
    exact ih fun part' hpart' => hafter part' (by simp [hpart'])

theorem fileName_of_parts {path name : List Char} (hname : IsName name)
    {before after : List (List Char)} (hparts : path.splitOn '/' = before ++ name :: after)
    (hafter : ∀ part ∈ after, isSkipped part = true) : fileName path = some name := by
  have hmoves := not_isSkipped hname
  rw [fileName, components, ← filter_rdropWhile, hparts, rdropWhile_of_parts hmoves _ hafter]
  simp [hmoves, hname.2.2]

/-- The path that is made of the given parts, without those at the end that do not move. -/
def renderParts : List (List Char) → List Char
  | [] => []
  | first :: rest => render first (rest.rdropWhile isSkipped)

/-- The parent is made of what is before the file name. -/
theorem parent_of_parts {path name : List Char} (hname : IsName name)
    {before after : List (List Char)} (hparts : path.splitOn '/' = before ++ name :: after)
    (hafter : ∀ part ∈ after, isSkipped part = true) :
    parent path = some (renderParts before) := by
  have hmoves := not_isSkipped hname
  cases before with
  | nil =>
    obtain ⟨c, cs, rfl⟩ := List.exists_cons_of_ne_nil hname.1
    have hrest : after.rdropWhile isSkipped = [] := List.rdropWhile_eq_nil_iff.mpr hafter
    simp [parent, renderParts, hparts, hrest]
  | cons first rest =>
    have hrest := rdropWhile_of_parts hmoves rest hafter
    simp [parent, renderParts, hparts, hrest]

/-! ### The text of the parent -/

/-- A path from the root. -/
def IsAbsolute (path : List Char) : Prop := path.head? = some '/'

instance instDecidableIsAbsolute (path : List Char) : Decidable (IsAbsolute path) :=
  inferInstanceAs (Decidable (_ = _))

theorem mem_iff_exists_part {c : Char} (hc : c ≠ '/') {path : List Char} :
    c ∈ path ↔ ∃ part ∈ path.splitOn '/', c ∈ part := by
  refine ⟨Text.exists_mem_splitOn hc, ?_⟩
  rintro ⟨part, hpart, h⟩
  exact (Text.flatten_splitOn_sublist '/' path).subset (List.mem_flatten.mpr ⟨part, hpart, h⟩)

/-- A path is absolute if its first part is empty and not all of it. -/
theorem isAbsolute_append_iff {dir first : List Char} {rest : List (List Char)}
    (h : dir.splitOn '/' = first :: rest) (cs : List Char) :
    IsAbsolute (dir ++ '/' :: cs) ↔ first = [] := by
  cases dir with
  | nil =>
    cases h
    simp [IsAbsolute]
  | cons c dir =>
    obtain ⟨first', rest', hdir⟩ := List.exists_cons_of_ne_nil (List.splitOn_ne_nil '/' dir)
    rw [List.splitOn_cons_eq_if_modifyHead, hdir] at h
    rw [IsAbsolute, List.cons_append, List.head?_cons, Option.some_inj]
    split_ifs at h with hc
    · cases h
      simp [eq_of_beq hc]
    · cases h
      simpa using hc

/-- What follows a separator does not matter for it. -/
theorem isAbsolute_append_congr (dir cs cs' : List Char) :
    IsAbsolute (dir ++ '/' :: cs) ↔ IsAbsolute (dir ++ '/' :: cs') := by
  obtain ⟨first, rest, hdir⟩ := List.exists_cons_of_ne_nil (List.splitOn_ne_nil '/' dir)
  rw [isAbsolute_append_iff hdir, isAbsolute_append_iff hdir]

section Render

variable {first : List Char} {rest : List (List Char)}

theorem render_eq (h : first ≠ [] ∨ rest ≠ []) :
    render first rest = List.intercalate ['/'] (first :: rest) := by
  cases first with
  | nil =>
    cases rest with
    | nil => simp at h
    | cons part rest => rfl
  | cons c cs => rfl

theorem splitOn_render (hparts : ∀ part ∈ first :: rest, '/' ∉ part)
    (h : first ≠ [] ∨ rest ≠ []) : (render first rest).splitOn '/' = first :: rest := by
  rw [render_eq h, List.splitOn_intercalate '/' hparts (List.cons_ne_nil _ _)]

/-- The root is the only rendered path that has more parts than it is made of. -/
theorem render_cases (hparts : ∀ part ∈ first :: rest, '/' ∉ part) :
    first = [] ∧ rest = [] ∧ render first rest = ['/'] ∨
      (first ≠ [] ∨ rest ≠ []) ∧ (render first rest).splitOn '/' = first :: rest := by
  by_cases h : first ≠ [] ∨ rest ≠ []
  · exact Or.inr ⟨h, splitOn_render hparts h⟩
  · obtain ⟨rfl, rfl⟩ : first = [] ∧ rest = [] := by simpa using h
    exact Or.inl ⟨rfl, rfl, rfl⟩

theorem components_render (hparts : ∀ part ∈ first :: rest, '/' ∉ part) :
    components (render first rest) = (first :: rest).filter fun part => !isSkipped part := by
  obtain ⟨rfl, rfl, h⟩ | ⟨-, h⟩ := render_cases hparts
  · rw [h]
    rfl
  · rw [components, h]

theorem mem_render {c : Char} (hc : c ≠ '/') (hparts : ∀ part ∈ first :: rest, '/' ∉ part) :
    c ∈ render first rest ↔ ∃ part ∈ first :: rest, c ∈ part := by
  obtain ⟨rfl, rfl, h⟩ | ⟨-, h⟩ := render_cases hparts
  · simp [h, hc]
  · rw [mem_iff_exists_part hc, h]

theorem render_ne_nil (hparts : ∀ part ∈ first :: rest, '/' ∉ part) : render first rest ≠ [] := by
  obtain ⟨-, -, h⟩ | ⟨hne, h⟩ := render_cases hparts
  · simp [h]
  · intro hnil
    rw [hnil] at h
    cases h
    simp at hne

theorem isAbsolute_render (hparts : ∀ part ∈ first :: rest, '/' ∉ part) :
    IsAbsolute (render first rest) ↔ first = [] := by
  cases rest with
  | nil =>
    cases first with
    | nil => simp [IsAbsolute, render]
    | cons c cs =>
      have hc : c ≠ '/' := fun h => hparts (c :: cs) List.mem_cons_self (by simp [h])
      simpa [IsAbsolute, render] using hc
  | cons part rest =>
    rw [render_eq (Or.inr (List.cons_ne_nil _ _)), List.intercalate_cons_cons, List.append_assoc]
    refine isAbsolute_append_iff (List.splitOn_eq_singleton ?_) _
    exact hparts first List.mem_cons_self

end Render

theorem notMem_of_parts {path : List Char} {before after : List (List Char)}
    (hparts : path.splitOn '/' = before ++ after) {part : List Char} (h : part ∈ before) :
    '/' ∉ part :=
  Text.notMem_of_mem_splitOn (by rw [hparts]; exact List.mem_append_left _ h)

theorem mem_of_mem_rdropWhile {parts : List (List Char)} {part : List Char}
    (h : part ∈ parts.rdropWhile isSkipped) : part ∈ parts :=
  (List.rdropWhile_prefix isSkipped parts).subset h

/-- What the file name of a path does not have is in the parent. -/
theorem mem_parent {path name dir : List Char} (hname : fileName path = some name)
    (hdir : parent path = some dir) {c : Char} (hslash : c ≠ '/') (hdot : c ≠ '.')
    (h : c ∈ path) (hc : c ∉ name) : c ∈ dir := by
  obtain ⟨hisName, before, after, hparts, hafter⟩ := parts_of_fileName hname
  rw [parent_of_parts hisName hparts hafter, Option.some_inj] at hdir
  have hmoves : ∀ part, c ∈ part → isSkipped part = false := by
    rintro part hpart
    have hne : part ≠ [] := List.ne_nil_of_mem hpart
    have hne' : part ≠ ['.'] := fun h => hdot (by simpa [h] using hpart)
    simp [isSkipped, hne, hne']
  obtain ⟨part, hpart, hmem⟩ := (mem_iff_exists_part hslash).mp h
  have hbefore : part ∈ before := by
    rw [hparts, List.mem_append, List.mem_cons] at hpart
    obtain hpart | rfl | hpart := hpart
    · exact hpart
    · exact absurd hmem hc
    · exact absurd (hafter part hpart) (by simp [hmoves part hmem])
  cases before with
  | nil => cases hbefore
  | cons first rest =>
    subst hdir
    refine (mem_render hslash fun part' hpart' => notMem_of_parts hparts ?_).mpr
      ⟨part, ?_, hmem⟩
    · exact List.cons_subset_cons first (fun _ => mem_of_mem_rdropWhile) hpart'
    · obtain rfl | hrest := List.mem_cons.mp hbefore
      · exact List.mem_cons_self
      · have hfilter : part ∈ rest.filter fun part => !isSkipped part :=
          List.mem_filter.mpr ⟨hrest, by simp [hmoves part hmem]⟩
        rw [← filter_rdropWhile] at hfilter
        exact List.mem_cons_of_mem _ (List.mem_of_mem_filter hfilter)

section Cut

variable {stem : List Char}

theorem fileName_cut (hname : IsName stem) (hstem : '/' ∉ stem) (dir : List Char) :
    fileName (dir ++ '/' :: stem) = some stem :=
  fileName_of_parts hname (splitOn_cut hstem dir) fun _ h => absurd h List.not_mem_nil

theorem fileName_of_notMem {path : List Char} (h : '/' ∉ path) :
    fileName path = none ∨ parent path = some [] := by
  cases hname : fileName path with
  | none => exact Or.inl rfl
  | some name =>
    obtain ⟨hisName, before, after, hparts, hafter⟩ := parts_of_fileName hname
    have hbefore : before = [] := by
      rw [List.splitOn_eq_singleton h] at hparts
      have hlength := congrArg List.length hparts
      simp only [List.length_append, List.length_cons, List.length_nil] at hlength
      exact List.length_eq_zero_iff.mp (by omega)
    right
    rw [parent_of_parts hisName hparts hafter, hbefore]
    rfl

/-- A path that is cut before a name has the other part as its parent, in another text. -/
theorem parent_cut (hname : IsName stem) (hstem : '/' ∉ stem) (dir : List Char) :
    ∃ path, parent (dir ++ '/' :: stem) = some path ∧ path ≠ [] ∧
      components path = components dir ∧
      (∀ cs, IsAbsolute path ↔ IsAbsolute (dir ++ '/' :: cs)) ∧
      ∀ c ∈ path, c ≠ '/' → c ∈ dir := by
  obtain ⟨first, rest, hdir⟩ := List.exists_cons_of_ne_nil (List.splitOn_ne_nil '/' dir)
  have hparts : (dir ++ '/' :: stem).splitOn '/' = (first :: rest) ++ [stem] := by
    rw [splitOn_cut hstem, hdir]
  have hslash : ∀ part ∈ first :: rest.rdropWhile isSkipped, '/' ∉ part := fun part hpart =>
    notMem_of_parts hparts (List.cons_subset_cons first (fun _ => mem_of_mem_rdropWhile) hpart)
  refine ⟨render first (rest.rdropWhile isSkipped),
    parent_of_parts hname hparts fun _ h => absurd h List.not_mem_nil,
    render_ne_nil hslash, ?_, fun cs => ?_, fun c hc hne => ?_⟩
  · rw [components_render hslash, components, hdir, List.filter_cons, List.filter_cons,
      filter_rdropWhile]
  · rw [isAbsolute_render hslash, isAbsolute_append_iff hdir]
  · obtain ⟨part, hpart, hmem⟩ := (mem_render hne hslash).mp hc
    refine (mem_iff_exists_part hne).mpr ⟨part, ?_, hmem⟩
    rw [hdir]
    exact List.cons_subset_cons first (fun _ => mem_of_mem_rdropWhile) hpart

end Cut

/-! ### Joining -/

/-- A name joined to a path is cut off again, and the rest moves as the path does. -/
theorem join_cut {dir : List Char} (hdir : dir ≠ []) (name : List Char) :
    ∃ dir', join dir name = dir' ++ '/' :: name ∧ components dir' = components dir ∧
      (IsAbsolute (join dir name) ↔ IsAbsolute dir) ∧ ∀ c ∈ dir', c ∈ dir := by
  have habsolute : ∀ cs, IsAbsolute (dir ++ cs) ↔ IsAbsolute dir := by
    intro cs
    rw [IsAbsolute, IsAbsolute, List.head?_append_of_ne_nil _ hdir]
  rw [join]
  split_ifs with hlast
  · obtain ⟨dir', c, rfl⟩ := (List.eq_nil_or_concat dir).resolve_left hdir
    obtain rfl : c = '/' := by simpa using hlast
    refine ⟨dir', by simp, ?_, habsolute name, fun c hc => by simp [hc]⟩
    rw [List.concat_eq_append, components, components, splitOn_cut List.not_mem_nil,
      List.filter_append]
    simp [isSkipped]
  · exact ⟨dir, rfl, rfl, habsolute _, fun c hc => hc⟩

end Path

end Cheirizo
