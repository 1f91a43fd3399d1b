import Cheirizo.Lib.Text
import Cheirizo.Lib.Tree
import Mathlib.Algebra.Group.Nat.Defs
import Mathlib.Order.Nat

/-!
# Configuration files

`src/config/mod.rs`: a configuration file is read into a hash map from sections to fields, which is
then put into a table, section by section and field by field. A dotted section is a table in a
table, and the sections `default` and `globals` are the top level. What comes first is up to the
hash.

It matters only in two cases. If a field has the name of a section below its own, then the field
replaces the section, or the section cannot be made. If two fields end up in the same place, one
replaces the other.

## Main definitions

* `inferConfigValue` — what a field says
* `nestedTable`, `parseIniConfig` — the table
* `Unambiguous` — neither of the two cases

## Main results

* `parseSections_eq_of_reordered`, `exists_ok`, `exists_error`, `exists_last` — what the order does
* `parse_order_iff` — exactly the unambiguous files are read alike in every order
-/

namespace Cheirizo

namespace Config

/-! ### Values -/

/-- A value that is not a table. -/
inductive Scalar where
  | string (s : List Char)
  | integer (i : ℤ)
  /-- A floating-point number, by its bits. -/
  | float (bits : UInt64)
  | boolean (b : Bool)
  | array (items : List Scalar)

/-- A table of values by their keys. -/
abbrev Table := Tree.Branch (List Char) Scalar

/-- `str::to_ascii_lowercase`. -/
def toAsciiLowercase (s : List Char) : List Char := s.map Char.toLower

/-- Replace two characters by others, from the left. -/
def replacePair (a b : Char) (new : List Char) : List Char → List Char
  | c :: d :: rest =>
    if c = a ∧ d = b then new ++ replacePair a b new rest else c :: replacePair a b new (d :: rest)
  | s => s

/-- What is between an opening and a closing character. -/
def between (first last : Char) : List Char → Option (List Char)
  | c :: rest => if c = first ∧ rest.getLast? = some last then some rest.dropLast else none
  | [] => none

/-- The escapes are undone one after the other, the backslash first. -/
def unquoteIniValue (s : List Char) : Option (List Char) :=
  match between '"' '"' s with
  | some inner =>
    some (replacePair '\\' 'n' ['\n'] (replacePair '\\' '"' ['"'] (replacePair '\\' '\\' ['\\']
      inner)))
  | none => between '\'' '\'' s

theorem length_between {first last : Char} {s inner : List Char}
    (h : between first last s = some inner) : inner.length < s.length := by
  cases s with
  | nil => cases h
  | cons c rest =>
    rw [between] at h
    split at h
    · cases h
      rw [List.length_dropLast, List.length_cons]
      omega
    · cases h

theorem length_trim (s : List Char) : (Text.trim s).length ≤ s.length := by
  rw [Text.trim, List.length_reverse]
  refine (List.dropWhile_sublist _).length_le.trans ?_
  rw [List.length_reverse]
  exact (List.dropWhile_sublist _).length_le

theorem length_of_mem_splitOn {sep : Char} {s part : List Char} (h : part ∈ s.splitOn sep) :
    part.length ≤ s.length := by
  rw [List.splitOn_eq_splitOnP] at h
  induction s generalizing part with
  | nil =>
    obtain rfl := List.mem_singleton.mp h
    exact le_refl _
  | cons c s ih =>
    rw [List.splitOnP_cons_eq_if_modifyHead] at h
    rw [List.length_cons]
    split at h
    · rcases List.mem_cons.mp h with rfl | h
      · exact Nat.zero_le _
      · exact Nat.le_succ_of_le (ih h)
    · cases hparts : s.splitOnP (· == sep) with
      | nil =>
        rw [hparts] at h
        cases h
      | cons first parts =>
        rw [hparts] at h ih
        rcases List.mem_cons.mp h with rfl | h
        · exact Nat.succ_le_succ (ih (List.mem_cons_self ..))
        · exact Nat.le_succ_of_le (ih (List.mem_cons_of_mem _ h))

/-- The items of a list, without the empty ones. -/
def items (inner : List Char) : List (List Char) :=
  ((inner.splitOn ',').map Text.trim).filter fun item => !item.isEmpty

theorem length_of_mem_items {inner item : List Char} (h : item ∈ items inner) :
    item.length ≤ inner.length := by
  obtain ⟨part, hpart, rfl⟩ := List.mem_map.mp (List.mem_filter.mp h).1
  exact (length_trim part).trans (length_of_mem_splitOn hpart)

/-- What a field says, with a parser for floating-point numbers. -/
def inferConfigValue (parseF64 : List Char → Option UInt64) (s : List Char) : Scalar :=
  if Text.trim s = ['[', ']'] then .array []
  else
    match _hinner : between '[' ']' (Text.trim s) with
    | some inner =>
      .array ((items inner).attach.map fun item => inferConfigValue parseF64 item.1)
    | none =>
      match unquoteIniValue (Text.trim s) with
      | some unquoted => .string unquoted
      | none =>
        if Text.trim s = ['t', 'r', 'u', 'e'] then .boolean true
        else if Text.trim s = ['f', 'a', 'l', 's', 'e'] then .boolean false
        else
          match Text.parseSigned (2 ^ 63) (Text.trim s) with
          | some i => .integer i
          | none =>
            match parseF64 (Text.trim s) with
            | some bits => .float bits
            | none => .string (Text.trim s)
termination_by s.length
decreasing_by
  have hitem := length_of_mem_items item.2
  have hinner := length_between _hinner
  have htrim := length_trim s
  omega

/-! ### Tables -/

/-- The fields of a section, in the order a hash map enumerates them in. A field may be without a
value. -/
abbrev Fields := List (List Char × Option (List Char))

/-- The sections of a file, in the order a hash map enumerates them in. -/
abbrev Sections := List (List Char × Fields)

/-- Where the fields of a section belong. -/
def sectionPath (name : List Char) : List (List Char) :=
  if toAsciiLowercase name = ['d', 'e', 'f', 'a', 'u', 'l', 't'] ∨
      toAsciiLowercase name = ['g', 'l', 'o', 'b', 'a', 'l', 's'] then []
  else (name.splitOn '.').map toAsciiLowercase

/-- Change the table at the end of the path, making the tables on it. -/
def nestedTable (change : Table → Table) : List (List Char) → Table → Except String Table
  | [], root => .ok (change root)
  | part :: path, root =>
    match root part with
    | none =>
      (nestedTable change path Tree.empty).map fun c => Function.update root part (some (.node c))
    | some (.node c) =>
      (nestedTable change path c).map fun c => Function.update root part (some (.node c))
    | some (.leaf _) =>
      .error ("configuration section " ++ String.ofList part ++ " conflicts with a value")

section Parsing

variable (parseF64 : List Char → Option UInt64)

/-- The last field with a key stands. A field without a value is none. -/
def insertFields (fields : Fields) (table : Table) : Table :=
  fields.foldl (fun table field =>
    match field.2 with
    | some value =>
      Function.update table (toAsciiLowercase field.1)
        (some (.leaf (inferConfigValue parseF64 value)))
    | none => table) table

/-- The table of all sections. -/
def parseSections (sections : Sections) : Except String Table :=
  sections.foldlM (fun root s => nestedTable (insertFields parseF64 s.2) (sectionPath s.1) root)
    Tree.empty

/-- A file is read into a map, and the map is enumerated in some order. -/
def parseIniConfig (read : List Char → Except String Sections) (enumerate : Sections → Sections)
    (content : List Char) : Except String Table :=
  match read content with
  | .error e => .error ("invalid INI: " ++ e)
  | .ok sections => parseSections parseF64 (enumerate sections)

end Parsing

/-- The same map in another order, of its sections and of the fields of each. -/
def Reordered (sections sections' : Sections) : Prop :=
  ∃ between, sections.Perm between ∧
    List.Forall₂ (fun s s' => s.1 = s'.1 ∧ s.2.Perm s'.2) between sections'

/-- No field has the name of a section below its own, or of a part of its path, and fields that end
up in the same place say the same. -/
structure Unambiguous (parseF64 : List Char → Option UInt64) (sections : Sections) : Prop where
  spares : ∀ s ∈ sections, ∀ field ∈ s.2, field.2.isSome → ∀ s' ∈ sections,
    ¬ sectionPath s.1 ++ [toAsciiLowercase field.1] <+: sectionPath s'.1
  agrees : ∀ s ∈ sections, ∀ s' ∈ sections, sectionPath s.1 = sectionPath s'.1 →
    ∀ field ∈ s.2, ∀ field' ∈ s'.2, toAsciiLowercase field.1 = toAsciiLowercase field'.1 →
    ∀ value ∈ field.2, ∀ value' ∈ field'.2,
      inferConfigValue parseF64 value = inferConfigValue parseF64 value'

/-! ### Sections as edits -/

/-- The fields with a value. -/
def leaves (parseF64 : List Char → Option UInt64) (fields : Fields) : List (List Char × Scalar) :=
  fields.filterMap fun field =>
    field.2.map fun value => (toAsciiLowercase field.1, inferConfigValue parseF64 value)

/-- A section as what it does to the tree of all sections. -/
def toEdit (parseF64 : List Char → Option UInt64) (s : List Char × Fields) :
    Tree.Edit (List Char) Scalar :=
  ⟨sectionPath s.1, leaves parseF64 s.2⟩

section Edits

variable {parseF64 : List Char → Option UInt64}

theorem mem_leaves {fields : Fields} {l : List Char × Scalar} :
    l ∈ leaves parseF64 fields ↔ ∃ field ∈ fields, ∃ value ∈ field.2,
      l = (toAsciiLowercase field.1, inferConfigValue parseF64 value) := by
  simp only [leaves, List.mem_filterMap, Option.map_eq_some_iff, Option.mem_def, @eq_comm _ l]

theorem insertFields_eq (fields : Fields) :
    insertFields parseF64 fields = Tree.assign (leaves parseF64 fields) := by
  funext table
  induction fields generalizing table with
  | nil => rfl
  | cons field fields ih =>
    obtain ⟨key, value⟩ := field
    cases value with
    | none => exact ih table
    | some value => exact ih _

theorem nestedTable_eq (change : Table → Table) (path : List (List Char)) (root : Table) :
    (nestedTable change path root).toOption = Tree.modifyAt change path root := by
  induction path generalizing root with
  | nil => rfl
  | cons part path ih =>
    have hmap : ∀ c, ((nestedTable change path c).map fun c' =>
        Function.update root part (some (.node c'))).toOption =
          (Tree.modifyAt change path c).map fun c' =>
            Function.update root part (some (.node c')) := by
      intro c
      rw [← ih c]
      cases nestedTable change path c with
      | ok c' => rfl
      | error e => rfl
    rw [nestedTable, Tree.modifyAt, Tree.child]
    cases root part with
    | none => exact hmap Tree.empty
    | some entry =>
      cases entry with
      | leaf value => rfl
      | node c => exact hmap c

/-- The table of all sections is made by their edits, one after the other. -/
theorem foldlM_eq (sections : Sections) (root : Table) :
    (sections.foldlM (fun root s => nestedTable (insertFields parseF64 s.2) (sectionPath s.1) root)
      root).toOption = Tree.applyAll (sections.map (toEdit parseF64)) root := by
  induction sections generalizing root with
  | nil => rfl
  | cons s sections ih =>
    have hfirst := nestedTable_eq (insertFields parseF64 s.2) (sectionPath s.1) root
    rw [insertFields_eq] at hfirst
    rw [List.foldlM_cons, List.map_cons, Tree.applyAll_cons, Tree.Edit.apply, toEdit, ← hfirst,
      insertFields_eq]
    cases nestedTable (Tree.assign (leaves parseF64 s.2)) (sectionPath s.1) root with
    | ok next => exact ih next
    | error e => rfl

theorem parseSections_eq (sections : Sections) :
    (parseSections parseF64 sections).toOption =
      Tree.applyAll (sections.map (toEdit parseF64)) Tree.empty := foldlM_eq sections Tree.empty

/-! ### In every order -/

variable {sections sections' : Sections}

theorem toEdit_spares (parseF64 : List Char → Option UInt64)
    (h : ∀ s ∈ sections, ∀ field ∈ s.2, field.2.isSome → ∀ s' ∈ sections,
      ¬ sectionPath s.1 ++ [toAsciiLowercase field.1] <+: sectionPath s'.1) :
    ∀ e ∈ sections.map (toEdit parseF64), ∀ e' ∈ sections.map (toEdit parseF64),
      e.Spares e' := by
  intro e he e' he' l hl
  obtain ⟨s, hs, rfl⟩ := List.mem_map.mp he
  obtain ⟨s', hs', rfl⟩ := List.mem_map.mp he'
  obtain ⟨field, hfield, value, hvalue, rfl⟩ := mem_leaves.mp hl
  exact h s hs field hfield (Option.isSome_of_mem hvalue) s' hs'

theorem Unambiguous.toEdit_agrees (h : Unambiguous parseF64 sections) :
    ∀ e ∈ sections.map (toEdit parseF64), ∀ e' ∈ sections.map (toEdit parseF64),
      e.Agrees e' := by
  intro e he e' he' hpath l hl l' hl' hkey
  obtain ⟨s, hs, rfl⟩ := List.mem_map.mp he
  obtain ⟨s', hs', rfl⟩ := List.mem_map.mp he'
  obtain ⟨field, hfield, value, hvalue, rfl⟩ := mem_leaves.mp hl
  obtain ⟨field', hfield', value', hvalue', rfl⟩ := mem_leaves.mp hl'
  exact h.agrees s hs s' hs' hpath field hfield field' hfield' hkey value hvalue value' hvalue'

/-- The order of the fields of each section. -/
theorem applyAll_of_forall₂ {t : Table}
    (hagrees : ∀ e ∈ sections.map (toEdit parseF64), e.Agrees e)
    (h : List.Forall₂ (fun s s' => s.1 = s'.1 ∧ s.2.Perm s'.2) sections sections') :
    Tree.applyAll (sections.map (toEdit parseF64)) t =
      Tree.applyAll (sections'.map (toEdit parseF64)) t := by
  induction h generalizing t with
  | nil => rfl
  | @cons s s' sections sections' hs hrest ih =>
    obtain ⟨hname, hfields⟩ := hs
    have hsame : (toEdit parseF64 s).apply = (toEdit parseF64 s').apply := by
      funext t
      rw [Tree.Edit.apply, Tree.Edit.apply, toEdit, toEdit, hname]
      congr 1
      funext t
      exact Tree.assign_perm (hfields.filterMap _)
        (hagrees (toEdit parseF64 s) (List.mem_cons_self ..) rfl) t
    rw [List.map_cons, List.map_cons, Tree.applyAll_cons, Tree.applyAll_cons, hsame]
    congr 1
    funext t
    exact ih fun e he => hagrees e (List.mem_cons_of_mem _ he)

/-- **An unambiguous file is read alike in every order.** -/
theorem parseSections_eq_of_reordered (h : Unambiguous parseF64 sections)
    (hreordered : Reordered sections sections') :
    (parseSections parseF64 sections).toOption = (parseSections parseF64 sections').toOption := by
  obtain ⟨between, hperm, hfields⟩ := hreordered
  rw [parseSections_eq, parseSections_eq,
    Tree.applyAll_perm (hperm.map _) (toEdit_spares parseF64 h.spares) h.toEdit_agrees]
  refine applyAll_of_forall₂ ?_ hfields
  intro e he
  have hmem := (hperm.map (toEdit parseF64)).mem_iff.mpr he
  exact h.toEdit_agrees e hmem e hmem

/-! ### Orders that differ -/

theorem Reordered.of_perm (h : sections.Perm sections') : Reordered sections sections' :=
  ⟨sections', h, List.forall₂_same.mpr fun _ _ => ⟨rfl, .refl _⟩⟩

/-- The first has at least as long a path as the second. -/
def deeper (s s' : List Char × Fields) : Bool :=
  (sectionPath s'.1).length ≤ (sectionPath s.1).length

/-- Sections with longer paths first: nothing is in the way. -/
theorem exists_ok (parseF64 : List Char → Option UInt64) (sections : Sections) :
    ∃ sections', Reordered sections sections' ∧
      ((parseSections parseF64 sections').toOption).isSome := by
  refine ⟨sections.mergeSort deeper, .of_perm (List.mergeSort_perm ..).symm, ?_⟩
  have htrans : ∀ s s' s'', deeper s s' → deeper s' s'' → deeper s s'' := by
    intro s s' s'' h h'
    exact decide_eq_true ((of_decide_eq_true h').trans (of_decide_eq_true h))
  have htotal : ∀ s s', (deeper s s' || deeper s' s) = true := by
    intro s s'
    rw [Bool.or_eq_true]
    exact (Nat.le_total ..).imp decide_eq_true decide_eq_true
  rw [parseSections_eq]
  refine Tree.applyAll_isSome ?_ fun e _ => Tree.open_empty e.path
  rw [List.pairwise_map]
  refine (List.pairwise_mergeSort htrans htotal sections).imp ?_
  intro s s' hdeeper l _ hunder
  have hlength := hunder.length_le
  rw [List.length_append, List.length_singleton] at hlength
  exact absurd (of_decide_eq_true hdeeper) (Nat.not_le.mpr hlength)

/-- A field before the section it stands in the way of: the section cannot be made. -/
theorem exists_error (parseF64 : List Char → Option UInt64) {s s' : List Char × Fields}
    {field : List Char × Option (List Char)}
    (hs : s ∈ sections) (hfield : field ∈ s.2) (hvalue : field.2.isSome) (hs' : s' ∈ sections)
    (hunder : sectionPath s.1 ++ [toAsciiLowercase field.1] <+: sectionPath s'.1) :
    ∃ sections', Reordered sections sections' ∧
      (parseSections parseF64 sections').toOption = none := by
  have hne : s' ≠ s := by
    rintro rfl
    have hlength := hunder.length_le
    rw [List.length_append, List.length_singleton] at hlength
    omega
  have hperm : sections.Perm (s :: s' :: (sections.erase s).erase s') :=
    (List.perm_cons_erase hs).trans
      ((List.perm_cons_erase ((List.mem_erase_of_ne hne).mpr hs')).cons s)
  refine ⟨_, .of_perm hperm, ?_⟩
  obtain ⟨value, hvalue⟩ := Option.isSome_iff_exists.mp hvalue
  rw [parseSections_eq, List.map_cons, List.map_cons, Tree.applyAll_cons]
  cases hfirst : (toEdit parseF64 s).apply Tree.empty with
  | none => rfl
  | some t =>
    have hleaf : (toAsciiLowercase field.1, inferConfigValue parseF64 value) ∈
        leaves parseF64 s.2 := mem_leaves.mpr ⟨field, hfield, value, hvalue, rfl⟩
    have hclosed := Tree.Edit.not_open_apply hfirst hleaf hunder
    have hnone : (toEdit parseF64 s').apply t = none := by
      by_contra hsome
      exact hclosed (Tree.Edit.apply_isSome.mp (Option.isSome_iff_ne_none.mpr hsome))
    rw [Option.bind_some, Tree.applyAll_cons, hnone]
    rfl

/-- Any field can be the last. -/
theorem exists_last {s : List Char × Fields} {field : List Char × Option (List Char)}
    {value : List Char} (hs : s ∈ sections) (hfield : field ∈ s.2) (hvalue : value ∈ field.2)
    (hspares : ∀ e ∈ sections.map (toEdit parseF64), ∀ e' ∈ sections.map (toEdit parseF64),
      e.Spares e') :
    ∃ sections', Reordered sections sections' ∧
      ∃ t, (parseSections parseF64 sections').toOption = some t ∧
        Tree.entryAt t (sectionPath s.1) (toAsciiLowercase field.1) =
          some (.leaf (inferConfigValue parseF64 value)) := by
  have hperm : sections.Perm (sections.erase s ++ [s]) :=
    (List.perm_cons_erase hs).trans (List.perm_append_singleton s _).symm
  have hfields : s.2.Perm (s.2.erase field ++ [field]) :=
    (List.perm_cons_erase hfield).trans (List.perm_append_singleton field _).symm
  refine ⟨sections.erase s ++ [(s.1, s.2.erase field ++ [field])], ⟨_, hperm, ?_⟩, ?_⟩
  · refine List.rel_append (List.forall₂_same.mpr fun _ _ => ⟨rfl, .refl _⟩) ?_
    exact .cons ⟨rfl, hfields⟩ .nil
  · -- the section itself would go through, and its path is what counts
    have hsome : (Tree.applyAll ((sections.erase s ++ [s]).map (toEdit parseF64))
        Tree.empty).isSome := by
      refine Tree.applyAll_isSome (List.pairwise_of_forall_mem_list ?_)
        fun e _ => Tree.open_empty e.path
      intro e he e' he'
      exact hspares e ((hperm.map _).mem_iff.mpr he) e' ((hperm.map _).mem_iff.mpr he')
    rw [List.map_append, Tree.applyAll_append] at hsome
    rw [parseSections_eq, List.map_append, Tree.applyAll_append]
    cases hfirst : Tree.applyAll ((sections.erase s).map (toEdit parseF64)) Tree.empty with
    | none =>
      rw [hfirst] at hsome
      cases hsome
    | some t =>
      rw [hfirst, Option.bind_some, List.map_singleton, Tree.applyAll_cons] at hsome
      have hopen : Tree.Open t (sectionPath s.1) := by
        refine (Tree.Edit.apply_isSome (e := toEdit parseF64 s)).mp ?_
        exact Option.isSome_of_isSome_bind hsome
      obtain ⟨t', ht'⟩ := Option.isSome_iff_exists.mp ((Tree.Edit.apply_isSome
        (e := toEdit parseF64 (s.1, s.2.erase field ++ [field]))).mpr hopen)
      refine ⟨t', ?_, Tree.entryAt_modifyAt ht' ?_⟩
      · rw [Option.bind_some, List.map_singleton, Tree.applyAll_cons, ht']
        rfl
      · intro t
        have hleaves : leaves parseF64 (s.2.erase field ++ [field]) =
            leaves parseF64 (s.2.erase field) ++
              [(toAsciiLowercase field.1, inferConfigValue parseF64 value)] := by
          rw [leaves, List.filterMap_append, List.filterMap_cons, Option.mem_def.mp hvalue]
          rfl
        rw [toEdit, hleaves, Tree.assign_append]
        exact Function.update_self ..

end Edits

/-! ### Files -/

/-- The same outcome in every order. -/
def OrderIndependent (parseF64 : List Char → Option UInt64)
    (read : List Char → Except String Sections) (content : List Char) : Prop :=
  ∀ enumerate enumerate' : Sections → Sections, (∀ s, Reordered s (enumerate s)) →
    (∀ s, Reordered s (enumerate' s)) →
    (parseIniConfig parseF64 read enumerate content).toOption =
      (parseIniConfig parseF64 read enumerate' content).toOption

theorem Reordered.refl (sections : Sections) : Reordered sections sections := .of_perm (.refl _)

/-- Two orders of the sections of a file. -/
theorem OrderIndependent.eq {parseF64 : List Char → Option UInt64}
    {read : List Char → Except String Sections} {content : List Char}
    (h : OrderIndependent parseF64 read content) {sections s s' : Sections}
    (hread : read content = .ok sections) (hs : Reordered sections s)
    (hs' : Reordered sections s') :
    (parseSections parseF64 s).toOption = (parseSections parseF64 s').toOption := by
  have henumerate : ∀ s, Reordered sections s →
      ∀ t, Reordered t (Function.update id sections s t) := by
    intro s hs t
    by_cases ht : t = sections
    · rw [ht, Function.update_self]
      exact hs
    · rw [Function.update_of_ne ht]
      exact .refl t
  have heq := h (Function.update id sections s) (Function.update id sections s') (henumerate s hs)
    (henumerate s' hs')
  rw [parseIniConfig, parseIniConfig, hread] at heq
  simpa using heq

/-- Otherwise there is an order in which the file is refused, and one in which it is not. -/
theorem OrderIndependent.spares {parseF64 : List Char → Option UInt64}
    {read : List Char → Except String Sections} {content : List Char}
    (h : OrderIndependent parseF64 read content) {sections : Sections}
    (hread : read content = .ok sections) :
    ∀ s ∈ sections, ∀ field ∈ s.2, field.2.isSome → ∀ s' ∈ sections,
      ¬ sectionPath s.1 ++ [toAsciiLowercase field.1] <+: sectionPath s'.1 := by
  intro s hs field hfield hvalue s' hs' hunder
  obtain ⟨failing, hfailing, herror⟩ := exists_error parseF64 hs hfield hvalue hs' hunder
  obtain ⟨working, hworking, hok⟩ := exists_ok parseF64 sections
  rw [h.eq hread hworking hfailing, herror] at hok
  cases hok

/-- Otherwise, with either field last, its value is in the table. -/
theorem OrderIndependent.agrees {parseF64 : List Char → Option UInt64}
    {read : List Char → Except String Sections} {content : List Char}
    (h : OrderIndependent parseF64 read content) {sections : Sections}
    (hread : read content = .ok sections) :
    ∀ s ∈ sections, ∀ s' ∈ sections, sectionPath s.1 = sectionPath s'.1 →
      ∀ field ∈ s.2, ∀ field' ∈ s'.2, toAsciiLowercase field.1 = toAsciiLowercase field'.1 →
      ∀ value ∈ field.2, ∀ value' ∈ field'.2,
        inferConfigValue parseF64 value = inferConfigValue parseF64 value' := by
  intro s hs s' hs' hpath field hfield field' hfield' hkey value hvalue value' hvalue'
  have hspares := toEdit_spares parseF64 (h.spares hread)
  obtain ⟨order, horder, t, ht, hentry⟩ := exists_last hs hfield hvalue hspares
  obtain ⟨order', horder', t', ht', hentry'⟩ := exists_last hs' hfield' hvalue' hspares
  have heq := h.eq hread horder horder'
  rw [ht, ht', Option.some_inj] at heq
  rw [heq, hpath, hkey, hentry'] at hentry
  injection hentry with hleaf
  injection hleaf with hvalues
  exact hvalues.symm

/-- **Exactly the unambiguous files are read alike in every order.** -/
theorem parse_order_iff (parseF64 : List Char → Option UInt64)
    (read : List Char → Except String Sections) (content : List Char) :
    OrderIndependent parseF64 read content ↔
      ∀ sections, read content = .ok sections → Unambiguous parseF64 sections := by
  constructor
  · intro h sections hread
    exact ⟨h.spares hread, h.agrees hread⟩
  · intro h enumerate enumerate' henumerate henumerate'
    rw [parseIniConfig, parseIniConfig]
    cases hread : read content with
    | error e => rfl
    | ok sections =>
      have hsections := h sections hread
      exact (parseSections_eq_of_reordered hsections (henumerate sections)).symm.trans
        (parseSections_eq_of_reordered hsections (henumerate' sections))

/-- The top level twice, with different values for the same key. -/
def conflicting : Sections :=
  [(['d', 'e', 'f', 'a', 'u', 'l', 't'], [(['k'], some ['1'])]),
    (['g', 'l', 'o', 'b', 'a', 'l', 's'], [(['k'], some ['2'])])]

/-- Which value is in the table depends on the order. -/
theorem parse_order_matters :
    ¬ OrderIndependent (fun _ => none) (fun _ => .ok conflicting)
      "[default]\nk=1\n[globals]\nk=2\n".toList := by
  intro h
  have hfirst : inferConfigValue (fun _ => none) ['1'] = .integer 1 := by
    rw [inferConfigValue]
    rfl
  have hsecond : inferConfigValue (fun _ => none) ['2'] = .integer 2 := by
    rw [inferConfigValue]
    rfl
  have heq := h.agrees rfl _ (List.mem_cons_self ..) _
    (List.mem_cons_of_mem _ (List.mem_cons_self ..)) rfl _ (List.mem_cons_self ..) _
    (List.mem_cons_self ..) rfl _ rfl _ rfl
  rw [hfirst, hsecond] at heq
  injection heq with hvalues
  exact absurd hvalues (by decide)

end Config

end Cheirizo
