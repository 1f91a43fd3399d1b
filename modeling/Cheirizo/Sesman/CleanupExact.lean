import Cheirizo.Sesman.CleanupGlob

/-!
# Patterns that a cleanup misreads

A pattern that is not read as a glob goes wrong in the tree of one path. Either the pattern matches
the path and the cleanup leaves its entry: the directory that is scanned, or the start or the end
of the names, is another than the pattern has. Or the two ends of the names overlap, and the
cleanup removes an entry that is too short to be matched.

## Main results

* `cleansExactly_iff_unobstructed_iff` — a pattern is read as a glob exactly if the cleanup removes
  what it matches in those trees in which nothing is in the way
-/

namespace Cheirizo

namespace Sesman

namespace Cleanup

open FileSystem

/-! ### A path that is matched -/

/-- In the tree of a path there is nothing in the way of its entry. -/
theorem unobstructed_ofPath {path : List Char} (hnul : '\x00' ∉ path)
    (hlast : Path.IsName (Path.last path)) (pattern : List Char) :
    Unobstructed (ofPath path hnul hlast) pattern := by
  intro d
  refine pairwise_ofPath hnul hlast d fun first e hdirectory _ _ hother => ?_
  cases hdirectory.symm.trans hother

/-- An entry that is matched stays if the cleanup does not look for its name. -/
theorem not_cleansExactly_of_not_isTaken {pattern front suffix path : List Char}
    (hnul : '\x00' ∉ path) (hlast : Path.IsName (Path.last path))
    (hsplit : Text.splitOnce '*' pattern = some (front, suffix))
    (hmatches : Glob.Matches pattern path)
    (htaken : ¬ IsTaken front suffix ⟨.text (Path.last path), .other⟩) :
    ¬ CleansExactly (ofPath path hnul hlast) pattern := by
  intro h
  have he : ⟨.text (Path.last path), .other⟩ ∈
      pathEntries path (climb [] (Path.directoryParts path)) :=
    mem_pathEntries.mpr (Or.inl ⟨rfl, rfl⟩)
  have hremoves := removesOnly_of_star hsplit (ofPath path hnul hlast)
  refine htaken (hremoves.removed _ _ he fun hafter => ?_).2
  exact ((h _ _).mp hafter).2 ⟨rfl, path, _, rfl, hmatches, locate_ofPath hnul hlast⟩

theorem last_fill {c : Char} (hc : c ≠ '/') (pattern : List Char) :
    Path.last (Glob.fill c pattern) = Glob.fill c (Path.last pattern) := by
  have hslash : ∀ cs, '/' ∉ cs → '/' ∉ Glob.fill c cs := by
    intro cs hcs hmem
    obtain h | ⟨-, h⟩ := Glob.mem_fill hmem
    · exact hc h.symm
    · exact hcs h
  obtain h | ⟨dir, name, rfl, hname⟩ := Path.cut_cases pattern
  · rw [Path.last_of_notMem h, Path.last_of_notMem (hslash _ h)]
  · have hfill : Glob.fill c (dir ++ '/' :: name) =
        Glob.fill c dir ++ '/' :: Glob.fill c name := Glob.fill_append c dir _
    rw [Path.last_cut hname, hfill, Path.last_cut (hslash _ hname)]

/-- A name stays one when its stars are filled. -/
theorem isName_fill {c : Char} (hc : c ≠ '.') {name : List Char} (h : Path.IsName name) :
    Path.IsName (Glob.fill c name) := by
  by_cases hstar : '*' ∈ name
  · have hmem : c ∈ Glob.fill c name := List.mem_map.mpr ⟨'*', hstar, rfl⟩
    refine ⟨?_, ?_, ?_⟩ <;> intro heq <;> rw [heq] at hmem <;> simp [hc] at hmem
  · rwa [Glob.fill_of_notMem hstar]

/-- What starts a part that is not a name is not a name. -/
theorem not_isName_of_prefix {q part : List Char} (h : q <+: part) (hpart : ¬ Path.IsName part) :
    ¬ Path.IsName q := by
  rintro ⟨hne, hdot, hdots⟩
  refine hpart ⟨?_, ?_, ?_⟩
  · rintro rfl
    obtain rfl := List.prefix_nil.mp h
    exact hne rfl
  · rintro rfl
    obtain rfl | ⟨q, rfl, hq⟩ := List.prefix_cons_iff.mp h
    · exact hne rfl
    · obtain rfl := List.prefix_nil.mp hq
      exact hdot rfl
  · rintro rfl
    obtain rfl | ⟨q, rfl, hq⟩ := List.prefix_cons_iff.mp h
    · exact hne rfl
    · obtain rfl | ⟨q, rfl, hq'⟩ := List.prefix_cons_iff.mp hq
      · exact hdot rfl
      · obtain rfl := List.prefix_nil.mp hq'
        exact hdots rfl

/-- A character after a part that is not a name, so that the file name found before it does not
start the whole. -/
theorem exists_char {front : List Char} (suffix : List Char)
    (hlast : ¬ Path.IsName (Path.last front)) : ∃ c, (c = 'a' ∨ c = 'b') ∧
      ∀ q, Path.fileName front = some q → ¬ q <+: Path.last front ++ c :: suffix := by
  cases hname : Path.fileName front with
  | none => exact ⟨'a', Or.inl rfl, fun q hq => by cases hq⟩
  | some q =>
    have hisName := (Path.parts_of_fileName hname).1
    by_cases ha : q <+: Path.last front ++ 'a' :: suffix
    · refine ⟨'b', Or.inr rfl, fun q' hq' hb => ?_⟩
      cases hq'
      have hprefix := Glob.prefix_of_prefix_of_ne (by decide : 'a' ≠ 'b') ha hb
      exact not_isName_of_prefix hprefix hlast hisName
    · refine ⟨'a', Or.inl rfl, fun q' hq' => ?_⟩
      cases hq'
      exact ha

/-- Unless a pattern has one star, in the last component and after the start of a name, it matches
a path that the cleanup does not look for. -/
theorem exists_not_isTaken {pattern front suffix : List Char}
    (hpattern : pattern = front ++ '*' :: suffix) (hfront : '*' ∉ front)
    (hcut : ¬ ∃ dir stem, IsCut pattern dir stem suffix) :
    ∃ c, (c = 'a' ∨ c = 'b') ∧
      ¬ IsTaken front suffix ⟨.text (Path.last (Glob.fill c pattern)), .other⟩ := by
  have hsimple : ∀ c, (c = 'a' ∨ c = 'b') →
      IsTaken front suffix ⟨.text (Path.last (Glob.fill c pattern)), .other⟩ →
        ¬ Path.IsName (Path.last front) ∧ Path.last (Glob.fill c pattern) =
          Path.last front ++ c :: suffix := by
    rintro c hc ⟨namePrefix, parent, hfileName, hparent, hne, -, name, hname, -, hend⟩
    obtain rfl := OsString.text.inj hname
    have hslash : '/' ∉ suffix := fun h => Path.notMem_last _ (hend.subset h)
    have hstar : '*' ∉ suffix := by
      intro h
      rw [last_fill (by rintro rfl; simp at hc)] at hend
      obtain h | h := Glob.mem_fill (hend.subset h)
      · subst h
        simp at hc
      · exact h.1 rfl
    have hlast : Path.last pattern = Path.last front ++ '*' :: suffix := by
      rw [hpattern, Path.last_append (by simpa using hslash)]
    obtain hslash' | ⟨dir, stem, rfl, hstem⟩ := Path.cut_cases front
    · obtain h | h := Path.fileName_of_notMem hslash'
      · rw [h] at hfileName
        cases hfileName
      · rw [h] at hparent
        exact absurd (Option.some.inj hparent).symm hne
    · obtain ⟨hdir', hstem'⟩ : '*' ∉ dir ∧ '*' ∉ stem := by simpa using hfront
      rw [Path.last_cut hstem] at hlast ⊢
      refine ⟨fun hisName => hcut ⟨dir, stem, ?_⟩, ?_⟩
      · exact ⟨by simp [hpattern], hdir', hstem', hstem, hisName, hstar, hslash⟩
      · rw [last_fill (by rintro rfl; simp at hc), hlast, Glob.fill_append,
          Glob.fill_of_notMem hstem']
        refine congrArg (stem ++ ·) ?_
        exact congrArg (c :: ·) (Glob.fill_of_notMem hstar)
  by_cases hlast : Path.IsName (Path.last front)
  · exact ⟨'a', Or.inl rfl, fun h => (hsimple 'a' (Or.inl rfl) h).1 hlast⟩
  · obtain ⟨c, hc, hq⟩ := exists_char suffix hlast
    refine ⟨c, hc, fun h => ?_⟩
    have hname := (hsimple c hc h).2
    rw [hname] at h
    obtain ⟨namePrefix, parent, hfileName, -, -, -, name, heq, hstarts, -⟩ := h
    obtain rfl := OsString.text.inj heq
    exact hq namePrefix hfileName hstarts

/-! ### A path that is too short -/

/-- What the ends of the names share, written once, gives a name that the cleanup looks for. -/
theorem exists_not_cleansExactly {pattern dir stem suffix : List Char}
    (hcut : IsCut pattern dir stem suffix) (hnul : '\x00' ∉ pattern)
    (hoverlap : Glob.Overlap stem suffix) :
    ∃ (path : List Char) (hnul' : '\x00' ∉ path) (hlast : Path.IsName (Path.last path)),
      ¬ CleansExactly (ofPath path hnul' hlast) pattern := by
  obtain ⟨u, hu, ⟨front, rfl⟩, rest, rfl⟩ := hoverlap
  have hslash : '/' ∉ front ++ u ++ rest := by
    have hstem := hcut.stem_slash
    have hsuffix := hcut.suffix_slash
    simp only [List.mem_append, not_or] at hstem hsuffix ⊢
    exact ⟨hstem, hsuffix.2⟩
  have hisName : Path.IsName (front ++ u ++ rest) := by
    by_contra h
    exact not_isName_of_prefix (List.prefix_append _ rest) h hcut.stem_name
  have hnul' : '\x00' ∉ dir ++ '/' :: (front ++ u ++ rest) := by
    rw [hcut.eq] at hnul
    simp only [List.mem_append, List.mem_cons, not_or] at hnul ⊢
    obtain ⟨hdir, hsep, hstem, -, -, hrest⟩ := hnul
    exact ⟨hdir, hsep, hstem, hrest⟩
  have hstart := fun fs : FileSystem (List (List Char)) => hcut.start_eq fs (front ++ u ++ rest)
  have hparts := Path.directoryParts_cut hslash dir
  have hlast := Path.last_cut hslash dir
  rw [← hcut.directoryParts] at hparts
  generalize dir ++ '/' :: (front ++ u ++ rest) = path at hnul' hstart hparts hlast
  have hlast' : Path.IsName (Path.last path) := by rwa [hlast]
  refine ⟨path, hnul', hlast', fun h => ?_⟩
  obtain ⟨-, -, hwalk, -⟩ := locate_eq_ok_iff.mp (locate_ofPath hnul' hlast')
  rw [hstart, hparts] at hwalk
  have hentries := entries_ofPath hnul' hlast'
  rw [hparts] at hentries
  have he : ⟨.text (Path.last path), .other⟩ ∈
      (ofPath path hnul' hlast').entries (climb [] (Path.directoryParts pattern)) := by
    rw [hentries]
    exact List.mem_cons_self
  have hselected : IsSelected (front ++ u) (u ++ rest) ⟨.text (Path.last path), .other⟩ :=
    ⟨_, rfl, by simp [hlast], ⟨front, by simp [hlast]⟩⟩
  have hafter := (h _ _).mpr ⟨he, fun hmatched => ?_⟩
  · refine ((hcut.mem_cleanupSimpleGlob hnul hwalk).mp hafter).2 ⟨rfl, ?_⟩
    rw [hentries, List.filter_cons_of_pos (by simpa using hselected)]
    exact ⟨rfl, Or.inl rfl⟩
  · obtain ⟨-, name, hname, hmatches⟩ := (hcut.matched_iff hnul he).mp hmatched.2
    obtain rfl := OsString.text.inj hname
    rw [hlast] at hmatches
    exact Glob.not_exists_between hu
      ((Glob.matches_one_star_iff hcut.stem_star hcut.suffix_star hslash).mp hmatches)

/-! ### All patterns -/

/-- In the trees where nothing is in the way, and in no others, a cleanup removes what its pattern
matches, exactly if the pattern is read as a glob. -/
theorem cleansExactly_iff_unobstructed_iff (pattern : List Char) :
    (∀ (Dir : Type) [DecidableEq Dir] (fs : FileSystem Dir),
      CleansExactly fs pattern ↔ Unobstructed fs pattern) ↔ ReadsAsGlob pattern := by
  constructor
  · intro h
    by_contra hglob
    simp only [ReadsAsGlob, not_or, not_not, not_exists, not_and] at hglob
    obtain ⟨hstar, hnul, hlast, hoverlap⟩ := hglob
    obtain ⟨front, suffix, hpattern, hfront, hsplit⟩ := exists_star hstar
    by_cases hcut : ∃ dir stem, IsCut pattern dir stem suffix
    · obtain ⟨dir, stem, hcut⟩ := hcut
      obtain ⟨path, hnul', hlast', hfails⟩ :=
        exists_not_cleansExactly hcut hnul (hoverlap dir stem suffix hcut)
      exact hfails ((h _ _).mpr (unobstructed_ofPath hnul' hlast' pattern))
    · obtain ⟨c, hc, htaken⟩ := exists_not_isTaken hpattern hfront hcut
      have hnul' : '\x00' ∉ Glob.fill c pattern := by
        intro hmem
        obtain rfl | hmem := Glob.mem_fill hmem
        · simp at hc
        · exact hnul hmem.2
      have hlast' : Path.IsName (Path.last (Glob.fill c pattern)) := by
        rw [last_fill (by rintro rfl; simp at hc)]
        exact isName_fill (by rintro rfl; simp at hc) hlast
      refine not_cleansExactly_of_not_isTaken hnul' hlast' hsplit ?_ htaken
        ((h _ _).mpr (unobstructed_ofPath hnul' hlast' pattern))
      exact Glob.matches_fill (by rintro rfl; simp at hc) pattern
  · rintro hglob Dir _ fs
    by_cases hstar : '*' ∈ pattern
    · by_cases hnone : '\x00' ∈ pattern ∨ ¬ Path.IsName (Path.last pattern)
      · exact iff_of_true (cleansExactly_of_not_matched hstar hnone)
          (unobstructed_of_not_matched hnone)
      · obtain ⟨hnul, hlast⟩ := not_or.mp hnone
        obtain h | h | h | ⟨dir, stem, suffix, hcut, hoverlap⟩ := hglob
        · exact absurd hstar h
        · exact absurd h hnul
        · exact absurd h hlast
        · exact hcut.cleansExactly_iff hnul hoverlap
    · exact iff_of_true (cleansExactly_of_notMem hstar) (unobstructed_of_notMem hstar)

/-! ### A pattern with nothing before its star -/

/-- Three directories are enough for a counterexample. -/
inductive Place
  | root
  | tmp
  | foo
  deriving DecidableEq

/-- A directory with one file, beside a file whose name starts as the directory's does. -/
def siblings : FileSystem Place where
  root := .root
  cwd := .root
  parent
    | .root => .root
    | .tmp => .root
    | .foo => .tmp
  entries
    | .root => [⟨.text "tmp".toList, .directory⟩]
    | .tmp => [⟨.text "foobar".toList, .other⟩, ⟨.text "foo".toList, .directory⟩]
    | .foo => [⟨.text "a".toList, .other⟩]
  target
    | .root, _ => .ok .tmp
    | .tmp, ['f', 'o', 'o'] => .ok .foo
    | _, _ => .error .other
  parent_root := rfl
  parent_target d name d' h htarget := by
    cases d with
    | root =>
      cases htarget
      rfl
    | tmp =>
      obtain rfl : name = "foo".toList := by simpa using h
      cases htarget
      rfl
    | foo => simp at h
  nodup d := by cases d <;> decide
  names d kind name h := by
    cases d with
    | root =>
      obtain ⟨rfl, -⟩ : name = "tmp".toList ∧ _ := by simpa using h
      decide
    | tmp =>
      obtain ⟨rfl, -⟩ | ⟨rfl, -⟩ : name = "foobar".toList ∧ _ ∨ name = "foo".toList ∧ _ := by
        simpa using h
      · decide
      · decide
    | foo =>
      obtain ⟨rfl, -⟩ : name = "a".toList ∧ _ := by simpa using h
      decide

/-- The separator before the star is dropped: the directory's file stays, and the file beside the
directory is removed. -/
theorem not_cleansExactly_siblings :
    (cleanupSimpleGlob siblings "/tmp/foo/*".toList).2.entries .foo =
        [⟨.text "a".toList, .other⟩] ∧
      (cleanupSimpleGlob siblings "/tmp/foo/*".toList).2.entries .tmp =
        [⟨.text "foo".toList, .directory⟩] ∧
      ¬ CleansExactly siblings "/tmp/foo/*".toList := by
  have hfoo : (cleanupSimpleGlob siblings "/tmp/foo/*".toList).2.entries .foo =
      [⟨.text "a".toList, .other⟩] := by decide +kernel
  refine ⟨hfoo, by decide +kernel, fun h => ?_⟩
  have hafter := (h .foo ⟨.text "a".toList, .other⟩).mp (by rw [hfoo]; exact List.mem_cons_self)
  refine hafter.2 ⟨rfl, "/tmp/foo/a".toList, "a".toList, rfl, ?_, ?_⟩
  · exact Glob.matches_fill (by decide : 'a' ≠ '/') "/tmp/foo/*".toList
  · rfl

end Cleanup

end Sesman

end Cheirizo
