import Cheirizo.Sesman.Cleanup

/-!
# Which patterns a cleanup reads as globs

A glob pattern should remove the entries whose paths it matches, other than directories. A matched
directory stops the cleanup, and a matched link on the way to the directory that is scanned ends
it, so this holds of the trees in which none of them is listed before an entry to remove. It holds
of all these trees exactly for the patterns that have one star, in the last component, after a
start of the name that is not part of its end as well.

## Main definitions

* `Matched` — the entries whose path a pattern matches
* `CleansExactly`, `Unobstructed` — what is removed is what is matched, and nothing is in the way
* `ReadsAsGlob` — the patterns that are read as they are meant
-/

namespace Cheirizo

namespace Sesman

namespace Cleanup

open FileSystem

variable {Dir : Type}

/-! ### Patterns and trees -/

/-- An entry that a path stands for which the pattern matches. -/
def Matched (fs : FileSystem Dir) (pattern : List Char) (d : Dir) (e : DirEntry) : Prop :=
  ∃ path name, e.name = .text name ∧ Glob.Matches pattern path ∧ fs.locate path = .ok (d, name)

/-- A cleanup removes the matched entries that are not directories, and no others. -/
def CleansExactly [DecidableEq Dir] (fs : FileSystem Dir) (pattern : List Char) : Prop :=
  ∀ d e, e ∈ (cleanupSimpleGlob fs pattern).2.entries d ↔
    e ∈ fs.entries d ∧ ¬ (e.kind = .other ∧ Matched fs pattern d e)

/-- No matched entry that is not a directory is listed after a matched directory, or after a
matched entry that the pattern's own directory part goes through. -/
def Unobstructed (fs : FileSystem Dir) (pattern : List Char) : Prop :=
  ∀ d, (fs.entries d).Pairwise fun first e =>
    Matched fs pattern d first → Matched fs pattern d e → e.kind = .other →
      first.kind = .other ∧ ¬ IsOnWay fs (fs.start pattern) (Path.directoryParts pattern) d first

/-- A pattern with one star, in its last component and after the start of a name. -/
structure IsCut (pattern dir stem suffix : List Char) : Prop where
  eq : pattern = dir ++ '/' :: (stem ++ '*' :: suffix)
  dir_star : '*' ∉ dir
  stem_star : '*' ∉ stem
  stem_slash : '/' ∉ stem
  stem_name : Path.IsName stem
  suffix_star : '*' ∉ suffix
  suffix_slash : '/' ∉ suffix

/-- Patterns without a star, patterns that match no entry, and patterns with one star in the last
component between two texts that do not overlap. -/
def ReadsAsGlob (pattern : List Char) : Prop :=
  '*' ∉ pattern ∨ '\x00' ∈ pattern ∨ ¬ Path.IsName (Path.last pattern) ∨
    ∃ dir stem suffix, IsCut pattern dir stem suffix ∧ ¬ Glob.Overlap stem suffix

section Readings

variable {fs : FileSystem Dir} {pattern : List Char}

/-! ### Patterns without a star -/

theorem matched_iff_of_notMem (hstar : '*' ∉ pattern) {d : Dir} {e : DirEntry} :
    Matched fs pattern d e ↔ ∃ name, e.name = .text name ∧ fs.locate pattern = .ok (d, name) := by
  simp only [Matched, Glob.matches_of_notMem hstar]
  constructor
  · rintro ⟨_, name, hname, rfl, hlocate⟩
    exact ⟨name, hname, hlocate⟩
  · rintro ⟨name, hname, hlocate⟩
    exact ⟨pattern, name, hname, rfl, hlocate⟩

theorem cleansExactly_of_notMem [DecidableEq Dir] (hstar : '*' ∉ pattern) :
    CleansExactly fs pattern := by
  intro d e
  rw [cleanupSimpleGlob, Text.splitOnce_of_notMem hstar, matched_iff_of_notMem hstar]
  exact mem_removeStalePath

/-- A path is one entry, so no other can be in its way. -/
theorem unobstructed_of_notMem (hstar : '*' ∉ pattern) : Unobstructed fs pattern := by
  intro d
  refine (List.pairwise_map.mp (fs.nodup d)).imp fun {first e} hne hfirst he => ?_
  obtain ⟨name, hname, hlocate⟩ := (matched_iff_of_notMem hstar).mp hfirst
  obtain ⟨name', hname', hlocate'⟩ := (matched_iff_of_notMem hstar).mp he
  rw [hlocate] at hlocate'
  cases hlocate'
  exact absurd (hname.trans hname'.symm) hne

/-! ### Patterns that match no entry -/

/-- A path that is not a name at its end, or has a character that no name has, stands for no
entry. -/
theorem not_matched (h : '\x00' ∈ pattern ∨ ¬ Path.IsName (Path.last pattern)) (d : Dir)
    (e : DirEntry) : ¬ Matched fs pattern d e := by
  rintro ⟨path, name, -, hmatches, hlocate⟩
  obtain ⟨hnul, hlast, -, -⟩ := locate_eq_ok_iff.mp hlocate
  obtain h | h := h
  · exact hnul (Glob.mem_of_matches hmatches (by decide) h)
  · have hkeeps : ∀ text, ¬ Path.IsName text → '*' ∉ text := by
      intro text htext hmem
      refine htext ⟨?_, ?_, ?_⟩ <;> rintro rfl <;> simp at hmem
    obtain hslash | ⟨dir, text, rfl, hslash⟩ := Path.cut_cases pattern
    · rw [Path.last_of_notMem hslash] at h
      rw [(Glob.matches_of_notMem (hkeeps pattern h)).mp hmatches,
        Path.last_of_notMem hslash] at hlast
      exact h hlast
    · rw [Path.last_cut hslash] at h
      have hstar : '*' ∉ '/' :: text := by simpa using hkeeps text h
      obtain ⟨a, b, rfl, -, hb⟩ := Glob.matches_append.mp hmatches
      rw [(Glob.matches_of_notMem hstar).mp hb, Path.last_cut hslash] at hlast
      exact h hlast

/-- Nor does a cleanup find one. -/
theorem not_isTaken {front suffix : List Char} (hpattern : pattern = front ++ '*' :: suffix)
    (h : '\x00' ∈ pattern ∨ ¬ Path.IsName (Path.last pattern)) {d : Dir} {e : DirEntry}
    (he : e ∈ fs.entries d) : ¬ IsTaken front suffix e := by
  obtain ⟨_, kind⟩ := e
  rintro ⟨namePrefix, parent, hfileName, hparent, -, hnul, name, rfl, hfront, hend⟩
  obtain ⟨-, hslash, hnul'⟩ := fs.names d kind name he
  obtain h | h := h
  · rw [hpattern, List.mem_append, List.mem_cons] at h
    obtain h | h | h := h
    · exact hnul (Path.mem_parent hfileName hparent (by decide) (by decide) h
        fun hmem => hnul' (hfront.subset hmem))
    · cases h
    · exact hnul' (hend.subset h)
  · have hsuffix : '/' ∉ '*' :: suffix := by
      simpa using fun hmem => hslash (hend.subset hmem)
    refine h ?_
    rw [hpattern, Path.last_append hsuffix]
    refine ⟨?_, ?_, ?_⟩ <;> intro heq <;> have hmem := congrArg ('*' ∈ ·) heq <;> simp at hmem

theorem exists_star (h : '*' ∈ pattern) : ∃ front suffix, pattern = front ++ '*' :: suffix ∧
    '*' ∉ front ∧ Text.splitOnce '*' pattern = some (front, suffix) := by
  obtain ⟨front, suffix, rfl, hfront⟩ := List.eq_append_cons_of_mem h
  exact ⟨front, suffix, rfl, hfront, Text.splitOnce_append hfront suffix⟩

theorem cleansExactly_of_not_matched [DecidableEq Dir] (hstar : '*' ∈ pattern)
    (h : '\x00' ∈ pattern ∨ ¬ Path.IsName (Path.last pattern)) : CleansExactly fs pattern := by
  obtain ⟨front, suffix, hpattern, -, hsplit⟩ := exists_star hstar
  have hremoves := removesOnly_of_star hsplit fs
  intro d e
  refine ⟨fun he => ⟨hremoves.kept d e he, fun hmatched => not_matched h d e hmatched.2⟩, ?_⟩
  rintro ⟨he, -⟩
  by_contra hnot
  exact not_isTaken hpattern h he (hremoves.removed d e he hnot).2

theorem unobstructed_of_not_matched
    (h : '\x00' ∈ pattern ∨ ¬ Path.IsName (Path.last pattern)) : Unobstructed fs pattern :=
  fun d => List.pairwise_of_forall fun first _ hfirst => absurd hfirst (not_matched h d first)

/-! ### Patterns with a star in the last component -/

section Cut

variable {dir stem suffix : List Char}

theorem IsCut.directoryParts (hcut : IsCut pattern dir stem suffix) :
    Path.directoryParts pattern = Path.components dir := by
  have hslash : '/' ∉ stem ++ '*' :: suffix := by
    simpa using ⟨hcut.stem_slash, hcut.suffix_slash⟩
  rw [hcut.eq, Path.directoryParts_cut hslash]

theorem IsCut.start_eq (hcut : IsCut pattern dir stem suffix) (fs : FileSystem Dir)
    (name : List Char) :
    fs.start (dir ++ '/' :: name) = fs.start pattern := by
  rw [hcut.eq, start, start, if_congr (Path.isAbsolute_append_congr dir _ _) rfl rfl]

/-- The matched entries are in the directory of the pattern. -/
theorem IsCut.matched_iff (hcut : IsCut pattern dir stem suffix) (hnul : '\x00' ∉ pattern)
    {d : Dir} {e : DirEntry} (he : e ∈ fs.entries d) :
    Matched fs pattern d e ↔
      fs.walk (fs.start pattern) (Path.directoryParts pattern) = .ok d ∧
        ∃ name, e.name = .text name ∧ Glob.Matches (stem ++ '*' :: suffix) name := by
  have hmatches : ∀ path, Glob.Matches pattern path ↔
      ∃ name, path = dir ++ '/' :: name ∧ Glob.Matches (stem ++ '*' :: suffix) name := by
    intro path
    rw [hcut.eq, Glob.matches_cut hcut.dir_star]
  rw [hcut.directoryParts]
  constructor
  · rintro ⟨path, name, hname, hpath, hlocate⟩
    obtain ⟨name', rfl, hname'⟩ := (hmatches path).mp hpath
    have hslash : '/' ∉ name' := Glob.slash_notMem_of_matches hname'
      (by simpa using ⟨hcut.stem_slash, hcut.suffix_slash⟩)
    obtain ⟨-, -, hwalk, hlast⟩ := locate_eq_ok_iff.mp hlocate
    rw [Path.last_cut hslash] at hlast
    rw [hcut.start_eq, Path.directoryParts_cut hslash] at hwalk
    exact ⟨hwalk, name, hname, hlast ▸ hname'⟩
  · rintro ⟨hwalk, name, hname, hname'⟩
    obtain ⟨_, kind⟩ := e
    obtain rfl : _ = OsString.text name := hname
    obtain ⟨hisName, hslash, hnul'⟩ := fs.names d kind name he
    refine ⟨dir ++ '/' :: name, name, rfl, (hmatches _).mpr ⟨name, rfl, hname'⟩,
      locate_eq_ok_iff.mpr ⟨?_, ?_, ?_, Path.last_cut hslash _⟩⟩
    · have hdir : '\x00' ∉ dir := fun h => hnul (by simp [hcut.eq, h])
      simpa using ⟨hdir, hnul'⟩
    · rwa [Path.last_cut hslash]
    · rwa [hcut.start_eq, Path.directoryParts_cut hslash]

/-- A cleanup scans the directory of the pattern. -/
theorem IsCut.exists_parent [DecidableEq Dir] (hcut : IsCut pattern dir stem suffix)
    (hnul : '\x00' ∉ pattern) (fs : FileSystem Dir) : ∃ parent, parent ≠ [] ∧
      Path.components parent = Path.directoryParts pattern ∧
      fs.start parent = fs.start pattern ∧
      fs.openDir parent = fs.walk (fs.start pattern) (Path.directoryParts pattern) ∧
      (∀ d, fs.openDir parent = .ok d →
        cleanupSimpleGlob fs pattern = cleanupEntries parent stem suffix (fs.entries d) fs) ∧
      ∀ kind, fs.openDir parent = .error kind → (cleanupSimpleGlob fs pattern).2 = fs := by
  obtain ⟨parent, hparent, hne, hcomponents, habsolute, hmem⟩ :=
    Path.parent_cut hcut.stem_name hcut.stem_slash dir
  have hnul' : '\x00' ∉ parent := fun h => hnul (by simp [hcut.eq, hmem _ h (by decide)])
  have hstart : fs.start parent = fs.start pattern := by
    rw [hcut.eq, start, start, if_congr (habsolute _) rfl rfl]
  have hopen : fs.openDir parent =
      fs.walk (fs.start pattern) (Path.directoryParts pattern) := by
    rw [openDir, if_neg hnul', if_neg hne, hstart, hcomponents, hcut.directoryParts]
  have hsplit : Text.splitOnce '*' pattern = some (dir ++ '/' :: stem, suffix) := by
    have hfront : '*' ∉ dir ++ '/' :: stem := by simpa using ⟨hcut.dir_star, hcut.stem_star⟩
    rw [hcut.eq, ← Text.splitOnce_append hfront]
    simp
  have hname := Path.fileName_cut hcut.stem_name hcut.stem_slash dir
  refine ⟨parent, hne, by rw [hcomponents, hcut.directoryParts], hstart, hopen, fun d hd => ?_,
    fun kind hkind => ?_⟩
  · simp [cleanupSimpleGlob, hsplit, hparent, hname, hd]
  · cases kind <;> simp [cleanupSimpleGlob, hsplit, hparent, hname, hkind]

theorem IsCut.mem_cleanupSimpleGlob [DecidableEq Dir] (hcut : IsCut pattern dir stem suffix)
    (hnul : '\x00' ∉ pattern) {d₀ : Dir}
    (hwalk : fs.walk (fs.start pattern) (Path.directoryParts pattern) = .ok d₀) {d : Dir}
    {e : DirEntry} :
    e ∈ (cleanupSimpleGlob fs pattern).2.entries d ↔ e ∈ fs.entries d ∧ ¬ (d = d₀ ∧
      Removes (IsOnWay fs (fs.start pattern) (Path.directoryParts pattern) d₀)
        ((fs.entries d₀).filter (IsSelected stem suffix ·)) e) := by
  obtain ⟨parent, hne, hcomponents, hstart, hopen, hscan, -⟩ := hcut.exists_parent hnul fs
  rw [hwalk] at hopen
  rw [hscan d₀ hopen, ← hstart, ← hcomponents]
  exact mem_cleanupEntries hne hopen (fun _ h => h) (fs.nodup d₀)

theorem IsCut.cleanupSimpleGlob_eq [DecidableEq Dir] (hcut : IsCut pattern dir stem suffix)
    (hnul : '\x00' ∉ pattern) {kind : IoErrorKind}
    (hwalk : fs.walk (fs.start pattern) (Path.directoryParts pattern) = .error kind) :
    (cleanupSimpleGlob fs pattern).2 = fs := by
  obtain ⟨parent, -, -, -, hopen, -, hfails⟩ := hcut.exists_parent hnul fs
  exact hfails kind (hopen.trans hwalk)

/-- Where the two ends of the names do not overlap, the scan selects what is matched. -/
theorem IsCut.matched_iff_isSelected (hcut : IsCut pattern dir stem suffix)
    (hnul : '\x00' ∉ pattern) (hoverlap : ¬ Glob.Overlap stem suffix) {d : Dir} {e : DirEntry}
    (he : e ∈ fs.entries d) :
    Matched fs pattern d e ↔
      fs.walk (fs.start pattern) (Path.directoryParts pattern) = .ok d ∧
        IsSelected stem suffix e := by
  rw [hcut.matched_iff hnul he]
  refine and_congr_right fun _ => exists_congr fun name => and_congr_right fun hname => ?_
  obtain ⟨_, kind⟩ := e
  obtain rfl : _ = OsString.text name := hname
  rw [Glob.matches_one_star_iff hcut.stem_star hcut.suffix_star (fs.names d kind name he).2.1,
    Glob.exists_between_iff hoverlap]

/-- The entries to remove are then those the scan should come to. -/
theorem IsCut.cleansExactly_iff_removes [DecidableEq Dir] (hcut : IsCut pattern dir stem suffix)
    (hnul : '\x00' ∉ pattern) (hoverlap : ¬ Glob.Overlap stem suffix) {d₀ : Dir}
    (hwalk : fs.walk (fs.start pattern) (Path.directoryParts pattern) = .ok d₀) :
    CleansExactly fs pattern ↔
      ∀ e ∈ (fs.entries d₀).filter (IsSelected stem suffix ·), e.kind = .other →
        Removes (IsOnWay fs (fs.start pattern) (Path.directoryParts pattern) d₀)
          ((fs.entries d₀).filter (IsSelected stem suffix ·)) e := by
  have hselected : ∀ e, e ∈ (fs.entries d₀).filter (IsSelected stem suffix ·) ↔
      e ∈ fs.entries d₀ ∧ Matched fs pattern d₀ e := by
    intro e
    rw [List.mem_filter, decide_eq_true_eq]
    exact and_congr_right fun he => by
      simp [hcut.matched_iff_isSelected hnul hoverlap he, hwalk]
  constructor
  · intro h e he hkind
    obtain ⟨he, hmatched⟩ := (hselected e).mp he
    by_contra hnot
    have hafter := (hcut.mem_cleanupSimpleGlob hnul hwalk).mpr ⟨he, fun h => hnot h.2⟩
    exact ((h d₀ e).mp hafter).2 ⟨hkind, hmatched⟩
  · intro h d e
    rw [hcut.mem_cleanupSimpleGlob hnul hwalk]
    refine and_congr_right fun he => not_congr ⟨?_, ?_⟩
    · rintro ⟨rfl, hremoves⟩
      obtain ⟨hmem, hkind⟩ := mem_of_removes hremoves
      exact ⟨hkind, ((hselected e).mp hmem).2⟩
    · rintro ⟨hkind, hmatched⟩
      have hwalk' := ((hcut.matched_iff_isSelected hnul hoverlap he).mp hmatched).1
      obtain rfl : d₀ = d := Except.ok.inj (hwalk.symm.trans hwalk')
      exact ⟨rfl, h e ((hselected e).mpr ⟨he, hmatched⟩) hkind⟩

/-- And only in the scanned directory can something be in the way. -/
theorem IsCut.unobstructed_iff_pairwise (hcut : IsCut pattern dir stem suffix)
    (hnul : '\x00' ∉ pattern) (hoverlap : ¬ Glob.Overlap stem suffix) {d₀ : Dir}
    (hwalk : fs.walk (fs.start pattern) (Path.directoryParts pattern) = .ok d₀) :
    Unobstructed fs pattern ↔
      ((fs.entries d₀).filter (IsSelected stem suffix ·)).Pairwise fun first e =>
        e.kind = .other → first.kind = .other ∧
          ¬ IsOnWay fs (fs.start pattern) (Path.directoryParts pattern) d₀ first := by
  have hmatched : ∀ d, ∀ e ∈ fs.entries d, Matched fs pattern d e ↔
      d₀ = d ∧ IsSelected stem suffix e := by
    intro d e he
    rw [hcut.matched_iff_isSelected hnul hoverlap he, hwalk, Except.ok.injEq]
  rw [List.pairwise_filter]
  simp only [decide_eq_true_eq]
  constructor
  · intro h
    refine (h d₀).imp_of_mem fun hfirst he hclear hselected hselected' => ?_
    exact hclear ((hmatched d₀ _ hfirst).mpr ⟨rfl, hselected⟩)
      ((hmatched d₀ _ he).mpr ⟨rfl, hselected'⟩)
  · intro h d
    by_cases hd : d₀ = d
    · subst hd
      refine h.imp_of_mem fun hfirst he hscan hmatch hmatch' => ?_
      exact hscan ((hmatched d₀ _ hfirst).mp hmatch).2 ((hmatched d₀ _ he).mp hmatch').2
    · refine ((fs.nodup d).of_map _).imp_of_mem fun hfirst _ _ hmatch => ?_
      exact absurd ((hmatched d _ hfirst).mp hmatch).1 hd

theorem IsCut.cleansExactly_iff [DecidableEq Dir] (hcut : IsCut pattern dir stem suffix)
    (hnul : '\x00' ∉ pattern) (hoverlap : ¬ Glob.Overlap stem suffix) :
    CleansExactly fs pattern ↔ Unobstructed fs pattern := by
  cases hwalk : fs.walk (fs.start pattern) (Path.directoryParts pattern) with
  | error kind =>
    have hnone : ∀ d, ∀ e ∈ fs.entries d, ¬ Matched fs pattern d e := by
      intro d e he hmatched
      cases hwalk.symm.trans ((hcut.matched_iff_isSelected hnul hoverlap he).mp hmatched).1
    refine iff_of_true (fun d e => ?_) fun d => ?_
    · rw [hcut.cleanupSimpleGlob_eq hnul hwalk]
      exact ⟨fun he => ⟨he, fun h => hnone d e he h.2⟩, And.left⟩
    · refine ((fs.nodup d).of_map _).imp_of_mem fun hfirst _ _ hmatched => ?_
      exact absurd hmatched (hnone d _ hfirst)
  | ok d₀ =>
    rw [hcut.cleansExactly_iff_removes hnul hoverlap hwalk,
      hcut.unobstructed_iff_pairwise hnul hoverlap hwalk]
    exact forall_removes_iff (((fs.nodup d₀).of_map _).filter _)

end Cut

end Readings

end Cleanup

end Sesman

end Cheirizo
