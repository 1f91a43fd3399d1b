import Cheirizo.Lib.FileSystem
import Cheirizo.Lib.Glob

/-!
# Cleanup of stale runtime paths

Before a session starts, the runtime paths that an earlier one left are removed: those listed by
name, and those that a glob pattern matches. A pattern is cut at its first star; the text in front
is split again, into the directory that is scanned and the start of the names, and the rest is the
end of the names.

## Main definitions

* `cleanupRuntimePaths`, `removeStalePath`, `cleanupSimpleGlob` — the cleanup
* `Removes` — what a scan removes, entry by entry

## Main results

* `removesOnly_cleanupRuntimePaths` — a cleanup adds nothing and keeps every directory
* `mem_cleanupEntries` — the entries that a scan leaves
-/

namespace Cheirizo

namespace Sesman

namespace Cleanup

variable {Dir : Type}

/-! ### The cleanup -/

section Code

variable [DecidableEq Dir]

/-- A path that is not there counts as removed. -/
def removeStalePath (fs : FileSystem Dir) (path : List Char) :
    Except (List Char) Unit × FileSystem Dir :=
  match fs.removeFile path with
  | .ok fs' => (.ok (), fs')
  | .error .notFound => (.ok (), fs)
  | .error .other => (.error ("failed to remove stale runtime path ".toList ++ path), fs)

/-- The scan of a directory that was opened. A name that is not text is passed over. -/
def cleanupEntries (parent namePrefix suffix : List Char) :
    List DirEntry → FileSystem Dir → Except (List Char) Unit × FileSystem Dir
  | [], fs => (.ok (), fs)
  | ⟨.raw _, _⟩ :: entries, fs => cleanupEntries parent namePrefix suffix entries fs
  | ⟨.text fileName, _⟩ :: entries, fs =>
    if namePrefix <+: fileName ∧ suffix <:+ fileName then
      match removeStalePath fs (Path.join parent fileName) with
      | (.ok (), fs') => cleanupEntries parent namePrefix suffix entries fs'
      | (.error message, fs') => (.error message, fs')
    else cleanupEntries parent namePrefix suffix entries fs

/-- A pattern is split at its first star. Between the last slash before it and the star stands what
the names begin with. -/
def cleanupSimpleGlob (fs : FileSystem Dir) (pattern : List Char) :
    Except (List Char) Unit × FileSystem Dir :=
  match Text.splitOnce '*' pattern with
  | none => removeStalePath fs pattern
  | some (front, suffix) =>
    let parent := (Path.parent front).getD ['.']
    match Path.fileName front with
    | none => (.ok (), fs)
    | some namePrefix =>
      match fs.openDir parent with
      | .ok d => cleanupEntries parent namePrefix suffix (fs.entries d) fs
      | .error .notFound => (.ok (), fs)
      | .error .other => (.error ("failed to scan cleanup path ".toList ++ parent), fs)

/-- One cleanup after the other, up to the first that fails. -/
def cleanupEach (cleanup : FileSystem Dir → List Char → Except (List Char) Unit × FileSystem Dir) :
    List (List Char) → FileSystem Dir → Except (List Char) Unit × FileSystem Dir
  | [], fs => (.ok (), fs)
  | path :: paths, fs =>
    match cleanup fs path with
    | (.ok (), fs') => cleanupEach cleanup paths fs'
    | (.error message, fs') => (.error message, fs')

/-- The paths first, then the patterns. The first failure ends the cleanup. -/
def cleanupRuntimePaths (fs : FileSystem Dir) (cleanupPaths cleanupGlobs : List (List Char)) :
    Except (List Char) Unit × FileSystem Dir :=
  match cleanupEach removeStalePath cleanupPaths fs with
  | (.ok (), fs') => cleanupEach cleanupSimpleGlob cleanupGlobs fs'
  | (.error message, fs') => (.error message, fs')

end Code

/-! ### What a cleanup removes at most -/

/-- From one system to the other nothing is added, and what is removed has a property. -/
structure RemovesOnly (P : Dir → DirEntry → Prop) (fs fs' : FileSystem Dir) : Prop where
  kept : ∀ d, ∀ e ∈ fs'.entries d, e ∈ fs.entries d
  removed : ∀ d, ∀ e ∈ fs.entries d, e ∉ fs'.entries d → P d e

namespace RemovesOnly

variable {P Q : Dir → DirEntry → Prop} {fs fs' fs'' : FileSystem Dir}

theorem refl (P : Dir → DirEntry → Prop) (fs : FileSystem Dir) : RemovesOnly P fs fs :=
  ⟨fun _ _ h => h, fun _ _ h hnot => absurd h hnot⟩

theorem trans (h : RemovesOnly P fs fs') (h' : RemovesOnly P fs' fs'') : RemovesOnly P fs fs'' where
  kept d e he := h.kept d e (h'.kept d e he)
  removed d e he hnot := by
    by_cases he' : e ∈ fs'.entries d
    · exact h'.removed d e he' hnot
    · exact h.removed d e he he'

theorem mono (h : RemovesOnly P fs fs') (hPQ : ∀ d e, P d e → Q d e) : RemovesOnly Q fs fs' :=
  ⟨h.kept, fun d e he hnot => hPQ d e (h.removed d e he hnot)⟩

theorem each
    {cleanup : FileSystem Dir → List Char → Except (List Char) Unit × FileSystem Dir}
    (h : ∀ fs path, RemovesOnly P fs (cleanup fs path).2)
    (paths : List (List Char)) (fs : FileSystem Dir) :
    RemovesOnly P fs (cleanupEach cleanup paths fs).2 := by
  induction paths generalizing fs with
  | nil => exact .refl _ fs
  | cons path paths ih =>
    have hstep := h fs path
    rw [cleanupEach]
    cases hresult : cleanup fs path with
    | mk result fs' =>
      rw [hresult] at hstep
      cases result with
      | ok => exact hstep.trans (ih fs')
      | error message => exact hstep

end RemovesOnly

section Limits

variable [DecidableEq Dir]

/-- The entry that the removal of a path removes. -/
def IsStale (fs : FileSystem Dir) (path : List Char) (d : Dir) (e : DirEntry) : Prop :=
  e.kind = .other ∧ ∃ name, e.name = .text name ∧ fs.locate path = .ok (d, name)

/-- Removing a path removes its entry, unless that is a directory. -/
theorem mem_removeStalePath {fs : FileSystem Dir} {path : List Char} {d : Dir} {e : DirEntry} :
    e ∈ (removeStalePath fs path).2.entries d ↔ e ∈ fs.entries d ∧ ¬ IsStale fs path d e := by
  unfold removeStalePath FileSystem.removeFile IsStale
  cases hlocate : fs.locate path with
  | error kind => cases kind <;> simp [Except.bind]
  | ok place =>
    obtain ⟨d₀, name₀⟩ := place
    cases hfind : fs.find d₀ name₀ with
    | none =>
      have hnone := FileSystem.find_eq_none_iff.mp hfind
      simp only [Except.bind, hfind]
      refine ⟨fun he => ⟨he, ?_⟩, And.left⟩
      rintro ⟨-, name, hname, hplace⟩
      cases hplace
      exact hnone e he hname
    | some found =>
      obtain ⟨hfound, hname₀⟩ := FileSystem.find_eq_some_iff.mp hfind
      obtain ⟨name₁, kind⟩ := found
      cases kind with
      | directory =>
        simp only [Except.bind, hfind]
        refine ⟨fun he => ⟨he, ?_⟩, And.left⟩
        rintro ⟨hkind, name, hname, hplace⟩
        cases hplace
        rw [FileSystem.eq_of_name he hfound (hname.trans hname₀.symm)] at hkind
        cases hkind
      | other =>
        simp only [Except.bind, hfind, FileSystem.mem_remove]
        refine and_congr_right fun he => not_congr ?_
        constructor
        · rintro ⟨rfl, hname⟩
          rw [FileSystem.eq_of_name he hfound (hname.trans hname₀.symm)]
          exact ⟨rfl, name₀, hname₀, rfl⟩
        · rintro ⟨-, name, hname, hplace⟩
          cases hplace
          exact ⟨rfl, hname⟩

theorem removesOnly_removeStalePath (fs : FileSystem Dir) (path : List Char) :
    RemovesOnly (IsStale fs path) fs (removeStalePath fs path).2 where
  kept d e he := (mem_removeStalePath.mp he).1
  removed d e he hnot := by
    by_contra hstale
    exact hnot (mem_removeStalePath.mpr ⟨he, hstale⟩)

/-- What the loop over the entries of a pattern may remove. -/
def IsSelected (namePrefix suffix : List Char) (e : DirEntry) : Prop :=
  ∃ name, e.name = .text name ∧ namePrefix <+: name ∧ suffix <:+ name

theorem removesOnly_cleanupEntries {parent : List Char} (hparent : parent ≠ [])
    (namePrefix suffix : List Char) {entries : List DirEntry}
    (hslash : ∀ name kind, ⟨.text name, kind⟩ ∈ entries → '/' ∉ name) (fs : FileSystem Dir) :
    RemovesOnly (fun _ e => e.kind = .other ∧ IsSelected namePrefix suffix e) fs
      (cleanupEntries parent namePrefix suffix entries fs).2 := by
  induction entries generalizing fs with
  | nil => exact .refl _ fs
  | cons entry entries ih =>
    have hrest := ih fun name kind h => hslash name kind (List.mem_cons_of_mem _ h)
    obtain ⟨name | name, kind⟩ := entry
    · rw [cleanupEntries]
      split_ifs with hselected
      · have hstep := removesOnly_removeStalePath fs (Path.join parent name)
        have hstale : ∀ d e, IsStale fs (Path.join parent name) d e →
            e.kind = .other ∧ IsSelected namePrefix suffix e := by
          rintro d e ⟨hkind, name', hname', hlocate⟩
          obtain ⟨-, -, -, hlast⟩ := FileSystem.locate_eq_ok_iff.mp hlocate
          obtain ⟨dir, hjoin, -⟩ := Path.join_cut hparent name
          rw [hjoin, Path.last_cut (hslash name kind List.mem_cons_self)] at hlast
          exact ⟨hkind, name', hname', hlast ▸ hselected⟩
        cases hresult : removeStalePath fs (Path.join parent name) with
        | mk result fs' =>
          rw [hresult] at hstep
          cases result with
          | ok => exact (hstep.mono hstale).trans (hrest fs')
          | error message => exact hstep.mono hstale
      · exact hrest fs
    · exact hrest fs

/-- The parts of a pattern with a star that a name must have to be removed. -/
def IsTaken (front suffix : List Char) (e : DirEntry) : Prop :=
  ∃ namePrefix parent, Path.fileName front = some namePrefix ∧ Path.parent front = some parent ∧
    parent ≠ [] ∧ '\x00' ∉ parent ∧ IsSelected namePrefix suffix e

theorem removesOnly_of_star {pattern front suffix : List Char}
    (hstar : Text.splitOnce '*' pattern = some (front, suffix)) (fs : FileSystem Dir) :
    RemovesOnly (fun _ e => e.kind = .other ∧ IsTaken front suffix e) fs
      (cleanupSimpleGlob fs pattern).2 := by
  simp only [cleanupSimpleGlob, hstar]
  cases hname : Path.fileName front with
  | none => exact .refl _ fs
  | some namePrefix =>
    obtain ⟨hisName, before, after, hparts, hafter⟩ := Path.parts_of_fileName hname
    have hparent := Path.parent_of_parts hisName hparts hafter
    simp only [hparent, Option.getD_some]
    cases hopen : fs.openDir (Path.renderParts before) with
    | error kind => cases kind <;> exact .refl _ fs
    | ok d =>
      obtain ⟨hnul, hne⟩ : '\x00' ∉ Path.renderParts before ∧ Path.renderParts before ≠ [] := by
        unfold FileSystem.openDir at hopen
        split_ifs at hopen with hnul hne
        exact ⟨hnul, hne⟩
      refine (removesOnly_cleanupEntries hne namePrefix suffix
        (fun name kind h => (fs.names d kind name h).2.1) fs).mono ?_
      rintro d' e ⟨hkind, hselected⟩
      exact ⟨hkind, namePrefix, _, hname, hparent, hne, hnul, hselected⟩

theorem removesOnly_cleanupSimpleGlob (fs : FileSystem Dir) (pattern : List Char) :
    RemovesOnly (fun _ e => e.kind = .other) fs (cleanupSimpleGlob fs pattern).2 := by
  cases hstar : Text.splitOnce '*' pattern with
  | none =>
    simp only [cleanupSimpleGlob, hstar]
    exact (removesOnly_removeStalePath fs pattern).mono fun d e h => h.1
  | some parts => exact (removesOnly_of_star hstar fs).mono fun d e h => h.1

/-- A cleanup adds no entry and removes no directory. -/
theorem removesOnly_cleanupRuntimePaths (fs : FileSystem Dir)
    (cleanupPaths cleanupGlobs : List (List Char)) :
    RemovesOnly (fun _ e => e.kind = .other) fs
      (cleanupRuntimePaths fs cleanupPaths cleanupGlobs).2 := by
  have hpaths := RemovesOnly.each (fun fs path =>
    (removesOnly_removeStalePath fs path).mono fun d e h => h.1) cleanupPaths fs
  rw [cleanupRuntimePaths]
  cases hresult : cleanupEach removeStalePath cleanupPaths fs with
  | mk result fs' =>
    rw [hresult] at hpaths
    cases result with
    | ok =>
      exact hpaths.trans (RemovesOnly.each removesOnly_cleanupSimpleGlob cleanupGlobs fs')
    | error message => exact hpaths

end Limits

/-! ### What a scan removes exactly -/

section Scan

/-- A scan removes the entries before the first directory, and none after one that the scanned
path goes through. -/
def Removes (onWay : DirEntry → Prop) : List DirEntry → DirEntry → Prop
  | [], _ => False
  | first :: entries, e =>
    first.kind = .other ∧ (e = first ∨ ¬ onWay first ∧ Removes onWay entries e)

theorem mem_of_removes {onWay : DirEntry → Prop} {entries : List DirEntry} {e : DirEntry}
    (h : Removes onWay entries e) : e ∈ entries ∧ e.kind = .other := by
  induction entries with
  | nil => exact h.elim
  | cons first entries ih =>
    obtain ⟨hkind, rfl | ⟨-, h⟩⟩ := h
    · exact ⟨List.mem_cons_self, hkind⟩
    · exact ⟨List.mem_cons_of_mem _ (ih h).1, (ih h).2⟩

/-- A scan removes all it should exactly if nothing stops it before the last of them. -/
theorem forall_removes_iff {onWay : DirEntry → Prop} {entries : List DirEntry}
    (hnodup : entries.Nodup) :
    (∀ e ∈ entries, e.kind = .other → Removes onWay entries e) ↔
      entries.Pairwise fun first e => e.kind = .other → first.kind = .other ∧ ¬ onWay first := by
  induction entries with
  | nil => simp
  | cons first entries ih =>
    obtain ⟨hfresh, hnodup⟩ := List.nodup_cons.mp hnodup
    rw [List.pairwise_cons, ← ih hnodup]
    constructor
    · intro h
      have hrest : ∀ e ∈ entries, e.kind = .other →
          first.kind = .other ∧ ¬ onWay first ∧ Removes onWay entries e := by
        intro e he hkind
        obtain ⟨hfirst, heq | hlater⟩ := h e (List.mem_cons_of_mem _ he) hkind
        · exact absurd (heq ▸ he) hfresh
        · exact ⟨hfirst, hlater⟩
      exact ⟨fun e he hkind => ⟨(hrest e he hkind).1, (hrest e he hkind).2.1⟩,
        fun e he hkind => (hrest e he hkind).2.2⟩
    · rintro ⟨hfirst, hrest⟩ e he hkind
      obtain rfl | he := List.mem_cons.mp he
      · exact ⟨hkind, Or.inl rfl⟩
      · obtain ⟨hother, hway⟩ := hfirst e he hkind
        exact ⟨hother, Or.inr ⟨hway, hrest e he hkind⟩⟩

/-- An entry that a path goes through. -/
def IsOnWay (fs : FileSystem Dir) (d₀ : Dir) (parts : List (List Char)) (d : Dir)
    (e : DirEntry) : Prop :=
  ∃ name, e.name = .text name ∧ fs.Passes d₀ parts d name

theorem isOnWay_iff {fs : FileSystem Dir} {d₀ d : Dir} {parts : List (List Char)}
    {name : List Char} {kind : EntryKind} :
    IsOnWay fs d₀ parts d ⟨.text name, kind⟩ ↔ fs.Passes d₀ parts d name := by
  simp [IsOnWay]

instance instDecidablePredIsSelected (namePrefix suffix : List Char) :
    DecidablePred (IsSelected namePrefix suffix) := fun e =>
  match h : e.name with
  | .text name =>
    decidable_of_iff (namePrefix <+: name ∧ suffix <:+ name) (by simp [IsSelected, h])
  | .raw bytes => isFalse (by simp [IsSelected, h])

variable [DecidableEq Dir] {fs : FileSystem Dir} {parent namePrefix suffix : List Char} {d₀ : Dir}

theorem cleanupEntries_of_not_isSelected {e : DirEntry} (he : ¬ IsSelected namePrefix suffix e)
    (entries : List DirEntry) : cleanupEntries parent namePrefix suffix (e :: entries) fs =
      cleanupEntries parent namePrefix suffix entries fs := by
  obtain ⟨name | name, kind⟩ := e
  · rw [cleanupEntries, if_neg fun hends => he ⟨name, rfl, hends⟩]
  · rfl

/-- An entry of the scanned directory is removed, or is a directory, which ends the scan. -/
theorem removeStalePath_join (hparent : parent ≠ []) (hopen : fs.openDir parent = .ok d₀)
    {name : List Char} {kind : EntryKind} (hentry : ⟨.text name, kind⟩ ∈ fs.entries d₀) :
    removeStalePath fs (Path.join parent name) =
      match kind with
      | .directory => (.error ("failed to remove stale runtime path ".toList ++
          Path.join parent name), fs)
      | .other => (.ok (), fs.remove d₀ name) := by
  obtain ⟨hname, hslash, hnul⟩ := fs.names d₀ kind name hentry
  have hnul' : '\x00' ∉ parent := FileSystem.nul_notMem_of_openDir fs (by simp [hopen])
  have hlocate := FileSystem.locate_join fs hparent hnul' hname hslash hnul
  have hfind := FileSystem.find_eq_some_iff.mpr ⟨hentry, rfl⟩
  rw [hopen] at hlocate
  rw [removeStalePath, FileSystem.removeFile, hlocate]
  cases kind <;> simp [Except.map, Except.bind, hfind]

/-- A directory that cannot be found again loses no entry. -/
theorem cleanupEntries_of_notFound (namePrefix suffix : List Char) (hparent : parent ≠ [])
    (hopen : fs.openDir parent = .error .notFound) {entries : List DirEntry}
    (hvalid : ∀ name kind, ⟨.text name, kind⟩ ∈ entries →
      Path.IsName name ∧ '/' ∉ name ∧ '\x00' ∉ name) :
    (cleanupEntries parent namePrefix suffix entries fs).2 = fs := by
  have hnul : '\x00' ∉ parent := FileSystem.nul_notMem_of_openDir fs (by simp [hopen])
  induction entries with
  | nil => rfl
  | cons e entries ih =>
    have hrest := ih fun name kind h => hvalid name kind (List.mem_cons_of_mem _ h)
    by_cases hselected : IsSelected namePrefix suffix e
    · obtain ⟨_, kind⟩ := e
      obtain ⟨name, rfl, hends⟩ := hselected
      obtain ⟨hname, hslash, hnul'⟩ := hvalid name kind List.mem_cons_self
      have hlocate := FileSystem.locate_join fs hparent hnul hname hslash hnul'
      rw [hopen] at hlocate
      rw [cleanupEntries, if_pos hends, removeStalePath, FileSystem.removeFile, hlocate]
      exact hrest
    · rwa [cleanupEntries_of_not_isSelected hselected]

/-- The entries that a scan leaves. -/
theorem mem_cleanupEntries (hparent : parent ≠ []) (hopen : fs.openDir parent = .ok d₀)
    {entries : List DirEntry} (hentries : ∀ e ∈ entries, e ∈ fs.entries d₀)
    (hnodup : (entries.map DirEntry.name).Nodup) {d : Dir} {e : DirEntry} :
    e ∈ (cleanupEntries parent namePrefix suffix entries fs).2.entries d ↔
      e ∈ fs.entries d ∧ ¬ (d = d₀ ∧
        Removes (IsOnWay fs (fs.start parent) (Path.components parent) d₀)
          (entries.filter (IsSelected namePrefix suffix ·)) e) := by
  induction entries generalizing fs with
  | nil => simp [cleanupEntries, Removes]
  | cons entry entries ih =>
    have hrest : ∀ e ∈ entries, e ∈ fs.entries d₀ := fun e he =>
      hentries e (List.mem_cons_of_mem _ he)
    have hentry := hentries entry List.mem_cons_self
    obtain ⟨hfresh, hnodup'⟩ := List.nodup_cons.mp hnodup
    by_cases hselected : IsSelected namePrefix suffix entry
    · rw [List.filter_cons_of_pos (by simpa using hselected)]
      obtain ⟨_, kind⟩ := entry
      obtain ⟨name, rfl, hends⟩ := hselected
      have hstep := removeStalePath_join hparent hopen hentry
      rw [cleanupEntries, if_pos hends, hstep]
      cases kind with
      | directory => simp [Removes]
      | other =>
        obtain ⟨hname, -, -⟩ := fs.names d₀ .other name hentry
        have hsame := fun he => FileSystem.name_eq_iff (d := d) (e := e) hentry he
        obtain ⟨hpasses, hgone⟩ | ⟨hpasses, hstays⟩ :=
          FileSystem.openDir_remove d₀ hname hopen
        · -- the scanned path went through the entry, and is not found again
          have hscan := cleanupEntries_of_notFound namePrefix suffix hparent hgone
            fun name' kind' h => fs.names d₀ kind' name' (hrest _ h)
          change e ∈ (cleanupEntries parent namePrefix suffix entries _).2.entries d ↔ _
          rw [hscan, FileSystem.mem_remove]
          refine and_congr_right fun he => not_congr ?_
          simp [Removes, isOnWay_iff, hpasses, hsame he]
        · have hentries' : ∀ e ∈ entries, e ∈ (fs.remove d₀ name).entries d₀ := fun e he =>
            FileSystem.mem_remove.mpr ⟨hrest e he, fun h =>
              hfresh (List.mem_map.mpr ⟨e, he, h.2⟩)⟩
          have hway' : IsOnWay (fs.remove d₀ name) (fs.start parent) (Path.components parent) d₀ =
              IsOnWay fs (fs.start parent) (Path.components parent) d₀ := by
            funext e'
            simp [IsOnWay, FileSystem.passes_remove hname hpasses]
          have hscan := ih hstays hentries' hnodup'
          change _ ↔ _ ∧ ¬ (d = d₀ ∧ Removes (IsOnWay _ (fs.start parent) _ d₀) _ e) at hscan
          change e ∈ (cleanupEntries parent namePrefix suffix entries _).2.entries d ↔ _
          rw [hscan, hway', FileSystem.mem_remove, and_assoc]
          refine and_congr_right fun he => ?_
          rw [hsame he, Removes, isOnWay_iff, ← not_or, ← and_or_left]
          simp [hpasses]
    · rw [cleanupEntries_of_not_isSelected hselected,
        List.filter_cons_of_neg (by simpa using hselected)]
      exact ih hopen hrest hnodup'

end Scan

end Cleanup

end Sesman

end Cheirizo
