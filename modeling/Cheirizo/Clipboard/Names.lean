import Mathlib.Data.Finset.Card
import Cheirizo.Clipboard.Files

/-!
# Names of received files

Two facts about the names under which files of the client arrive. The path reserved for a file is
not in use, because the suffixes tried are different and there is one more of them than paths in
use. And the list of URIs that announces the files can be read back: a URI has no line break in it,
and different paths have different URIs.

## Main definitions

* `fileUriBytes`, `uriLines` — a URI as it is written, and the URIs of a payload

## Main results

* `reserveDestination_free` — a reserved path is not in use
* `fileUriBytes_injective`, `uriLines_fileUriList` — the payload determines the paths
-/

namespace Cheirizo

namespace Clipboard

open Unicode

/-! ### Reserved paths -/

namespace FileTransferState

/-- A search stops at the first free candidate, or at the last one. -/
theorem firstFree_cases (taken : String → Bool) (candidate : ℕ → String) (n index : ℕ) :
    ∃ i ≤ n, firstFree taken candidate n index = candidate (index + i) ∧
      (∀ j < i, taken (candidate (index + j)) = true) ∧
      (i < n → taken (candidate (index + i)) = false) := by
  induction n generalizing index with
  | zero => exact ⟨0, Nat.le_refl _, rfl, fun _ hj => absurd hj (Nat.not_lt_zero _), nofun⟩
  | succ n ih =>
    rw [firstFree]
    split
    · rename_i htaken
      obtain ⟨i, hi, heq, hall, hfree⟩ := ih (index + 1)
      simp only [Nat.succ_add_eq_add_succ] at heq hall hfree
      refine ⟨i + 1, Nat.succ_le_succ hi, heq, ?_, fun hlt => hfree (Nat.lt_of_succ_lt_succ hlt)⟩
      intro j hj
      cases j with
      | zero => exact htaken
      | succ j => exact hall j (Nat.lt_of_succ_lt_succ hj)
    · rename_i hfree
      rw [Bool.not_eq_true] at hfree
      exact ⟨0, Nat.zero_le _, rfl, fun _ hj => absurd hj (Nat.not_lt_zero _), fun _ => hfree⟩

/-- A search that ends at a path in use has met only paths in use. -/
theorem taken_of_firstFree {taken : String → Bool} {candidate : ℕ → String} {n index : ℕ}
    (h : taken (firstFree taken candidate n index) = true) {i : ℕ} (hi : i ≤ n) :
    taken (candidate (index + i)) = true := by
  obtain ⟨last, hlast, heq, hall, hfree⟩ := firstFree_cases taken candidate n index
  rw [heq] at h
  obtain hlt | rfl := Nat.lt_or_eq_of_le hlast
  · exact absurd (h.symm.trans (hfree hlt)) Bool.noConfusion
  · obtain hbefore | rfl := Nat.lt_or_eq_of_le hi
    · exact hall i hbefore
    · exact h

/-- One candidate more than there are paths in use is enough. -/
theorem firstFree_free {taken : String → Bool} {candidate : ℕ → String} {used : List String}
    (hused : ∀ path, taken path = true → path ∈ used) (hinj : candidate.Injective) (index : ℕ) :
    taken (firstFree taken candidate used.length index) = false := by
  by_contra h
  rw [Bool.not_eq_false] at h
  have hsubset : (Finset.range (used.length + 1)).image (fun i => candidate (index + i)) ⊆
      used.toFinset := by
    intro path hpath
    obtain ⟨i, hi, rfl⟩ := Finset.mem_image.mp hpath
    rw [List.mem_toFinset]
    exact hused _ (taken_of_firstFree h (Nat.lt_succ_iff.mp (Finset.mem_range.mp hi)))
  have hcard : ((Finset.range (used.length + 1)).image fun i => candidate (index + i)).card =
      used.length + 1 := by
    rw [Finset.card_image_of_injective, Finset.card_range]
    intro i j hij
    exact Nat.add_left_cancel (hinj hij)
  have hle := (Finset.card_le_card hsubset).trans (List.toFinset_card_le used)
  omega

theorem joinPath_injective (dir : String) : (joinPath dir).Injective := by
  intro a b h
  rw [joinPath, joinPath] at h
  split at h
  · exact String.append_right_inj _ |>.mp h
  · exact String.append_right_inj _ |>.mp h

theorem toString_injective : (toString : ℕ → String).Injective := by
  intro m n h
  have hdigits : Nat.toDigits 10 m = Nat.toDigits 10 n := by
    rw [← Nat.toList_repr, ← Nat.toList_repr]
    exact congrArg String.toList h
  rw [← Nat.ofDigitChars_ten_toDigits (n := m), hdigits, Nat.ofDigitChars_ten_toDigits]

theorem suffixedName_injective (filename : List Char) : (suffixedName filename).Injective := by
  intro m n h
  rw [suffixedName, suffixedName] at h
  exact toString_injective (String.append_right_inj _ |>.mp
    (String.append_left_inj _ |>.mp (String.append_left_inj _ |>.mp h)))

/-- The paths that are in use. -/
def usedPaths (disk : Disk) (s : FileTransferState) : List String :=
  disk.existing ++ s.tempPaths ++ s.completedFiles ++ s.incomingFiles.map fun f => f.2.finalPath

theorem mem_usedPaths {disk : Disk} {s : FileTransferState} {path : String} :
    path ∈ s.usedPaths disk ↔ destinationIsTaken disk s path = true := by
  simp [usedPaths, destinationIsTaken, Disk.exists_, or_assoc]

/-- **A reserved path is not in use.** -/
theorem reserveDestination_free (disk : Disk) (s : FileTransferState) (filename : List Char) :
    s.reserveDestination disk filename ∉ s.usedPaths disk := by
  rw [mem_usedPaths, reserveDestination]
  split
  · have hlength : disk.existing.length + 2 * s.incomingFiles.length + s.completedFiles.length =
        (s.usedPaths disk).length := by
      simp only [usedPaths, tempPaths, List.length_append, List.length_map]
      omega
    have hinj : (fun index => joinPath s.downloadDir (suffixedName filename index)).Injective :=
      (joinPath_injective _).comp (suffixedName_injective filename)
    rw [hlength, Bool.not_eq_true]
    exact firstFree_free (fun path => mem_usedPaths.mpr) hinj 1
  · assumption

end FileTransferState

/-! ### URIs -/

/-- A URI as it is written. -/
def fileUriBytes (path : String) : List UInt8 := encodeUtf8 (fileUri path)

/-- The URIs of a payload: the lines after the action, without the final zero. -/
def uriLines (data : List UInt8) : List (List UInt8) := (data.drop 5).dropLast.splitOn 10

theorem upperHex_injOn : ∀ m < 16, ∀ n < 16, upperHex m = upperHex n → m = n := by decide

theorem upperHex_bounds : ∀ n < 16, 32 ≤ (upperHex n).toNat ∧ (upperHex n).toNat < 127 := by
  decide

/-- What is not escaped is printable ASCII and no percent sign. -/
theorem bounds_of_not_escaped {b : UInt8} (h : uriEscaped b = false) :
    32 ≤ b.toNat ∧ b.toNat < 127 ∧ b.toNat ≠ 37 := by
  rw [uriEscaped, Bool.or_eq_false_iff, Bool.or_eq_false_iff] at h
  obtain ⟨⟨hlow, hhigh⟩, hany⟩ := h
  rw [decide_eq_false_iff_not, UInt8.not_lt, UInt8.le_iff_toNat_le] at hlow
  rw [decide_eq_false_iff_not, UInt8.not_le, UInt8.lt_iff_toNat_lt] at hhigh
  refine ⟨hlow, hhigh, fun hpercent => ?_⟩
  have hmem : ('%' : Char) ∈ " \"#%<>?".toList ++ [Char.ofNat 0x60, Char.ofNat 0x7B,
      Char.ofNat 0x7D] := by decide
  have hno := List.any_eq_false.mp hany _ hmem
  exact hno (decide_eq_true hpercent.symm)

theorem toNat_ofNat_of_not_escaped {b : UInt8} (h : uriEscaped b = false) :
    (Char.ofNat b.toNat).toNat = b.toNat := by
  obtain ⟨-, hhigh, -⟩ := bounds_of_not_escaped h
  rw [Char.ofNat, dif_pos (Or.inl (by omega))]
  rfl

theorem ofNat_ne_percent {b : UInt8} (h : uriEscaped b = false) : Char.ofNat b.toNat ≠ '%' := by
  obtain ⟨-, -, hne⟩ := bounds_of_not_escaped h
  intro heq
  have hnat := congrArg Char.toNat heq
  rw [toNat_ofNat_of_not_escaped h] at hnat
  exact hne hnat

theorem encodeUriByte_append_ne_nil (b : UInt8) (cs : List Char) : encodeUriByte b ++ cs ≠ [] := by
  rw [encodeUriByte]
  split
  · exact List.cons_ne_nil _ _
  · exact List.cons_ne_nil _ _

/-- The first byte can be told from what is written for it. -/
theorem encodeUriByte_append_inj {a b : UInt8} {cs ds : List Char}
    (h : encodeUriByte a ++ cs = encodeUriByte b ++ ds) : a = b ∧ cs = ds := by
  have ha := a.toNat_lt
  have hb := b.toNat_lt
  rw [encodeUriByte, encodeUriByte] at h
  split at h
  · split at h
    · simp only [List.cons_append, List.nil_append, List.cons.injEq, true_and] at h
      obtain ⟨hhigh, hlow, hrest⟩ := h
      have hhigh := upperHex_injOn _ (by omega) _ (by omega) hhigh
      have hlow := upperHex_injOn _ (by omega) _ (by omega) hlow
      refine ⟨?_, hrest⟩
      rw [← UInt8.toNat_inj]
      omega
    · rename_i hplain
      rw [Bool.not_eq_true] at hplain
      exact absurd (List.head_eq_of_cons_eq h).symm (ofNat_ne_percent hplain)
  · rename_i hplain
    rw [Bool.not_eq_true] at hplain
    split at h
    · exact absurd (List.head_eq_of_cons_eq h) (ofNat_ne_percent hplain)
    · rename_i hplain'
      rw [Bool.not_eq_true] at hplain'
      obtain ⟨hchar, hrest⟩ := List.cons.inj h
      refine ⟨?_, hrest⟩
      have hnat := congrArg Char.toNat hchar
      rw [toNat_ofNat_of_not_escaped hplain, toNat_ofNat_of_not_escaped hplain'] at hnat
      exact UInt8.toNat_inj.mp hnat

theorem flatMap_encodeUriByte_injective : (List.flatMap encodeUriByte).Injective := by
  intro as
  induction as with
  | nil =>
    intro bs h
    cases bs with
    | nil => rfl
    | cons b bs => exact absurd h.symm (encodeUriByte_append_ne_nil b _)
  | cons a as ih =>
    intro bs h
    cases bs with
    | nil => exact absurd h (encodeUriByte_append_ne_nil a _)
    | cons b bs =>
      rw [List.flatMap_cons, List.flatMap_cons] at h
      obtain ⟨rfl, hrest⟩ := encodeUriByte_append_inj h
      rw [ih hrest]

/-- **Different paths have different URIs.** -/
theorem fileUriBytes_injective : fileUriBytes.Injective := by
  intro p q h
  have huri : fileUri p = fileUri q := encodeUtf8_injective h
  have hbytes := flatMap_encodeUriByte_injective (List.append_cancel_left huri)
  exact String.toList_inj.mp (encodeUtf8_injective hbytes)

/-- A URI is printable ASCII. -/
theorem fileUri_bounds {path : String} {c : Char} (hc : c ∈ fileUri path) :
    32 ≤ c.toNat ∧ c.toNat < 127 := by
  obtain hscheme | hpath := List.mem_append.mp hc
  · have hall : ("file://".toList.all fun c => 32 ≤ c.toNat ∧ c.toNat < 127) = true := by decide
    exact of_decide_eq_true (List.all_eq_true.mp hall c hscheme)
  · obtain ⟨b, -, hb⟩ := List.mem_flatMap.mp hpath
    have hbound := b.toNat_lt
    rw [encodeUriByte] at hb
    split at hb
    · simp only [List.mem_cons, List.not_mem_nil, or_false] at hb
      obtain rfl | rfl | rfl := hb
      · decide
      · exact upperHex_bounds _ (by omega)
      · exact upperHex_bounds _ (by omega)
    · rename_i hplain
      rw [Bool.not_eq_true] at hplain
      rw [List.mem_singleton.mp hb, toNat_ofNat_of_not_escaped hplain]
      obtain ⟨hlow, hhigh, -⟩ := bounds_of_not_escaped hplain
      exact ⟨hlow, hhigh⟩

theorem newline_notMem_fileUriBytes (path : String) : (10 : UInt8) ∉ fileUriBytes path := by
  intro hmem
  rw [fileUriBytes, encodeUtf8, List.mem_flatMap] at hmem
  obtain ⟨c, hc, hten⟩ := hmem
  obtain ⟨hlow, hhigh⟩ := fileUri_bounds hc
  rw [encodeChar_of_ascii (by omega), List.mem_singleton] at hten
  have hnat := congrArg UInt8.toNat hten
  rw [UInt8.toNat_ofNat', Nat.mod_eq_of_lt (by omega)] at hnat
  change 10 = c.toNat at hnat
  omega

theorem encodeUtf8_intercalate (lines : List (List Char)) :
    encodeUtf8 (List.intersperse ['\n'] lines).flatten =
      [10].intercalate (lines.map encodeUtf8) := by
  induction lines with
  | nil => rfl
  | cons line lines ih =>
    cases lines with
    | nil => simp [encodeUtf8]
    | cons next lines =>
      rw [List.intersperse_cons_cons, List.flatten_cons, List.flatten_cons, encodeUtf8_append,
        encodeUtf8_append, ih]
      rfl

/-- **The URIs of a payload are those of the files.** -/
theorem uriLines_fileUriList {paths : List String} (h : paths ≠ []) :
    uriLines (fileUriList paths) = paths.map fileUriBytes := by
  have haction : encodeUtf8 "copy\n".toList = [99, 111, 112, 121, 10] := by decide
  have hline : ∀ line ∈ (paths.map fileUri).map encodeUtf8, (10 : UInt8) ∉ line := by
    intro line hline
    rw [List.map_map] at hline
    obtain ⟨path, -, rfl⟩ := List.mem_map.mp hline
    exact newline_notMem_fileUriBytes path
  have hsome : (paths.map fileUri).map encodeUtf8 ≠ [] := by
    simpa using h
  rw [uriLines, fileUriList, encodeUtf8_append, haction, encodeUtf8_intercalate, List.append_assoc,
    List.drop_append_of_le_length (by decide)]
  show ([10].intercalate ((paths.map fileUri).map encodeUtf8) ++ [0]).dropLast.splitOn 10 = _
  rw [List.dropLast_concat, List.splitOn_intercalate _ hline hsome, List.map_map]
  rfl

end Clipboard

end Cheirizo
