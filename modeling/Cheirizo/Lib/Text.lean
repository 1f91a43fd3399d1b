import Mathlib.Algebra.Group.Nat.Defs
import Mathlib.Data.Int.Notation
import Mathlib.Tactic.Common

/-!
# Text scanning

The scanning operations of a systems language's string type, over lists of characters: trimming,
splitting into lines and fields, prefixes, and decimal numbers with a bound. They are total and
structurally recursive, so that a parser built from them can be evaluated by the kernel.

## Conventions

A part of a text is a list of its own, not a range of positions, and a split returns what stands
before the separator and after it. A number has the bound of its type as a parameter. It is written
without leading zeros, unless a width is asked for, and with a sign only if it is negative.
-/

namespace Cheirizo

namespace Text

/-- The Unicode `White_Space` property. -/
def isWhitespace (c : Char) : Bool :=
  (0x9 ≤ c.val ∧ c.val ≤ 0xD) || c.val = 0x20 || c.val = 0x85 || c.val = 0xA0 || c.val = 0x1680 ||
    (0x2000 ≤ c.val ∧ c.val ≤ 0x200A) || c.val = 0x2028 || c.val = 0x2029 || c.val = 0x202F ||
    c.val = 0x205F || c.val = 0x3000

/-- Remove leading and trailing white space. -/
def trim (cs : List Char) : List Char :=
  ((cs.dropWhile isWhitespace).reverse.dropWhile isWhitespace).reverse

/-- The maximal runs of non-white characters. -/
def splitWhitespace (cs : List Char) : List (List Char) :=
  (cs.splitOnP isWhitespace).filter fun field => !field.isEmpty

/-- A line without the carriage return of its line break. -/
def stripCarriageReturn (cs : List Char) : List Char :=
  if cs.getLast? = some '\r' then cs.dropLast else cs

/-- The lines of a text. A line break is a line feed, or a carriage return and a line feed; a last
line without a break is a line, an empty one is not, and keeps its carriage return. -/
def lines (cs : List Char) : List (List Char) :=
  match (cs.splitOnP (· = '\n')).reverse with
  | [] => []
  | last :: broken =>
    (broken.map stripCarriageReturn).reverse ++ if last = [] then [] else [last]

/-- What follows `prefix`, if the text starts with it. -/
def stripPrefix : List Char → List Char → Option (List Char)
  | [], cs => some cs
  | _ :: _, [] => none
  | p :: ps, c :: cs => if p = c then stripPrefix ps cs else none

/-- What follows all copies of the pattern in front. -/
def trimStartMatches (pattern cs : List Char) : List Char :=
  match stripPrefix pattern cs with
  | some rest => if rest.length < cs.length then trimStartMatches pattern rest else cs
  | none => cs
termination_by cs.length

/-- Split at the last occurrence of `sep`. -/
def rsplitOnce (sep : List Char) : List Char → Option (List Char × List Char)
  | [] => (stripPrefix sep []).map fun rest => ([], rest)
  | c :: cs =>
    match rsplitOnce sep cs with
    | some (before, after) => some (c :: before, after)
    | none => (stripPrefix sep (c :: cs)).map fun rest => ([], rest)

/-- Split at the first occurrence of `sep`. -/
def splitOnce (sep : Char) : List Char → Option (List Char × List Char)
  | [] => none
  | c :: cs =>
    if c = sep then some ([], cs)
    else (splitOnce sep cs).map fun parts => (c :: parts.1, parts.2)

/-! ### Numbers -/

/-- A non-empty string of decimal digits. -/
def parseDigits (cs : List Char) : Option ℕ :=
  if cs ≠ [] ∧ cs.all Char.isDigit then
    some (cs.foldl (fun n c => 10 * n + (c.toNat - '0'.toNat)) 0)
  else none

/-- An unsigned number below `bound`, with an optional plus sign. -/
def parseUnsigned (bound : ℕ) (cs : List Char) : Option ℕ :=
  let digits := match cs with
    | '+' :: rest => rest
    | _ => cs
  (parseDigits digits).filter (· < bound)

/-- A signed number in `[-bound, bound)`, with an optional sign. -/
def parseSigned (bound : ℕ) (cs : List Char) : Option ℤ :=
  match cs with
  | '-' :: rest => ((parseDigits rest).filter (· ≤ bound)).map fun n => -(n : ℤ)
  | _ => (parseUnsigned bound cs).map Int.ofNat

/-! ### Prefixes -/

/-- A prefix is stripped if the text starts with it. -/
theorem stripPrefix_eq_some_iff {p cs rest : List Char} :
    stripPrefix p cs = some rest ↔ cs = p ++ rest := by
  induction p generalizing cs with
  | nil => exact Option.some_inj
  | cons d p ih =>
    cases cs with
    | nil => exact ⟨nofun, nofun⟩
    | cons c cs =>
      rw [stripPrefix]
      split_ifs with hd
      · rw [ih, hd, List.cons_append, List.cons_inj_right]
      · refine ⟨nofun, fun h => absurd ?_ hd⟩
        rw [List.cons_append, List.cons.injEq] at h
        exact h.1.symm

theorem stripPrefix_eq_none_iff {p cs : List Char} : stripPrefix p cs = none ↔ ¬ p <+: cs := by
  rw [Option.eq_none_iff_forall_ne_some, List.IsPrefix, not_exists]
  exact forall_congr' fun rest => stripPrefix_eq_some_iff.not.trans (not_congr eq_comm)

theorem trimStartMatches_of_not_isPrefix {p cs : List Char} (h : ¬ p <+: cs) :
    trimStartMatches p cs = cs := by
  rw [trimStartMatches, stripPrefix_eq_none_iff.mpr h]

/-- A prefix is trimmed as often as it stands there. -/
theorem trimStartMatches_append {p : List Char} (hp : p ≠ []) (cs : List Char) :
    trimStartMatches p (p ++ cs) = trimStartMatches p cs := by
  have hlength := List.length_pos_iff.mpr hp
  have hlt : cs.length < (p ++ cs).length := by
    rw [List.length_append]
    omega
  rw [trimStartMatches, stripPrefix_eq_some_iff.mpr rfl]
  exact if_pos hlt

/-- Afterwards it does not stand there any more. -/
theorem not_prefix_trimStartMatches {p : List Char} (hp : p ≠ []) (cs : List Char) :
    ¬ p <+: trimStartMatches p cs := by
  induction hn : cs.length using Nat.strongRecOn generalizing cs with
  | ind n ih =>
    by_cases h : p <+: cs
    · obtain ⟨rest, rfl⟩ := h
      have hlength := List.length_pos_iff.mpr hp
      rw [List.length_append] at hn
      rw [trimStartMatches_append hp]
      exact ih rest.length (by omega) rest rfl
    · rwa [trimStartMatches_of_not_isPrefix h]

/-! ### Splitting at the last separator -/

theorem rsplitOnce_of_head_notMem {a : Char} {sep cs : List Char} (h : a ∉ cs) :
    rsplitOnce (a :: sep) cs = none := by
  induction cs with
  | nil => rfl
  | cons c cs ih =>
    obtain ⟨hc, hcs⟩ : ¬ a = c ∧ a ∉ cs := by simpa using h
    rw [rsplitOnce, ih hcs]
    simp only [stripPrefix, if_neg hc, Option.map_none]

/-- A text is split at a separator that does not begin again after its first character. -/
theorem rsplitOnce_append_sep {a : Char} {sep after : List Char} (h : a ∉ sep ++ after)
    (before : List Char) :
    rsplitOnce (a :: sep) (before ++ a :: (sep ++ after)) = some (before, after) := by
  induction before with
  | nil =>
    have hsep : stripPrefix (a :: sep) (a :: (sep ++ after)) = some after :=
      stripPrefix_eq_some_iff.mpr rfl
    rw [List.nil_append, rsplitOnce, rsplitOnce_of_head_notMem h, hsep]
    rfl
  | cons c before ih => rw [List.cons_append, rsplitOnce, ih]

theorem rsplitOnce_of_notMem {a : Char} {cs : List Char} (h : a ∉ cs) :
    rsplitOnce [a] cs = none :=
  rsplitOnce_of_head_notMem h

/-- The split is at the last separator. -/
theorem rsplitOnce_append {a : Char} {after : List Char} (h : a ∉ after) (before : List Char) :
    rsplitOnce [a] (before ++ a :: after) = some (before, after) :=
  rsplitOnce_append_sep h before

/-- A text has no separator, or is split at the last one. -/
theorem rsplitOnce_cases (a : Char) (cs : List Char) :
    a ∉ cs ∧ rsplitOnce [a] cs = none ∨ ∃ before after, cs = before ++ a :: after ∧ a ∉ after ∧
      rsplitOnce [a] cs = some (before, after) := by
  induction cs with
  | nil => exact Or.inl ⟨List.not_mem_nil, rfl⟩
  | cons c cs ih =>
    obtain ⟨hcs, -⟩ | ⟨before, after, rfl, hafter, -⟩ := ih
    · by_cases hc : a = c
      · subst hc
        exact Or.inr ⟨[], cs, rfl, hcs, rsplitOnce_append hcs []⟩
      · have hmem : a ∉ c :: cs := by simpa using ⟨hc, hcs⟩
        exact Or.inl ⟨hmem, rsplitOnce_of_notMem hmem⟩
    · exact Or.inr ⟨c :: before, after, rfl, hafter, rsplitOnce_append hafter (c :: before)⟩

/-! ### Splitting at the first separator -/

/-- The split is at the first separator. -/
theorem splitOnce_append {a : Char} {before : List Char} (h : a ∉ before) (after : List Char) :
    splitOnce a (before ++ a :: after) = some (before, after) := by
  induction before with
  | nil => rw [List.nil_append, splitOnce, if_pos rfl]
  | cons c before ih =>
    obtain ⟨hc, hbefore⟩ : ¬ a = c ∧ a ∉ before := by simpa using h
    rw [List.cons_append, splitOnce, if_neg (Ne.symm hc), ih hbefore]
    rfl

theorem splitOnce_of_notMem {a : Char} {cs : List Char} (h : a ∉ cs) : splitOnce a cs = none := by
  induction cs with
  | nil => rfl
  | cons c cs ih =>
    obtain ⟨hc, hcs⟩ : ¬ a = c ∧ a ∉ cs := by simpa using h
    rw [splitOnce, if_neg (Ne.symm hc), ih hcs]
    rfl

/-- The two parts are all of the text. -/
theorem eq_of_splitOnce {a : Char} {cs before after : List Char}
    (h : splitOnce a cs = some (before, after)) : cs = before ++ a :: after := by
  induction cs generalizing before with
  | nil => cases h
  | cons c cs ih =>
    rw [splitOnce] at h
    split_ifs at h with hc
    · cases h
      rw [hc, List.nil_append]
    · obtain ⟨⟨before, after⟩, hsplit, hparts⟩ := Option.map_eq_some_iff.mp h
      cases hparts
      rw [ih hsplit, List.cons_append]

/-- The first part has no separator. -/
theorem notMem_of_splitOnce {a : Char} {cs before after : List Char}
    (h : splitOnce a cs = some (before, after)) : a ∉ before := by
  induction cs generalizing before with
  | nil => cases h
  | cons c cs ih =>
    rw [splitOnce] at h
    split_ifs at h with hc
    · cases h
      exact List.not_mem_nil
    · obtain ⟨⟨before, after⟩, hsplit, hparts⟩ := Option.map_eq_some_iff.mp h
      cases hparts
      rw [List.mem_cons, not_or]
      exact ⟨Ne.symm hc, ih hsplit⟩

/-! ### White space at the ends -/

/-- A text without white space at either end. -/
theorem trim_eq_self_of_ends {cs : List Char} (hfirst : ∀ c ∈ cs.head?, isWhitespace c = false)
    (hlast : ∀ c ∈ cs.getLast?, isWhitespace c = false) : trim cs = cs := by
  have hkeeps : ∀ ds : List Char, (∀ c ∈ ds.head?, isWhitespace c = false) →
      ds.dropWhile isWhitespace = ds := by
    intro ds hds
    cases ds with
    | nil => rfl
    | cons c ds => rw [List.dropWhile_cons_of_neg (by simp [hds c rfl])]
  rw [← List.head?_reverse] at hlast
  rw [trim, hkeeps cs hfirst, hkeeps cs.reverse hlast, List.reverse_reverse]

/-- Nothing is trimmed between two characters that are no white space. -/
theorem trim_of_ends {first last : Char} (inner : List Char) (hfirst : isWhitespace first = false)
    (hlast : isWhitespace last = false) :
    trim (first :: (inner ++ [last])) = first :: (inner ++ [last]) := by
  refine trim_eq_self_of_ends (fun c hc => ?_) fun c hc => ?_
  · cases hc
    exact hfirst
  · rw [← List.cons_append, List.getLast?_concat] at hc
    cases hc
    exact hlast

/-- Trimming only takes away. -/
theorem trim_sublist (cs : List Char) : (trim cs).Sublist cs := by
  have hfront : (cs.dropWhile isWhitespace).Sublist cs := List.dropWhile_sublist _
  have hback := List.dropWhile_sublist isWhitespace (l := (cs.dropWhile isWhitespace).reverse)
  rw [← List.reverse_sublist, List.reverse_reverse] at hback
  exact hback.trans hfront

/-- White space in front is lost. -/
theorem trim_append_left {blank : List Char} (hblank : ∀ c ∈ blank, isWhitespace c = true)
    (cs : List Char) : trim (blank ++ cs) = trim cs := by
  rw [trim, trim, List.dropWhile_append_of_pos hblank]

theorem mem_dropWhile {c : Char} (hc : isWhitespace c = false) {cs : List Char} (h : c ∈ cs) :
    c ∈ cs.dropWhile isWhitespace := by
  induction cs with
  | nil => exact h
  | cons d cs ih =>
    by_cases hd : isWhitespace d = true
    · rw [List.dropWhile_cons_of_pos hd]
      obtain rfl | h := List.mem_cons.mp h
      · exact absurd (hc.symm.trans hd) Bool.false_ne_true
      · exact ih h
    · rwa [List.dropWhile_cons_of_neg hd]

/-- Nothing else is. -/
theorem mem_trim {c : Char} (hc : isWhitespace c = false) {cs : List Char} (h : c ∈ cs) :
    c ∈ trim cs := by
  have hfront : c ∈ (cs.dropWhile isWhitespace).reverse :=
    List.mem_reverse.mpr (mem_dropWhile hc h)
  exact List.mem_reverse.mpr (mem_dropWhile hc hfront)

/-! ### Fields -/

/-- Everything but the separators is in a part. -/
theorem exists_mem_splitOn {sep c : Char} (hc : c ≠ sep) {cs : List Char} (h : c ∈ cs) :
    ∃ part ∈ cs.splitOn sep, c ∈ part := by
  have hparts : ∀ parts : List (List Char), c ∈ [sep].intercalate parts →
      ∃ part ∈ parts, c ∈ part := by
    intro parts
    induction parts with
    | nil => exact fun h => absurd h List.not_mem_nil
    | cons part parts ih =>
      intro h
      cases parts with
      | nil =>
        rw [List.intercalate_singleton] at h
        exact ⟨part, List.mem_singleton_self part, h⟩
      | cons part' parts =>
        rw [List.intercalate_cons_cons, List.mem_append, List.mem_append, List.mem_singleton] at h
        obtain (h | h) | h := h
        · exact ⟨part, List.mem_cons_self, h⟩
        · exact absurd h hc
        · obtain ⟨found, hfound, h⟩ := ih h
          exact ⟨found, List.mem_cons_of_mem _ hfound, h⟩
  refine hparts _ ?_
  rwa [List.intercalate_splitOn]

/-- A part has no separator. -/
theorem notMem_of_mem_splitOn {sep : Char} {cs part : List Char} (h : part ∈ cs.splitOn sep) :
    sep ∉ part := by
  induction cs generalizing part with
  | nil =>
    obtain rfl := List.mem_singleton.mp h
    exact List.not_mem_nil
  | cons c cs ih =>
    obtain ⟨first, parts, hparts⟩ := List.exists_cons_of_ne_nil (List.splitOn_ne_nil sep cs)
    rw [List.splitOn_cons_eq_if_modifyHead] at h
    rw [hparts] at h ih
    split_ifs at h with hc
    · obtain rfl | h := List.mem_cons.mp h
      · exact List.not_mem_nil
      · exact ih h
    · obtain rfl | h := List.mem_cons.mp h
      · rw [List.mem_cons, not_or]
        exact ⟨fun hsep => hc (beq_iff_eq.mpr hsep.symm), ih List.mem_cons_self⟩
      · exact ih (List.mem_cons_of_mem _ h)

theorem flatten_sublist_intercalate (sep : List Char) (parts : List (List Char)) :
    parts.flatten.Sublist (List.intercalate sep parts) := by
  induction parts with
  | nil => exact List.Sublist.slnil
  | cons part parts ih =>
    cases parts with
    | nil => simp
    | cons part' parts =>
      rw [List.intercalate_cons_cons, List.flatten_cons, List.append_assoc]
      exact (List.Sublist.refl part).append (ih.trans (List.sublist_append_right _ _))

/-- The parts are what the text has besides the separators. -/
theorem flatten_splitOn_sublist (sep : Char) (cs : List Char) :
    (cs.splitOn sep).flatten.Sublist cs := by
  have hparts := flatten_sublist_intercalate [sep] (cs.splitOn sep)
  rwa [List.intercalate_splitOn] at hparts

theorem flatten_map_sublist {α : Type*} {f : List α → List α} (hf : ∀ x, (f x).Sublist x)
    (xs : List (List α)) : (xs.map f).flatten.Sublist xs.flatten := by
  induction xs with
  | nil => exact List.Sublist.slnil
  | cons x xs ih => exact (hf x).append ih

/-- If every element gives something, and all together no more than there are elements, then each
gives one thing. -/
theorem length_eq_one_of_flatMap {α β : Type*} {f : α → List β} {xs : List α}
    (hsome : ∀ x ∈ xs, f x ≠ []) (hlength : (xs.flatMap f).length ≤ xs.length) :
    ∀ x ∈ xs, (f x).length = 1 := by
  have hge : ∀ ys : List α, (∀ y ∈ ys, f y ≠ []) → ys.length ≤ (ys.flatMap f).length := by
    intro ys
    induction ys with
    | nil => exact fun _ => Nat.le_refl _
    | cons y ys ih =>
      intro hys
      have hy := List.length_pos_iff.mpr (hys y List.mem_cons_self)
      have hrest := ih fun z hz => hys z (List.mem_cons_of_mem _ hz)
      rw [List.flatMap_cons, List.length_append, List.length_cons]
      omega
  induction xs with
  | nil => exact fun x hx => absurd hx List.not_mem_nil
  | cons y ys ih =>
    have hy := List.length_pos_iff.mpr (hsome y List.mem_cons_self)
    have hrest := hge ys fun z hz => hsome z (List.mem_cons_of_mem _ hz)
    rw [List.flatMap_cons, List.length_append, List.length_cons] at hlength
    intro x hx
    obtain rfl | hx := List.mem_cons.mp hx
    · omega
    · exact ih (fun z hz => hsome z (List.mem_cons_of_mem _ hz)) (by omega) x hx

/-! ### What is written is read -/

/-- A text without white space has none to lose. -/
theorem trim_eq_self {cs : List Char} (h : ∀ c ∈ cs, isWhitespace c = false) : trim cs = cs :=
  trim_eq_self_of_ends (fun c hc => h c (List.mem_of_head? hc)) fun c hc =>
    h c (List.mem_of_getLast? hc)

/-- The lines after a line break are lines of their own. -/
theorem lines_append {line : List Char} (h : '\n' ∉ line) (rest : List Char) :
    lines (line ++ '\n' :: rest) = stripCarriageReturn line :: lines rest := by
  have hsplit : (line ++ '\n' :: rest).splitOnP (· = '\n') =
      line :: rest.splitOnP (· = '\n') :=
    List.splitOnP_append_cons_of_forall_mem
      (fun c hc => decide_eq_false (ne_of_mem_of_not_mem hc h)) '\n' (by simp) rest
  obtain ⟨broken, last, hrest⟩ : ∃ broken last,
      rest.splitOnP (· = '\n') = broken ++ [last] := by
    obtain hnil | ⟨broken, last, hconcat⟩ := List.eq_nil_or_concat (rest.splitOnP (· = '\n'))
    · exact absurd hnil (List.splitOnP_ne_nil _ _)
    · exact ⟨broken, last, by rw [hconcat, List.concat_eq_append]⟩
  rw [lines, lines, hsplit, hrest]
  simp

/-- A line ends at CRLF, which is no part of it. -/
theorem lines_append_crlf {line : List Char} (h : '\n' ∉ line) (rest : List Char) :
    lines (line ++ '\r' :: '\n' :: rest) = line :: lines rest := by
  have hline : '\n' ∉ line ++ ['\r'] := by simpa using h
  have hbreak := lines_append hline rest
  rw [List.append_assoc, List.singleton_append] at hbreak
  rw [hbreak, stripCarriageReturn, List.getLast?_concat, if_pos rfl, List.dropLast_concat]

/-- A number in decimal, with leading zeros up to a width. -/
def padded (width n : ℕ) : List Char := (Nat.toDigits 10 n).leftpad width '0'

theorem isDigit_of_mem_padded {width n : ℕ} {c : Char} (hc : c ∈ padded width n) :
    c.isDigit = true := by
  rw [padded, List.leftpad, List.mem_append, List.mem_replicate] at hc
  obtain ⟨-, rfl⟩ | hc := hc
  · rfl
  · exact Nat.isDigit_of_mem_toDigits (by decide) (by decide) hc

theorem padded_ne_nil (width n : ℕ) : padded width n ≠ [] :=
  List.append_ne_nil_of_right_ne_nil _ Nat.toDigits_ne_nil

/-- A number that fits is padded to the width. -/
theorem length_padded {width n : ℕ} (hwidth : 0 < width) (hn : n < 10 ^ width) :
    (padded width n).length = width := by
  have hlength := (Nat.length_toDigits_le_iff (b := 10) (by decide) hwidth).mpr hn
  rw [padded, List.length_leftpad, Nat.max_eq_left hlength]

/-- A number is read as it was written, with zeros in front or without. -/
theorem parseDigits_padded (width n : ℕ) : parseDigits (padded width n) = some n := by
  have hvalue : Nat.ofDigitChars 10 (padded width n) 0 = n := by
    rw [padded, List.leftpad, Nat.ofDigitChars_append, Nat.ofDigitChars_replicate_zero,
      Nat.mul_zero, Nat.ofDigitChars_ten_toDigits]
  rw [Nat.ofDigitChars_eq_foldl] at hvalue
  rw [parseDigits, if_pos, hvalue]
  exact ⟨padded_ne_nil width n, List.all_eq_true.mpr fun c hc => isDigit_of_mem_padded hc⟩

/-- So it is with a bound, if it is below. -/
theorem parseUnsigned_padded {bound n : ℕ} (h : n < bound) (width : ℕ) :
    parseUnsigned bound (padded width n) = some n := by
  have hdigits : ∀ rest, padded width n ≠ '+' :: rest := by
    intro rest hrest
    have hmem : '+' ∈ padded width n := hrest ▸ List.mem_cons_self
    exact absurd (isDigit_of_mem_padded hmem) (by decide)
  rw [parseUnsigned.eq_2 _ _ hdigits, parseDigits_padded, Option.filter_some,
    if_pos (decide_eq_true h)]

/-- A number in decimal, with a minus sign if it is negative. -/
def signed (n : ℤ) : List Char :=
  if n < 0 then '-' :: padded 0 n.natAbs else padded 0 n.natAbs

/-- A signed number is read as it was written, if it fits its type. -/
theorem parseSigned_signed {bound : ℕ} {n : ℤ} (hmin : -(bound : ℤ) ≤ n) (hmax : n < bound) :
    parseSigned bound (signed n) = some n := by
  rw [signed]
  split_ifs with hn
  · rw [parseSigned, parseDigits_padded, Option.filter_some, if_pos (by simp; omega)]
    show some (-(n.natAbs : ℤ)) = some n
    congr 1
    omega
  · have hdigits : ∀ rest, padded 0 n.natAbs ≠ '-' :: rest := by
      intro rest hrest
      have hmem : '-' ∈ padded 0 n.natAbs := hrest ▸ List.mem_cons_self
      exact absurd (isDigit_of_mem_padded hmem) (by decide)
    rw [parseSigned.eq_2 _ _ hdigits, parseUnsigned_padded (by omega)]
    exact congrArg some (Int.natAbs_of_nonneg (by omega))

end Text

end Cheirizo
