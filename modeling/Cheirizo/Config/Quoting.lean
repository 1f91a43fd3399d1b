import Cheirizo.Config.Ini

/-!
# Quoted values

A string in double quotes is read back by taking the quotes away and replacing, one after the other,
two backslashes by one, a backslash and a quote by a quote, and a backslash and an `n` by a line
feed. Whoever quotes a string doubles its backslashes, puts one before each quote and writes a line
feed as backslash `n`. The first replacement turns a doubled backslash into one that the last may
take for the beginning of a line feed.

## Main definitions

* `quoted`, `quotedList` — how a string and a list of strings are written

## Main results

* `unquoteIniValue_quoted` — what is read is the string with each backslash `n` replaced
* `inferConfigValue_quoted_iff` — strings are read back exactly if they have no backslash before an
  `n`, and lists exactly if besides no string has a comma
-/

namespace Cheirizo

namespace Config

/-- A character between double quotes. -/
def escapeChar (c : Char) : List Char :=
  if c = '\\' then ['\\', '\\']
  else if c = '"' then ['\\', '"']
  else if c = '\n' then ['\\', 'n']
  else [c]

/-- A string between double quotes. -/
def quoted (s : List Char) : List Char := '"' :: (s.flatMap escapeChar ++ ['"'])

/-- Quoted strings between brackets, with white space after each comma. -/
def quotedList (blank : List Char) (xs : List (List Char)) : List Char :=
  '[' :: (List.intercalate (',' :: blank) (xs.map quoted) ++ [']'])

/-! ### Replacing pairs -/

section ReplacePair

variable {a b : Char} {new : List Char}

/-- A character that begins no pair stays. -/
theorem replacePair_cons_of_ne {c : Char} (h : c ≠ a) (s : List Char) :
    replacePair a b new (c :: s) = c :: replacePair a b new s := by
  cases s with
  | nil => rfl
  | cons d s => rw [replacePair, if_neg fun hpair => h hpair.1]

/-- So does one that is not followed by the second of the pair. -/
theorem replacePair_cons_of_head {s : List Char} (h : s.head? ≠ some b) (c : Char) :
    replacePair a b new (c :: s) = c :: replacePair a b new s := by
  cases s with
  | nil => rfl
  | cons d s => rw [replacePair, if_neg fun hpair => h (congrArg some hpair.2)]

/-- A pair is replaced, and the search goes on behind it. -/
theorem replacePair_pair (s : List Char) :
    replacePair a b new (a :: b :: s) = new ++ replacePair a b new s := by
  rw [replacePair, if_pos ⟨rfl, rfl⟩]

theorem length_replacePair_le {x : Char} (s : List Char) :
    (replacePair a b [x] s).length ≤ s.length := by
  fun_induction replacePair a b [x] s with
  | case1 c d rest h ih =>
    rw [List.length_append, List.length_singleton, List.length_cons, List.length_cons]
    omega
  | case2 c d rest h ih => exact Nat.succ_le_succ ih
  | case3 s h => exact le_rfl

/-- A text is left as it is exactly if it does not have the pair. -/
theorem replacePair_eq_self_iff {x : Char} (s : List Char) :
    replacePair a b [x] s = s ↔ ¬ [a, b] <:+: s := by
  fun_induction replacePair a b [x] s with
  | case1 c d rest h ih =>
    obtain ⟨rfl, rfl⟩ := h
    refine iff_of_false (fun heq => ?_) (not_not.mpr ⟨[], rest, rfl⟩)
    have hlength := congrArg List.length heq
    have hle := length_replacePair_le (a := c) (b := d) (x := x) rest
    rw [List.length_append, List.length_singleton, List.length_cons, List.length_cons] at hlength
    omega
  | case2 c d rest h ih =>
    have hsplit : [a, b] <:+: c :: d :: rest ↔
        [a, b] <+: c :: d :: rest ∨ [a, b] <:+: d :: rest := List.infix_cons_iff
    rw [List.cons_inj_right, ih, hsplit, not_or]
    refine ⟨fun hrest => ⟨fun hquote => h ?_, hrest⟩, And.right⟩
    rw [List.cons_prefix_cons, List.cons_prefix_cons] at hquote
    exact ⟨hquote.1.symm, hquote.2.1.symm⟩
  | case3 s h =>
    refine iff_of_true rfl fun hpair => ?_
    have hlength := hpair.length_le
    obtain _ | ⟨c, _ | ⟨d, rest⟩⟩ := s
    · exact absurd hlength (Nat.not_succ_le_zero 1)
    · exact absurd hlength (Nat.not_succ_le_self 1)
    · exact h c d rest rfl

end ReplacePair

/-! ### Between two characters -/

/-- What stands between the two ends. -/
theorem between_append (first last : Char) (inner : List Char) :
    between first last (first :: (inner ++ [last])) = some inner := by
  rw [between, if_pos ⟨rfl, List.getLast?_concat ..⟩, List.dropLast_concat]

theorem between_of_ne {first c : Char} (h : c ≠ first) (last : Char) (rest : List Char) :
    between first last (c :: rest) = none := by
  rw [between, if_neg fun hends => h hends.1]

/-- What has the two ends. -/
theorem eq_of_between {first last : Char} {s inner : List Char}
    (h : between first last s = some inner) : s = first :: (inner ++ [last]) := by
  cases s with
  | nil => cases h
  | cons c rest =>
    rw [between] at h
    split_ifs at h with hends
    obtain ⟨rfl, hlast⟩ := hends
    obtain ⟨before, rfl⟩ := List.getLast?_eq_some_iff.mp hlast
    rw [List.dropLast_concat] at h
    cases h
    rfl

/-! ### Reading back a string -/

/-- After the first replacement backslashes are single again. -/
def halfEscapeChar (c : Char) : List Char :=
  if c = '"' then ['\\', '"'] else if c = '\n' then ['\\', 'n'] else [c]

/-- After the second one only line feeds are escaped. -/
def escapeLineFeed (c : Char) : List Char := if c = '\n' then ['\\', 'n'] else [c]

/-- After the first replacement each backslash of the string is single again. -/
theorem replacePair_escapeChar (s : List Char) :
    replacePair '\\' '\\' ['\\'] (s.flatMap escapeChar) = s.flatMap halfEscapeChar := by
  induction s with
  | nil => rfl
  | cons c s ih =>
    rw [List.flatMap_cons, List.flatMap_cons, escapeChar, halfEscapeChar]
    by_cases hback : c = '\\'
    · rw [if_pos hback, if_neg (by rw [hback]; decide), if_neg (by rw [hback]; decide), hback]
      exact (replacePair_pair _).trans (congrArg _ ih)
    rw [if_neg hback]
    split_ifs with hquote hfeed
    · rw [List.cons_append, replacePair_cons_of_head (by simp), List.cons_append, List.nil_append,
        replacePair_cons_of_ne (by decide), ih]
      rfl
    · rw [List.cons_append, replacePair_cons_of_head (by simp), List.cons_append, List.nil_append,
        replacePair_cons_of_ne (by decide), ih]
      rfl
    · rw [List.singleton_append, replacePair_cons_of_ne hback, ih]
      rfl

/-- A quote has a backslash before it, so none comes first. -/
theorem head_halfEscape_ne (s : List Char) : (s.flatMap halfEscapeChar).head? ≠ some '"' := by
  cases s with
  | nil => exact nofun
  | cons c s =>
    rw [List.flatMap_cons, halfEscapeChar]
    split_ifs with hquote hfeed
    · simp
    · simp
    · simpa using hquote

/-- After the second the quotes are as they were. -/
theorem replacePair_halfEscapeChar (s : List Char) :
    replacePair '\\' '"' ['"'] (s.flatMap halfEscapeChar) = s.flatMap escapeLineFeed := by
  induction s with
  | nil => rfl
  | cons c s ih =>
    rw [List.flatMap_cons, List.flatMap_cons, halfEscapeChar, escapeLineFeed]
    by_cases hquote : c = '"'
    · rw [if_pos hquote, if_neg (by rw [hquote]; decide), hquote]
      exact (replacePair_pair _).trans (congrArg _ ih)
    rw [if_neg hquote]
    split_ifs with hfeed
    · rw [List.cons_append, replacePair_cons_of_head (by simp), List.cons_append, List.nil_append,
        replacePair_cons_of_ne (by decide), ih]
      rfl
    · rw [List.singleton_append, replacePair_cons_of_head (head_halfEscape_ne s), ih]
      rfl

theorem head_escapeLineFeed_ne {d : Char} (h : d ≠ 'n') (rest : List Char) :
    ((d :: rest).flatMap escapeLineFeed).head? ≠ some 'n' := by
  rw [List.flatMap_cons, escapeLineFeed]
  split_ifs with hfeed
  · simp
  · simpa using h

/-- The third makes line feeds of what was written for them, and of what the string has of the
kind. -/
theorem replacePair_escapeLineFeed (s : List Char) :
    replacePair '\\' 'n' ['\n'] (s.flatMap escapeLineFeed) =
      replacePair '\\' 'n' ['\n'] s := by
  fun_induction replacePair '\\' 'n' ['\n'] s with
  | case1 c d rest h ih =>
    obtain ⟨rfl, rfl⟩ := h
    exact (replacePair_pair _).trans (congrArg _ ih)
  | case2 c d rest h ih =>
    rw [List.flatMap_cons, escapeLineFeed]
    split_ifs with hfeed
    · rw [hfeed]
      exact (replacePair_pair _).trans (congrArg _ ih)
    · rw [List.singleton_append]
      by_cases hback : c = '\\'
      · rw [replacePair_cons_of_head (head_escapeLineFeed_ne (fun hd => h ⟨hback, hd⟩) rest), ih]
      · rw [replacePair_cons_of_ne hback, ih]
  | case3 s h =>
    obtain _ | ⟨c, _ | ⟨d, rest⟩⟩ := s
    · rfl
    · rw [List.flatMap_singleton, escapeLineFeed]
      split_ifs with hfeed
      · rw [hfeed]
        rfl
      · rfl
    · exact absurd rfl (h c d rest)

/-- What is read is the string with each backslash `n` replaced by a line feed. -/
theorem unquoteIniValue_quoted (s : List Char) :
    unquoteIniValue (quoted s) = some (replacePair '\\' 'n' ['\n'] s) := by
  have hbetween : between '"' '"' (quoted s) = some (s.flatMap escapeChar) :=
    between_append _ _ _
  rw [unquoteIniValue, hbetween]
  simp only
  rw [replacePair_escapeChar, replacePair_halfEscapeChar, replacePair_escapeLineFeed]

/-! ### Reading back a value -/

/-- Quotes are no white space. -/
theorem trim_quoted (s : List Char) : Text.trim (quoted s) = quoted s :=
  Text.trim_of_ends _ (by decide) (by decide)

variable {parseF64 : List Char → Option UInt64}

/-- A value in quotes is a string, if it is no list. -/
theorem inferConfigValue_of_unquote {s u : List Char} (hempty : Text.trim s ≠ ['[', ']'])
    (hlist : between '[' ']' (Text.trim s) = none)
    (hunquote : unquoteIniValue (Text.trim s) = some u) :
    inferConfigValue parseF64 s = .string u := by
  rw [inferConfigValue, if_neg hempty]
  split
  · rename_i inner hinner
    rw [hlist] at hinner
    cases hinner
  · rw [hunquote]

/-- A value in brackets is a list. -/
theorem inferConfigValue_of_between {s inner : List Char} (hempty : Text.trim s ≠ ['[', ']'])
    (hlist : between '[' ']' (Text.trim s) = some inner) :
    inferConfigValue parseF64 s = .array ((items inner).map (inferConfigValue parseF64)) := by
  rw [inferConfigValue, if_neg hempty]
  split
  · rename_i inner' hinner
    obtain rfl : inner = inner' := Option.some.inj (hlist.symm.trans hinner)
    rw [List.attach_map_val]
  · rename_i hnone
    rw [hlist] at hnone
    cases hnone

/-- A quoted string is read as a string, with each backslash `n` replaced. -/
theorem inferConfigValue_quoted (parseF64 : List Char → Option UInt64) (s : List Char) :
    inferConfigValue parseF64 (quoted s) = .string (replacePair '\\' 'n' ['\n'] s) := by
  refine inferConfigValue_of_unquote ?_ ?_ ?_
  · rw [trim_quoted]
    simp [quoted]
  · rw [trim_quoted]
    exact between_of_ne (by decide) _ _
  · rw [trim_quoted, unquoteIniValue_quoted]

/-! ### Reading back a list -/

/-- A comma separates items, also one in quotes. -/
theorem items_append_cons (s t : List Char) : items (s ++ ',' :: t) = items s ++ items t := by
  rw [items, List.splitOn_append_cons_self, List.map_append, List.filter_append]
  rfl

/-- Without a comma there is one item at most. -/
theorem items_of_notMem {s : List Char} (h : ',' ∉ s) :
    items s = [Text.trim s].filter fun item => !item.isEmpty := by
  rw [items, List.splitOn_eq_singleton h, List.map_singleton]

/-- White space in front is lost. -/
theorem items_append_left {blank : List Char} (hblank : ∀ c ∈ blank, Text.isWhitespace c = true)
    (s : List Char) : items (blank ++ s) = items s := by
  have hnot : ',' ∉ blank := fun h => absurd (hblank _ h) (by decide)
  have hpart : ∀ part, ',' ∉ part → items (blank ++ part) = items part := by
    intro part hpart
    rw [items_of_notMem hpart, items_of_notMem (by simp [hnot, hpart]),
      Text.trim_append_left hblank]
  by_cases hcomma : ',' ∈ s
  · obtain ⟨before, after, rfl, hbefore⟩ := List.eq_append_cons_of_mem hcomma
    rw [← List.append_assoc, items_append_cons, items_append_cons, hpart before hbefore]
  · exact hpart s hcomma

/-- Quoting neither adds commas nor takes them away. -/
theorem comma_mem_quoted {s : List Char} : ',' ∈ quoted s ↔ ',' ∈ s := by
  have hchar : ∀ c, ',' ∈ escapeChar c ↔ ',' = c := by
    intro c
    rw [escapeChar]
    split_ifs with hback hquote hfeed
    · simp [hback]
    · simp [hquote]
    · simp [hfeed]
    · exact List.mem_singleton
  simp [quoted, hchar]

/-- A text in which there is something is not without items. -/
theorem items_ne_nil {s : List Char} {c : Char} (hwhite : Text.isWhitespace c = false)
    (hcomma : c ≠ ',') (h : c ∈ s) : items s ≠ [] := by
  obtain ⟨part, hpart, hc⟩ := Text.exists_mem_splitOn hcomma h
  have hmem : c ∈ Text.trim part := Text.mem_trim hwhite hc
  refine List.ne_nil_of_mem (List.mem_filter.mpr ⟨List.mem_map_of_mem hpart, ?_⟩)
  simpa using List.ne_nil_of_mem hmem

/-- A quoted string without a comma is one item. -/
theorem items_quoted {s : List Char} (hcomma : ',' ∉ s) : items (quoted s) = [quoted s] := by
  rw [items_of_notMem (comma_mem_quoted.not.mpr hcomma), trim_quoted]
  rfl

/-- A quoted string with a comma is more than one. -/
theorem two_le_length_items_quoted {s : List Char} (hcomma : ',' ∈ s) :
    2 ≤ (items (quoted s)).length := by
  have hmem : ',' ∈ s.flatMap escapeChar := by simpa [quoted] using comma_mem_quoted.mpr hcomma
  obtain ⟨before, after, hsplit⟩ := List.append_of_mem hmem
  have hquoted : quoted s = ('"' :: before) ++ ',' :: (after ++ ['"']) := by
    rw [quoted, hsplit]
    simp
  have hbefore : items ('"' :: before) ≠ [] :=
    items_ne_nil (c := '"') (by decide) (by decide) (by simp)
  have hafter : items (after ++ ['"']) ≠ [] :=
    items_ne_nil (c := '"') (by decide) (by decide) (by simp)
  rw [hquoted, items_append_cons, List.length_append]
  have h₁ := List.length_pos_iff.mpr hbefore
  have h₂ := List.length_pos_iff.mpr hafter
  omega

theorem items_quoted_ne_nil (s : List Char) : items (quoted s) ≠ [] :=
  items_ne_nil (c := '"') (by decide) (by decide) List.mem_cons_self

/-- The items of a list are those of its parts. -/
theorem items_intercalate {blank : List Char} (hblank : ∀ c ∈ blank, Text.isWhitespace c = true)
    (parts : List (List Char)) :
    items (List.intercalate (',' :: blank) parts) = parts.flatMap items := by
  induction parts with
  | nil => rfl
  | cons part parts ih =>
    cases parts with
    | nil => rw [List.intercalate_singleton, List.flatMap_singleton]
    | cons part' parts =>
      rw [List.intercalate_cons_cons, List.append_assoc, List.cons_append, items_append_cons,
        items_append_left hblank, ih]
      rfl

/-- A list is read item by item. -/
theorem inferConfigValue_quotedList {blank : List Char}
    (hblank : ∀ c ∈ blank, Text.isWhitespace c = true) (xs : List (List Char)) :
    inferConfigValue parseF64 (quotedList blank xs) =
      .array ((xs.flatMap fun x => items (quoted x)).map (inferConfigValue parseF64)) := by
  have htrim : Text.trim (quotedList blank xs) = quotedList blank xs :=
    Text.trim_of_ends _ (by decide) (by decide)
  have hbetween : between '[' ']' (quotedList blank xs) =
      some (List.intercalate (',' :: blank) (xs.map quoted)) := between_append _ _ _
  rw [← List.flatMap_map, ← items_intercalate hblank]
  by_cases hempty : quotedList blank xs = ['[', ']']
  · have hinner : List.intercalate (',' :: blank) (xs.map quoted) = [] := by
      rw [hempty] at hbetween
      exact Option.some.inj hbetween.symm
    rw [inferConfigValue, htrim, if_pos hempty, hinner]
    rfl
  · refine inferConfigValue_of_between ?_ ?_
    · rwa [htrim]
    · rw [htrim, hbetween]

/-- **Reading back.** A string is read back exactly if it has no backslash before an `n`, and a list
of strings exactly if besides none of them has a comma. -/
theorem inferConfigValue_quoted_iff (parseF64 : List Char → Option UInt64) (blank : List Char)
    (hblank : ∀ c ∈ blank, Text.isWhitespace c = true) (s : List Char) (xs : List (List Char)) :
    (inferConfigValue parseF64 (quoted s) = .string s ↔ ¬ ['\\', 'n'] <:+: s) ∧
      (inferConfigValue parseF64 (quotedList blank xs) = .array (xs.map .string) ↔
        ∀ x ∈ xs, ',' ∉ x ∧ ¬ ['\\', 'n'] <:+: x) := by
  have hstring : ∀ x, inferConfigValue parseF64 (quoted x) = .string x ↔
      ¬ ['\\', 'n'] <:+: x := by
    intro x
    rw [inferConfigValue_quoted, Scalar.string.injEq, replacePair_eq_self_iff]
  refine ⟨hstring s, ?_⟩
  have hsplit : (∀ x ∈ xs, ',' ∉ x) → xs.flatMap (fun x => items (quoted x)) = xs.map quoted := by
    intro hcommas
    rw [List.flatMap_congr fun x hx => items_quoted (hcommas x hx)]
    exact List.flatMap_pure_eq_map quoted xs
  rw [inferConfigValue_quotedList hblank, Scalar.array.injEq]
  constructor
  · intro heq
    have hlength := congrArg List.length heq
    rw [List.length_map, List.length_map] at hlength
    have hcommas : ∀ x ∈ xs, ',' ∉ x := by
      intro x hx hcomma
      have hone := Text.length_eq_one_of_flatMap (fun y _ => items_quoted_ne_nil y) hlength.le x hx
      have htwo := two_le_length_items_quoted hcomma
      omega
    rw [hsplit hcommas, List.map_map, List.map_inj_left] at heq
    exact fun x hx => ⟨hcommas x hx, (hstring x).mp (heq x hx)⟩
  · intro h
    rw [hsplit fun x hx => (h x hx).1, List.map_map, List.map_inj_left]
    exact fun x hx => (hstring x).mpr (h x hx).2

/-- Quotes, brackets, backslashes and line feeds in a list. -/
theorem inferConfigValue_quoted_sample :
    inferConfigValue (fun _ => none)
        (quotedList [' '] [['"', 'x', ' '], ['[', '1', ']'], ['\\', '\n'], []]) =
      .array [.string ['"', 'x', ' '], .string ['[', '1', ']'], .string ['\\', '\n'],
        .string []] :=
  (inferConfigValue_quoted_iff (fun _ => none) [' '] (by simp [Text.isWhitespace]) []
    [['"', 'x', ' '], ['[', '1', ']'], ['\\', '\n'], []]).2.mpr (by decide)

/-- A backslash before an `n` comes back as a line feed. -/
theorem inferConfigValue_quoted_backslash_n :
    inferConfigValue (fun _ => none) (quoted "C:\\new".toList) = .string "C:\new".toList ∧
      ¬ inferConfigValue (fun _ => none) (quoted "C:\\new".toList) =
        .string "C:\\new".toList := by
  rw [inferConfigValue_quoted, Scalar.string.injEq, Scalar.string.injEq]
  decide

end Config

end Cheirizo
