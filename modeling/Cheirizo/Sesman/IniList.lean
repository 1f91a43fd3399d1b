import Cheirizo.Config.Quoting
import Mathlib.Data.List.Count
import Mathlib.Data.List.Flatten

/-!
# Lists in session configuration files

`src/sesman/state.rs`: a list is written on one line, between brackets and with a comma after each
item but the last. An item that is empty, or has a comma, a comment sign or white space, is written
between double quotes, with a backslash before each double quote of its own.

A line is read in passes that know nothing of each other. The first cuts off a comment, which begins
at a sign after white space that is not between quotes; a backslash does not count, and a bare item
may open a quote. The list is then split at every comma, between quotes or not, and of each item one
pair of quotes is taken away, whether it was added or not. Backslashes stay.

## Main definitions

* `stripIniComment`, `parseIniLine`, `parseIniList` — reading
* `formatIniScalar`, `formatIniList` — writing
* `Readable` — the lists that no pass alters

## Main results

* `flatten_readIniList_sublist` — nothing is read that is not on the line
* `readIniList_eq_some_iff` — exactly the readable lists are read back
-/

namespace Cheirizo

namespace Sesman

/-! ### Reading -/

/-- The quotes that a text has opened and not closed. -/
structure Quotes where
  inSingle : Bool
  inDouble : Bool
  deriving DecidableEq, Repr

namespace Quotes

/-- Outside of any quotes. -/
def closed : Quotes := ⟨false, false⟩

/-- A quote of one kind is plain text inside quotes of the other. -/
def next (q : Quotes) (ch : Char) : Quotes :=
  if ch = '\'' ∧ q.inDouble = false then { q with inSingle := !q.inSingle }
  else if ch = '"' ∧ q.inSingle = false then { q with inDouble := !q.inDouble }
  else q

/-- The quotes that are open behind a text. -/
def after (q : Quotes) (cs : List Char) : Quotes := cs.foldl next q

end Quotes

/-- Either sign starts a comment. -/
def isCommentSign (c : Char) : Bool := c = '#' || c = ';'

/-- The text up to a comment. The flag says whether the character before is white, or there is none,
so that a comment may begin. -/
def stripFrom (q : Quotes) (atBreak : Bool) : List Char → List Char
  | [] => []
  | ch :: rest =>
    if isCommentSign ch = true ∧ q = Quotes.closed ∧ atBreak = true then []
    else ch :: stripFrom (q.next ch) (Text.isWhitespace ch) rest

/-- A comment starts outside of quotes, at a sign that a blank or nothing precedes. -/
def stripIniComment (line : List Char) : List Char := stripFrom Quotes.closed true line

/-- A value without one pair of quotes around it. -/
def unquoteIniScalar (value : List Char) : List Char :=
  match Config.between '"' '"' (Text.trim value) with
  | some inner => inner
  | none => (Config.between '\'' '\'' (Text.trim value)).getD (Text.trim value)

/-- The items of a list, with or without brackets. -/
def parseIniList (value : List Char) : List (List Char) :=
  (Config.items ((Config.between '[' ']' (Text.trim value)).getD value)).map unquoteIniScalar

/-- What a line of a configuration file is. -/
inductive IniLine where
  | blank
  | section (name : List Char)
  | entry (key value : List Char)
  | invalid
  deriving DecidableEq, Repr

/-- A line is blank, opens a section, or is an entry. -/
def parseIniLine (rawLine : List Char) : IniLine :=
  let line := Text.trim (stripIniComment rawLine)
  if line = [] then .blank
  else
    match Config.between '[' ']' line with
    | some name => .section (Text.trim name)
    | none =>
      match Text.splitOnce '=' line with
      | some (key, value) => .entry (Text.trim key) (unquoteIniScalar (Text.trim value))
      | none => .invalid

/-- The list that a line gives to its key. -/
def readIniList (rawLine : List Char) : Option (List (List Char)) :=
  match parseIniLine rawLine with
  | .entry _ value => some (parseIniList value)
  | _ => none

/-! ### Writing -/

/-- A value that would not read back as it is. -/
def needsQuotes (value : List Char) : Bool :=
  value.isEmpty || value.contains ',' || value.contains '#' || value.contains ';' ||
    value.any Text.isWhitespace

/-- Only the double quote is escaped, not the backslash. -/
def escapeQuote (c : Char) : List Char := if c = '"' then ['\\', '"'] else [c]

/-- A value in quotes, if it needs them. -/
def formatIniScalar (value : List Char) : List Char :=
  if needsQuotes value then '"' :: (value.flatMap escapeQuote ++ ['"']) else value

/-- A list as it is written: in brackets, with a blank behind each comma. -/
def formatIniList (values : List (List Char)) : List Char :=
  '[' :: (List.intercalate [',', ' '] (values.map formatIniScalar) ++ [']'])

/-- A line of a rendered file. -/
def iniLine (key value : List Char) : List Char := key ++ '=' :: value

/-! ### Comments -/

namespace Quotes

theorem next_of_ne {c : Char} (hsingle : c ≠ '\'') (hdouble : c ≠ '"') (q : Quotes) :
    q.next c = q := by
  rw [next, if_neg fun h => hsingle h.1, if_neg fun h => hdouble h.1]

theorem next_of_isWhitespace {c : Char} (h : Text.isWhitespace c = true) (q : Quotes) :
    q.next c = q := by
  refine next_of_ne ?_ ?_ q
  · rintro rfl
    cases h
  · rintro rfl
    cases h

theorem after_append (q : Quotes) (s t : List Char) : q.after (s ++ t) = (q.after s).after t :=
  List.foldl_append

theorem after_of_forall {cs : List Char} (h : ∀ c ∈ cs, c ≠ '\'' ∧ c ≠ '"') (q : Quotes) :
    q.after cs = q := by
  induction cs with
  | nil => rfl
  | cons c cs ih =>
    obtain ⟨hsingle, hdouble⟩ := h c List.mem_cons_self
    have hcs := ih fun d hd => h d (List.mem_cons_of_mem _ hd)
    rwa [after, List.foldl_cons, next_of_ne hsingle hdouble]

end Quotes

/-- No comment begins in the text. -/
def Hides (q : Quotes) (atBreak : Bool) : List Char → Prop
  | [] => True
  | ch :: rest => ¬ (isCommentSign ch = true ∧ q = Quotes.closed ∧ atBreak = true) ∧
      Hides (q.next ch) (Text.isWhitespace ch) rest

/-- What is cut off begins with a comment sign. -/
theorem stripFrom_cases (q : Quotes) (atBreak : Bool) (cs : List Char) :
    stripFrom q atBreak cs = cs ∧ Hides q atBreak cs ∨
      ¬ Hides q atBreak cs ∧ ∃ sign rest, isCommentSign sign = true ∧
        cs = stripFrom q atBreak cs ++ sign :: rest := by
  induction cs generalizing q atBreak with
  | nil => exact Or.inl ⟨rfl, trivial⟩
  | cons c cs ih =>
    rw [stripFrom, Hides]
    split_ifs with hsign
    · exact Or.inr ⟨fun h => h.1 hsign, c, cs, hsign.1, rfl⟩
    · obtain ⟨heq, hhides⟩ | ⟨hhides, sign, rest, hsign', heq⟩ :=
        ih (q.next c) (Text.isWhitespace c)
      · exact Or.inl ⟨by rw [heq], hsign, hhides⟩
      · refine Or.inr ⟨fun h => hhides h.2, sign, rest, hsign', ?_⟩
        rw [List.cons_append, ← heq]

theorem hides_of_forall {cs : List Char} (h : ∀ c ∈ cs, isCommentSign c = false) (q : Quotes)
    (atBreak : Bool) : Hides q atBreak cs := by
  induction cs generalizing q atBreak with
  | nil => trivial
  | cons c cs ih =>
    refine ⟨fun hsign => ?_, ih (fun d hd => h d (List.mem_cons_of_mem _ hd)) _ _⟩
    rw [h c List.mem_cons_self] at hsign
    exact absurd hsign.1 Bool.false_ne_true

/-- What comes before a text matters only if the text begins with a comment sign. -/
theorem hides_congr {cs : List Char} (h : ∀ c ∈ cs.head?, isCommentSign c = false) (q : Quotes)
    (atBreak atBreak' : Bool) : Hides q atBreak cs ↔ Hides q atBreak' cs := by
  cases cs with
  | nil => exact Iff.rfl
  | cons c cs => simp [Hides, h c rfl]

theorem hides_append {t : List Char} (ht : ∀ c ∈ t.head?, isCommentSign c = false) (q : Quotes)
    (atBreak : Bool) (s : List Char) :
    Hides q atBreak (s ++ t) ↔ Hides q atBreak s ∧ Hides (q.after s) true t := by
  induction s generalizing q atBreak with
  | nil =>
    rw [Hides, true_and]
    exact hides_congr ht q atBreak true
  | cons c s ih =>
    rw [List.cons_append, Hides, Hides, ih, and_assoc]
    rfl

/-! ### Comments in a list -/

/-- An item as it is written if it has no double quotes. -/
def written (item : List Char) : List Char :=
  if needsQuotes item then '"' :: (item ++ ['"']) else item

/-- No comment begins in an item, with what comes before it on the line. -/
def ItemHides (q : Quotes) (item : List Char) : Prop :=
  ∀ before white sign rest, item = before ++ white :: sign :: rest →
    Text.isWhitespace white = true → isCommentSign sign = true →
    q.after ('"' :: before) ≠ Quotes.closed

theorem not_isCommentSign_of_bare {item : List Char} (h : needsQuotes item = false) :
    ∀ c ∈ item, isCommentSign c = false := by
  intro c hc
  rw [needsQuotes, Bool.or_eq_false_iff, Bool.or_eq_false_iff, Bool.or_eq_false_iff] at h
  obtain ⟨⟨⟨-, hhash⟩, hsemicolon⟩, -⟩ := h
  rw [isCommentSign, Bool.or_eq_false_iff, decide_eq_false_iff_not, decide_eq_false_iff_not]
  refine ⟨fun hsign => ?_, fun hsign => ?_⟩
  · subst hsign
    simp [hc] at hhash
  · subst hsign
    simp [hc] at hsemicolon

/-- Where comments begin in a text after a character that is not white. -/
theorem hides_iff (q : Quotes) (cs : List Char) (atBreak : Bool) :
    Hides q atBreak cs ↔
      (atBreak = true → ∀ c ∈ cs.head?, isCommentSign c = true → q ≠ Quotes.closed) ∧
      ∀ before white sign rest, cs = before ++ white :: sign :: rest →
        Text.isWhitespace white = true → isCommentSign sign = true →
        q.after before ≠ Quotes.closed := by
  induction cs generalizing q atBreak with
  | nil => simp [Hides]
  | cons c cs ih =>
    rw [Hides, ih]
    constructor
    · rintro ⟨hfirst, hsecond, hrest⟩
      refine ⟨fun hbreak d hd hsign hq => ?_, fun before white sign rest hcs hwhite hsign => ?_⟩
      · cases hd
        exact hfirst ⟨hsign, hq, hbreak⟩
      · cases before with
        | nil =>
          cases hcs
          rw [Quotes.next_of_isWhitespace hwhite] at hsecond
          exact hsecond hwhite sign rfl hsign
        | cons d before =>
          cases hcs
          exact hrest before white sign rest rfl hwhite hsign
    · rintro ⟨hfirst, hrest⟩
      refine ⟨fun h => hfirst h.2.2 c rfl h.1 h.2.1, fun hwhite d hd hsign => ?_,
        fun before white sign rest hcs hwhite hsign =>
          hrest (c :: before) white sign rest (congrArg (c :: ·) hcs) hwhite hsign⟩
      obtain ⟨rest, rfl⟩ : ∃ rest, cs = d :: rest := List.head?_eq_some_iff.mp hd
      rw [Quotes.next_of_isWhitespace hwhite]
      exact hrest [] c d rest rfl hwhite hsign

theorem hides_written (q : Quotes) (atBreak : Bool) (item : List Char) :
    Hides q atBreak (written item) ↔ ItemHides q item := by
  rw [written]
  split_ifs with hquotes
  · have hopen : isCommentSign '"' = false := rfl
    have hlast : ∀ c ∈ ['"'].head?, isCommentSign c = false := by simp [hopen]
    rw [Hides, hides_append hlast, hides_iff]
    simp [ItemHides, Hides, hopen, Text.isWhitespace, Quotes.after]
  · have hbare := not_isCommentSign_of_bare (Bool.not_eq_true _ ▸ hquotes)
    refine iff_of_true (hides_of_forall hbare q atBreak) ?_
    intro before white sign rest hitem hwhite hsign
    have hmem : sign ∈ item := by simp [hitem]
    exact absurd (hsign.symm.trans (hbare sign hmem)) Bool.false_ne_true.symm

/-- In a list comments begin only in the items. -/
theorem hides_intercalate (q : Quotes) (atBreak : Bool) (xs : List (List Char)) :
    Hides q atBreak (List.intercalate [',', ' '] (xs.map written)) ↔
      ∀ ys x zs, xs = ys ++ x :: zs → ItemHides (q.after (ys.flatMap written)) x := by
  induction xs generalizing q atBreak with
  | nil => simp [Hides]
  | cons x xs ih =>
    have hsplit : (∀ ys x' zs, x :: xs = ys ++ x' :: zs →
        ItemHides (q.after (ys.flatMap written)) x') ↔ ItemHides q x ∧
          ∀ ys x' zs, xs = ys ++ x' :: zs →
            ItemHides ((q.after (written x)).after (ys.flatMap written)) x' := by
      constructor
      · intro h
        refine ⟨h [] x xs rfl, fun ys x' zs hxs => ?_⟩
        have hx := h (x :: ys) x' zs (by rw [hxs, List.cons_append])
        rwa [List.flatMap_cons, Quotes.after_append] at hx
      · rintro ⟨hx, hxs⟩ ys x' zs heq
        cases ys with
        | nil =>
          cases heq
          exact hx
        | cons y ys =>
          cases heq
          rw [List.flatMap_cons, Quotes.after_append]
          exact hxs ys x' zs rfl
    rw [hsplit]
    cases xs with
    | nil => simp [hides_written]
    | cons y ys =>
      have hcomma : ∀ c ∈ (',' :: ' ' :: List.intercalate [',', ' '] ((y :: ys).map written)).head?,
          isCommentSign c = false := by
        intro c hc
        cases hc
        rfl
      rw [List.map_cons, List.map_cons, List.intercalate_cons_cons, List.append_assoc,
        List.cons_append, List.cons_append, List.nil_append, ← List.map_cons]
      rw [hides_append hcomma, hides_written, ← ih _ true]
      simp [Hides, isCommentSign, Quotes.next, Text.isWhitespace]

/-! ### Nothing is made up -/

theorem between_sublist {first last : Char} {s inner : List Char}
    (h : Config.between first last s = some inner) : inner.Sublist s := by
  rw [Config.eq_of_between h]
  exact (List.sublist_append_left inner [last]).cons first

theorem unquoteIniScalar_sublist (value : List Char) : (unquoteIniScalar value).Sublist value := by
  refine List.Sublist.trans ?_ (Text.trim_sublist value)
  rw [unquoteIniScalar]
  cases hdouble : Config.between '"' '"' (Text.trim value) with
  | some inner => exact between_sublist hdouble
  | none =>
    cases hsingle : Config.between '\'' '\'' (Text.trim value) with
    | some inner => exact between_sublist hsingle
    | none => exact List.Sublist.refl _

theorem flatten_items_sublist (s : List Char) : (Config.items s).flatten.Sublist s := by
  have hitems : (Config.items s).Sublist ((s.splitOn ',').map Text.trim) := List.filter_sublist
  exact (hitems.flatten.trans (Text.flatten_map_sublist Text.trim_sublist _)).trans
    (Text.flatten_splitOn_sublist ',' s)

theorem flatten_parseIniList_sublist (value : List Char) :
    (parseIniList value).flatten.Sublist value := by
  refine (Text.flatten_map_sublist unquoteIniScalar_sublist _).trans ?_
  refine (flatten_items_sublist _).trans ?_
  cases hbrackets : Config.between '[' ']' (Text.trim value) with
  | none => exact List.Sublist.refl _
  | some inner => exact (between_sublist hbrackets).trans (Text.trim_sublist value)

/-- Nothing is read that is not on the line, before its comment. -/
theorem flatten_readIniList_sublist {rawLine : List Char} {ys : List (List Char)}
    (h : readIniList rawLine = some ys) : ys.flatten.Sublist (stripIniComment rawLine) := by
  refine List.Sublist.trans ?_ (Text.trim_sublist _)
  rw [readIniList, parseIniLine] at h
  split_ifs at h with hblank
  cases hbrackets : Config.between '[' ']' (Text.trim (stripIniComment rawLine)) with
  | some name =>
    rw [hbrackets] at h
    cases h
  | none =>
    rw [hbrackets] at h
    cases hsplit : Text.splitOnce '=' (Text.trim (stripIniComment rawLine)) with
    | none =>
      rw [hsplit] at h
      cases h
    | some parts =>
      rw [hsplit] at h
      cases h
      rw [Text.eq_of_splitOnce hsplit]
      refine (flatten_parseIniList_sublist _).trans ?_
      refine (unquoteIniScalar_sublist _).trans ((Text.trim_sublist parts.2).trans ?_)
      exact (List.sublist_cons_self _ _).trans (List.sublist_append_right _ _)

/-- No item that is read has a comma. -/
theorem comma_notMem_of_mem {value item : List Char} (h : item ∈ parseIniList value) :
    ',' ∉ item := by
  obtain ⟨trimmed, htrimmed, rfl⟩ := List.mem_map.mp h
  obtain ⟨part, hpart, rfl⟩ := List.mem_map.mp (List.mem_filter.mp htrimmed).1
  intro hcomma
  exact Text.notMem_of_mem_splitOn hpart
    ((Text.trim_sublist part).subset ((unquoteIniScalar_sublist _).subset hcomma))

/-! ### Reading a line -/

/-- A character with no meaning of its own in a configuration file. -/
def IsPlain (c : Char) : Prop :=
  Text.isWhitespace c = false ∧ c ∉ ['\'', '"', ',', '[', ']', '#', ';']

instance isPlainDecidable : DecidablePred IsPlain := fun _ => inferInstanceAs (Decidable (_ ∧ _))

theorem IsPlain.ne {c d : Char} (h : IsPlain c) (hd : ¬ IsPlain d) : c ≠ d := by
  rintro rfl
  exact hd h

theorem IsPlain.not_isCommentSign {c : Char} (h : IsPlain c) : isCommentSign c = false := by
  simp [isCommentSign, h.ne (d := '#') (by decide), h.ne (d := ';') (by decide)]

theorem Quotes.after_of_isPlain {cs : List Char} (h : ∀ c ∈ cs, IsPlain c) (q : Quotes) :
    q.after cs = q :=
  after_of_forall (fun c hc => ⟨(h c hc).ne (by decide), (h c hc).ne (by decide)⟩) q

theorem stripIniComment_of_hides {line : List Char} (h : Hides Quotes.closed true line) :
    stripIniComment line = line := by
  obtain ⟨heq, -⟩ | ⟨hnot, -⟩ := stripFrom_cases Quotes.closed true line
  · exact heq
  · exact absurd h hnot

/-- A line without a comment is a key and a value. -/
theorem parseIniLine_iniLine {key value : List Char} (hkey : ∀ c ∈ key, IsPlain c)
    (hequals : '=' ∉ key) (hvalue : Text.trim value = value)
    (hlast : ∀ c ∈ value.getLast?, Text.isWhitespace c = false)
    (hhides : Hides Quotes.closed true (iniLine key value)) :
    parseIniLine (iniLine key value) = .entry key (unquoteIniScalar value) := by
  have htrim : Text.trim (iniLine key value) = iniLine key value := by
    refine Text.trim_eq_self_of_ends (fun c hc => ?_) fun c hc => ?_
    · cases key with
      | nil =>
        cases hc
        rfl
      | cons k key =>
        cases hc
        exact (hkey _ List.mem_cons_self).1
    · rw [iniLine, List.getLast?_append, List.getLast?_cons] at hc
      cases hends : value.getLast? with
      | none =>
        rw [hends] at hc
        cases hc
        rfl
      | some last =>
        rw [hends] at hc
        cases hc
        exact hlast _ hends
  have hbrackets : Config.between '[' ']' (iniLine key value) = none := by
    cases key with
    | nil => exact Config.between_of_ne (by decide) _ _
    | cons k key =>
      exact Config.between_of_ne ((hkey k List.mem_cons_self).ne (by decide)) _ _
  have hne : iniLine key value ≠ [] := List.append_ne_nil_of_right_ne_nil _ (List.cons_ne_nil _ _)
  rw [parseIniLine, stripIniComment_of_hides hhides, htrim, if_neg hne, hbrackets, iniLine,
    Text.splitOnce_append hequals]
  simp only
  rw [Text.trim_eq_self fun c hc => (hkey c hc).1, hvalue]

theorem formatIniList_ends (xs : List (List Char)) :
    Text.trim (formatIniList xs) = formatIniList xs ∧
      ∀ c ∈ (formatIniList xs).getLast?, Text.isWhitespace c = false := by
  refine ⟨Text.trim_of_ends _ (by decide) (by decide), fun c hc => ?_⟩
  rw [formatIniList, ← List.cons_append, List.getLast?_concat] at hc
  cases hc
  rfl

theorem unquoteIniScalar_formatIniList (xs : List (List Char)) :
    unquoteIniScalar (formatIniList xs) = formatIniList xs := by
  rw [unquoteIniScalar, (formatIniList_ends xs).1, formatIniList,
    Config.between_of_ne (by decide), Config.between_of_ne (by decide)]
  rfl

theorem readIniList_of_hides {key : List Char} (hkey : ∀ c ∈ key, IsPlain c) (hequals : '=' ∉ key)
    {xs : List (List Char)} (hhides : Hides Quotes.closed true (iniLine key (formatIniList xs))) :
    readIniList (iniLine key (formatIniList xs)) = some (parseIniList (formatIniList xs)) := by
  obtain ⟨htrim, hlast⟩ := formatIniList_ends xs
  rw [readIniList, parseIniLine_iniLine hkey hequals htrim hlast hhides]
  simp only
  rw [unquoteIniScalar_formatIniList]

/-! ### Reading an item -/

theorem flatMap_escapeQuote_eq_self_iff (item : List Char) :
    item.flatMap escapeQuote = item ↔ '"' ∉ item := by
  induction item with
  | nil => simp
  | cons c item ih =>
    rw [List.flatMap_cons, escapeQuote]
    split_ifs with hquote
    · subst hquote
      simp
    · rw [List.singleton_append, List.cons_inj_right, ih, List.mem_cons, not_or]
      exact ⟨fun h => ⟨Ne.symm hquote, h⟩, And.right⟩

/-- A pair of quotes is taken away, whoever put it there. -/
theorem unquoteIniScalar_eq_self_iff {item : List Char} (htrim : Text.trim item = item) :
    unquoteIniScalar item = item ↔
      ∀ quote ∈ ['"', '\''], ∀ inner, item ≠ quote :: (inner ++ [quote]) := by
  have hshort : ∀ {quote : Char} {inner : List Char},
      Config.between quote quote item = some inner → inner ≠ item := by
    intro quote inner hbetween heq
    exact absurd (congrArg List.length heq) (Config.length_between hbetween).ne
  rw [unquoteIniScalar, htrim]
  cases hdouble : Config.between '"' '"' item with
  | some inner =>
    refine iff_of_false (hshort hdouble) fun h => ?_
    exact h '"' (by simp) inner (Config.eq_of_between hdouble)
  | none =>
    cases hsingle : Config.between '\'' '\'' item with
    | some inner =>
      refine iff_of_false (hshort hsingle) fun h => ?_
      exact h '\'' (by simp) inner (Config.eq_of_between hsingle)
    | none =>
      refine iff_of_true rfl fun quote hquote inner heq => ?_
      have hsome := Config.between_append quote quote inner
      rw [← heq] at hsome
      obtain rfl | rfl : quote = '"' ∨ quote = '\'' := by simpa using hquote
      · rw [hdouble] at hsome
        cases hsome
      · rw [hsingle] at hsome
        cases hsome

/-- An item keeps its quotes: it has no double quotes if it is written between double quotes, and is
not itself between quotes otherwise. -/
def KeepsQuotes (item : List Char) : Prop :=
  if needsQuotes item then '"' ∉ item
  else ∀ quote ∈ ['"', '\''], ∀ inner, item ≠ quote :: (inner ++ [quote])

theorem isWhitespace_of_bare {item : List Char} (h : needsQuotes item = false) :
    ∀ c ∈ item, Text.isWhitespace c = false := by
  intro c hc
  rw [needsQuotes, Bool.or_eq_false_iff] at h
  exact Bool.eq_false_iff.mpr (List.any_eq_false.mp h.2 c hc)

theorem trim_formatIniScalar (item : List Char) :
    Text.trim (formatIniScalar item) = formatIniScalar item := by
  rw [formatIniScalar]
  split_ifs with hquotes
  · exact Text.trim_of_ends _ (by decide) (by decide)
  · exact Text.trim_eq_self (isWhitespace_of_bare (Bool.eq_false_iff.mpr hquotes))

theorem unquoteIniScalar_formatIniScalar_iff (item : List Char) :
    unquoteIniScalar (formatIniScalar item) = item ↔ KeepsQuotes item := by
  have htrim := trim_formatIniScalar item
  rw [KeepsQuotes]
  rw [formatIniScalar] at htrim ⊢
  split_ifs at htrim ⊢ with hquotes
  · rw [unquoteIniScalar, htrim, Config.between_append]
    exact flatMap_escapeQuote_eq_self_iff item
  · exact unquoteIniScalar_eq_self_iff htrim

/-! ### Reading back a list -/

theorem comma_mem_formatIniScalar {item : List Char} :
    ',' ∈ formatIniScalar item ↔ ',' ∈ item := by
  have hchar : ∀ c, ',' ∈ escapeQuote c ↔ ',' = c := by
    intro c
    rw [escapeQuote]
    split_ifs with hquote
    · simp [hquote]
    · exact List.mem_singleton
  rw [formatIniScalar]
  split_ifs with hquotes
  · simp [hchar]
  · exact Iff.rfl

theorem formatIniScalar_ne_nil (item : List Char) : formatIniScalar item ≠ [] := by
  rw [formatIniScalar]
  split_ifs with hquotes
  · exact List.cons_ne_nil _ _
  · rintro rfl
    exact hquotes rfl

theorem items_formatIniScalar {item : List Char} (h : ',' ∉ item) :
    Config.items (formatIniScalar item) = [formatIniScalar item] := by
  rw [Config.items_of_notMem (comma_mem_formatIniScalar.not.mpr h), trim_formatIniScalar]
  simp [formatIniScalar_ne_nil]

/-- A list without commas in its items is split into its items. -/
theorem parseIniList_formatIniList {xs : List (List Char)} (h : ∀ x ∈ xs, ',' ∉ x) :
    parseIniList (formatIniList xs) = xs.map fun x => unquoteIniScalar (formatIniScalar x) := by
  have hitems : xs.flatMap (fun x => Config.items (formatIniScalar x)) =
      xs.map formatIniScalar := by
    rw [List.flatMap_congr fun x hx => items_formatIniScalar (h x hx)]
    exact List.flatMap_pure_eq_map formatIniScalar xs
  rw [parseIniList, (formatIniList_ends xs).1, formatIniList, Config.between_append,
    Option.getD_some, Config.items_intercalate (by simp [Text.isWhitespace]), List.flatMap_map,
    hitems, List.map_map]
  rfl

theorem formatIniScalar_eq_written {item : List Char} (h : KeepsQuotes item) :
    formatIniScalar item = written item := by
  rw [KeepsQuotes] at h
  rw [formatIniScalar, written]
  split_ifs at h ⊢ with hquotes
  · rw [(flatMap_escapeQuote_eq_self_iff item).mpr h]
  · rfl

/-- In the line of a list comments begin only in the items. -/
theorem hides_iniLine {key : List Char} (hkey : ∀ c ∈ key, IsPlain c) {xs : List (List Char)}
    (hquotes : ∀ x ∈ xs, KeepsQuotes x) :
    Hides Quotes.closed true (iniLine key (formatIniList xs)) ↔
      ∀ ys x zs, xs = ys ++ x :: zs → ItemHides (Quotes.closed.after (ys.flatMap written)) x := by
  have hsigns := fun c hc => (hkey c hc).not_isCommentSign
  have hbracket : ∀ c ∈ [']'].head?, isCommentSign c = false := by simp [isCommentSign]
  rw [iniLine, hides_append (by simp [isCommentSign]), Quotes.after_of_isPlain hkey, formatIniList,
    Hides, Hides, hides_append hbracket, List.map_congr_left fun x hx =>
      formatIniScalar_eq_written (hquotes x hx), hides_intercalate]
  have hplain := hides_of_forall hsigns Quotes.closed true
  simp [hplain, Hides, isCommentSign, Quotes.next]

/-- As many comment signs are written as there are in the items. -/
theorem countP_formatIniList (xs : List (List Char)) :
    (formatIniList xs).countP isCommentSign = xs.flatten.countP isCommentSign := by
  have hitem : ∀ x, (formatIniScalar x).countP isCommentSign = x.countP isCommentSign := by
    intro x
    have hchar : ∀ c, (escapeQuote c).countP isCommentSign = [c].countP isCommentSign := by
      intro c
      rw [escapeQuote]
      split_ifs with hquote
      · subst hquote
        rfl
      · rfl
    have hescape : (x.flatMap escapeQuote).countP isCommentSign = x.countP isCommentSign := by
      induction x with
      | nil => rfl
      | cons c x ih =>
        rw [List.flatMap_cons, List.countP_append, ih, hchar, ← List.countP_append,
          List.singleton_append]
    rw [formatIniScalar]
    split_ifs with hquotes
    · rw [List.countP_cons, List.countP_append, hescape]
      rfl
    · rfl
  have hparts : ∀ ys : List (List Char),
      (List.intercalate [',', ' '] (ys.map formatIniScalar)).countP isCommentSign =
        ys.flatten.countP isCommentSign := by
    intro ys
    induction ys with
    | nil => rfl
    | cons y ys ih =>
      cases ys with
      | nil => simp [hitem]
      | cons z zs =>
        rw [List.map_cons, List.map_cons, List.intercalate_cons_cons, ← List.map_cons,
          List.countP_append, List.countP_append, hitem, ih, List.flatten_cons (l := y),
          List.countP_append]
        rfl
  rw [formatIniList, List.countP_cons, List.countP_append, hparts]
  rfl

/-- The lists that are read back: no item has a comma, no item loses quotes, and a comment sign
after white space in an item stands between quotes, counting those that items before it opened. -/
structure Readable (xs : List (List Char)) : Prop where
  commas : ∀ x ∈ xs, ',' ∉ x
  quotes : ∀ x ∈ xs, KeepsQuotes x
  comments : ∀ ys x zs, xs = ys ++ x :: zs →
    ItemHides (Quotes.closed.after (ys.flatMap written)) x

/-- **Reading back.** Exactly the readable lists are read back from their lines. -/
theorem readIniList_eq_some_iff (key : List Char) (hkey : ∀ c ∈ key, IsPlain c)
    (hequals : '=' ∉ key) (xs : List (List Char)) :
    readIniList (iniLine key (formatIniList xs)) = some xs ↔ Readable xs := by
  have hback : (∀ x ∈ xs, ',' ∉ x) → (parseIniList (formatIniList xs) = xs ↔
      ∀ x ∈ xs, KeepsQuotes x) := by
    intro hcommas
    have hself : (xs.map fun x => unquoteIniScalar (formatIniScalar x)) = xs ↔
        ∀ x ∈ xs, unquoteIniScalar (formatIniScalar x) = x := by
      conv_lhs => rhs; rw [← List.map_id' xs]
      exact List.map_inj_left
    rw [parseIniList_formatIniList hcommas, hself]
    exact forall₂_congr fun x _ => unquoteIniScalar_formatIniScalar_iff x
  constructor
  · intro hread
    have hhides : Hides Quotes.closed true (iniLine key (formatIniList xs)) := by
      obtain ⟨-, hhides⟩ | ⟨-, sign, rest, hsign, hline⟩ :=
        stripFrom_cases Quotes.closed true (iniLine key (formatIniList xs))
      · exact hhides
      -- a comment sign that is cut off is missing from what is read
      have hle := (flatten_readIniList_sublist hread).countP_le (p := isCommentSign)
      have hcount := congrArg (List.countP isCommentSign) hline
      have hnone : key.countP isCommentSign = 0 :=
        List.countP_eq_zero.mpr fun c hc => by simp [(hkey c hc).not_isCommentSign]
      have hequal : isCommentSign '=' = false := rfl
      rw [List.countP_append, List.countP_cons_of_pos hsign] at hcount
      rw [iniLine, List.countP_append, hnone, List.countP_cons_of_neg (by simp [hequal]),
        countP_formatIniList] at hcount
      rw [stripIniComment, iniLine] at hle
      omega
    rw [readIniList_of_hides hkey hequals hhides, Option.some.injEq] at hread
    have hcommas : ∀ x ∈ xs, ',' ∉ x := by
      intro x hx
      rw [← hread] at hx
      exact comma_notMem_of_mem hx
    have hquotes := (hback hcommas).mp hread
    exact ⟨hcommas, hquotes, (hides_iniLine hkey hquotes).mp hhides⟩
  · rintro ⟨hcommas, hquotes, hcomments⟩
    rw [readIniList_of_hides hkey hequals ((hides_iniLine hkey hquotes).mpr hcomments),
      (hback hcommas).mpr hquotes]

/-- Apostrophes and backslashes, white space, comment signs, brackets, and an empty item. -/
theorem readable_sample :
    Readable [[], ['x', ' ', '#', 'y'], ['[', ';', ']'], ['i', '\\', 's', '\'']] :=
  (readIniList_eq_some_iff ['a', 'r', 'g', 's'] (by simp [IsPlain, Text.isWhitespace]) (by decide)
    [[], ['x', ' ', '#', 'y'], ['[', ';', ']'], ['i', '\\', 's', '\'']]).mp (by decide)

/-- A comma splits an item, between quotes or not. -/
theorem not_readIniList_comma :
    readIniList (iniLine ['a', 'r', 'g', 's'] (formatIniList [['a', ',', 'b']])) =
        some [['"', 'a'], ['b', '"']] ∧
      ¬ readIniList (iniLine ['a', 'r', 'g', 's'] (formatIniList [['a', ',', 'b']])) =
        some [['a', ',', 'b']] := by
  decide

end Sesman

end Cheirizo
