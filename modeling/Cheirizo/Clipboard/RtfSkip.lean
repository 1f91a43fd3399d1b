import Cheirizo.Clipboard.RtfBraces
import Mathlib.Data.List.TakeWhile

/-!
# Skipped groups of a document

`rtf_to_text` of `src/rdp/channels/clipboard/core/formats.rs` skips the group of a destination, from
its control word on. While it skips, a backslash without a control word does not take the character
after it, and so an escaped brace opens or closes a group; and a destination in a nested group
becomes the one to skip, and what follows it in the outer group is read as text. What a group hides
can show, for every group of every document.

## Main definitions

* `rtfTurns` — a number of turns of the loop
* `Opening` — what makes the scanner skip a group
* `SkippedGroup` — a group that is skipped, in a document
* `KeepsSkipping` — contents after which the scanner is where it was

## Main results

* `rtfTurns_append` — what was read before does not depend on what follows
* `skippedGroup_leaks` — the group that hides nothing, and the contents that are hidden
-/

namespace Cheirizo

namespace Clipboard

open Unicode Nesting

/-! ### Turns of the loop -/

/-- What a number of turns leaves, and what they append to the result. -/
def rtfTurns : ℕ → RtfScan → List Char → RtfTurn
  | _, s, [] => ⟨s, [], []⟩
  | 0, s, c :: cs => ⟨s, [], c :: cs⟩
  | n + 1, s, c :: cs =>
    let next := s.turn c cs
    let last := rtfTurns n next.scan next.rest
    ⟨last.scan, next.text ++ last.text, last.rest⟩

/-- No turn reads nothing. -/
theorem rtfTurns_zero (s : RtfScan) (cs : List Char) : rtfTurns 0 s cs = ⟨s, [], cs⟩ := by
  cases cs <;> rfl

/-- The scanner goes on where the turns end. -/
theorem rtfScan_rtfTurns (n : ℕ) (s : RtfScan) (cs : List Char) :
    rtfScan s cs =
      (rtfTurns n s cs).text ++ rtfScan (rtfTurns n s cs).scan (rtfTurns n s cs).rest := by
  induction n generalizing s cs with
  | zero => rw [rtfTurns_zero, List.nil_append]
  | succ n ih =>
    cases cs with
    | nil => rfl
    | cons c cs => rw [rtfScan_cons, ih, ← List.append_assoc, rtfTurns]

/-- Turns only take away from the text. -/
theorem length_rtfTurns_le (n : ℕ) (s : RtfScan) (cs : List Char) :
    (rtfTurns n s cs).rest.length ≤ cs.length := by
  induction n generalizing s cs with
  | zero => rw [rtfTurns_zero]
  | succ n ih =>
    cases cs with
    | nil => exact Nat.le_refl _
    | cons c cs =>
      exact (ih _ _).trans ((s.length_turn_le c cs).trans (Nat.le_succ _))

/-! ### Where a control word ends -/

/-- A character that a control word may go on with. -/
def continues (c : Char) : Bool := c.isAlpha || c.isDigit || c = '-' || c = ' '

/-- What is left after the letters, the number and the space of a control word. -/
def skipWord (cs : List Char) : List Char :=
  skipSpace (scanParameter (cs.dropWhile Char.isAlpha)).2

section Stop

variable {d : Char}

/-- What is taken ends before a character that is not wanted, whatever follows. -/
theorem takeWhile_stop {p : Char → Bool} (h : p d = false) (cs r : List Char) :
    (cs ++ d :: r).takeWhile p = cs.takeWhile p := by
  induction cs with
  | nil => rw [List.nil_append, List.takeWhile_cons_of_neg (by simp [h]), List.takeWhile_nil]
  | cons c cs ih => rw [List.cons_append, List.takeWhile_cons, List.takeWhile_cons, ih]

theorem dropWhile_stop {p : Char → Bool} (h : p d = false) (cs r : List Char) :
    (cs ++ d :: r).dropWhile p = cs.dropWhile p ++ d :: r := by
  induction cs with
  | nil => rw [List.nil_append, List.dropWhile_cons_of_neg (by simp [h]), List.dropWhile_nil,
      List.nil_append]
  | cons c cs ih =>
    rw [List.cons_append, List.dropWhile_cons, List.dropWhile_cons, ih]
    split_ifs <;> rfl

/-- The characters at which a control word ends at the latest. -/
theorem continues_eq_false :
    continues d = false ↔ d.isAlpha = false ∧ d.isDigit = false ∧ d ≠ '-' ∧ d ≠ ' ' := by
  simp [continues, and_assoc]

/-- A parameter ends there. -/
theorem scanParameter_stop (h : continues d = false) (cs r : List Char) :
    scanParameter (cs ++ d :: r) = ((scanParameter cs).1, (scanParameter cs).2 ++ d :: r) := by
  obtain ⟨-, hdigit, hminus, -⟩ := continues_eq_false.mp h
  cases cs with
  | nil =>
    have hne : ∀ rest, d :: r ≠ '-' :: rest := fun rest heq => hminus (List.cons.inj heq).1
    have hsplit := dropWhile_stop hdigit [] r
    rw [List.nil_append, scanParameter.eq_2 _ hne, ← List.nil_append (d :: r),
      takeWhile_stop hdigit, hsplit]
    rfl
  | cons c cs =>
    by_cases hc : c = '-'
    · subst hc
      rw [List.cons_append, scanParameter, scanParameter, takeWhile_stop hdigit,
        dropWhile_stop hdigit]
    · have hne : ∀ tail rest : List Char, c :: tail ≠ '-' :: rest :=
        fun tail rest heq => hc (List.cons.inj heq).1
      rw [List.cons_append, scanParameter.eq_2 _ (hne _), scanParameter.eq_2 _ (hne _),
        ← List.cons_append, takeWhile_stop hdigit, dropWhile_stop hdigit]

theorem skipSpace_stop (h : d ≠ ' ') (cs r : List Char) :
    skipSpace (cs ++ d :: r) = skipSpace cs ++ d :: r := by
  have hcons : ∀ {c : Char} (tail : List Char), c ≠ ' ' → skipSpace (c :: tail) = c :: tail :=
    fun tail hc => skipSpace.eq_2 _ fun rest heq => hc (List.cons.inj heq).1
  cases cs with
  | nil => exact hcons r h
  | cons c cs =>
    by_cases hc : c = ' '
    · subst hc
      rfl
    · rw [List.cons_append, hcons _ hc, hcons _ hc, List.cons_append]

/-- So does a whole control word. -/
theorem skipWord_stop (h : continues d = false) (cs r : List Char) :
    skipWord (cs ++ d :: r) = skipWord cs ++ d :: r := by
  obtain ⟨halpha, -, -, hspace⟩ := continues_eq_false.mp h
  rw [skipWord, dropWhile_stop halpha, scanParameter_stop h, skipSpace_stop hspace, skipWord]

end Stop

/-! ### What was read does not depend on what follows -/

/-- Up to a backslash, or past it: what `f` makes of `pre` is independent of what stands behind a
backslash, unless `f` takes the backslash along. -/
def Local (f : List Char → RtfTurn) (pre : List Char) : Prop :=
  (∃ t : RtfTurn, ∀ r, f (pre ++ '\\' :: r) = ⟨t.scan, t.text, t.rest ++ '\\' :: r⟩) ∨
    ∀ r, (f (pre ++ '\\' :: r)).rest.length ≤ r.length

namespace RtfScan

/-- What follows the backslash, in parts. -/
def controlWord (s : RtfScan) (word parameter rest : List Char) : RtfTurn :=
  if (rtfSkipDestinations.map String.toList).contains word then
    ⟨{ s with skipDepth := some s.groupDepth }, [], rest⟩
  else if s.skipDepth.isSome then ⟨s, [], rest⟩
  else if word = "par".toList ∨ word = "line".toList then ⟨s, ['\n'], rest⟩
  else if word = "tab".toList then ⟨s, ['\t'], rest⟩
  else if word = "uc".toList then
    match (Text.parseSigned (2 ^ 31) parameter).filter fun value => 0 ≤ value with
    | some value => ⟨{ s with unicodeFallbackCount := value.toNat }, [], rest⟩
    | none => ⟨s, [], rest⟩
  else if word = "u".toList then
    match Text.parseSigned (2 ^ 31) parameter with
    | some value => ⟨(s.unicode value).1, (s.unicode value).2, rest⟩
    | none => ⟨s, [], rest⟩
  else if word = [] then s.escaped rest
  else ⟨s, [], rest⟩

/-- A control word is read in three parts. -/
theorem control_eq (s : RtfScan) (cs : List Char) : s.control cs =
    s.controlWord (cs.takeWhile Char.isAlpha) (scanParameter (cs.dropWhile Char.isAlpha)).1
      (skipWord cs) := rfl

/-- A turn that reads nothing of what follows a backslash is local. -/
theorem local_of_forall {f : List Char → RtfTurn} {pre : List Char} (t : RtfTurn)
    (h : ∀ r, f (pre ++ '\\' :: r) = ⟨t.scan, t.text, t.rest ++ '\\' :: r⟩) : Local f pre :=
  Or.inl ⟨t, h⟩

/-- An escape takes the next character at most. -/
theorem local_escaped (s : RtfScan) (pre : List Char) : Local s.escaped pre := by
  match pre with
  | [] => exact Or.inr fun r => Nat.le_refl _
  | c :: pre =>
    by_cases hspecial : c = '\\' ∨ c = '{' ∨ c = '}'
    · exact local_of_forall ⟨s, [c], pre⟩ fun r => if_pos hspecial
    · by_cases hhex : c = '\''
      · subst hhex
        match pre with
        | [] =>
          refine Or.inr fun r => ?_
          cases r <;> simp [escaped]
        | [a] => exact Or.inr fun r => Nat.le_refl _
        | a :: b :: pre =>
          exact local_of_forall ⟨s, ((hexByte a b).map windows1252ToChar).toList, pre⟩ fun r => rfl
      · by_cases hstar : c = '*'
        · subst hstar
          exact local_of_forall ⟨{ s with skipDepth := some s.groupDepth }, [], pre⟩ fun r => rfl
        · exact local_of_forall ⟨s, [], pre⟩ fun r =>
            (if_neg hspecial).trans ((if_neg hhex).trans (if_neg hstar))

/-- A control word takes nothing of what is behind it. -/
theorem controlWord_rest {s : RtfScan} {word : List Char} (h : word ≠ [])
    (parameter rest : List Char) : s.controlWord word parameter rest =
      ⟨(s.controlWord word parameter []).scan, (s.controlWord word parameter []).text, rest⟩ := by
  rw [controlWord, controlWord]
  split_ifs <;> try rfl
  · cases (Text.parseSigned (2 ^ 31) parameter).filter fun value => 0 ≤ value <;> rfl
  · cases Text.parseSigned (2 ^ 31) parameter <;> rfl

/-- Nor does a backslash alone, in a group that is skipped. -/
theorem controlWord_nil_skip {s : RtfScan} (h : s.skipDepth.isSome = true)
    (parameter rest : List Char) : s.controlWord [] parameter rest = ⟨s, [], rest⟩ := by
  rw [controlWord, if_neg (by decide), if_pos h]

theorem controlWord_nil {s : RtfScan} (h : s.skipDepth = none) (parameter rest : List Char) :
    s.controlWord [] parameter rest = s.escaped rest := by
  rw [controlWord, if_neg (by decide), if_neg (by simp [h]), if_neg (by decide),
    if_neg (by decide), if_neg (by decide), if_neg (by decide), if_pos rfl]

/-- A control word ends before the next one. -/
theorem local_control (s : RtfScan) (pre : List Char) : Local s.control pre := by
  have hcontrol : ∀ r, s.control (pre ++ '\\' :: r) =
      s.controlWord (pre.takeWhile Char.isAlpha) (scanParameter (pre.dropWhile Char.isAlpha)).1
        (skipWord pre ++ '\\' :: r) := by
    intro r
    rw [control_eq, takeWhile_stop (by decide), dropWhile_stop (by decide),
      scanParameter_stop (by decide), skipWord_stop (by decide)]
  by_cases hword : pre.takeWhile Char.isAlpha = []
  · rw [hword] at hcontrol
    cases hskip : s.skipDepth with
    | some depth =>
      exact local_of_forall ⟨s, [], skipWord pre⟩ fun r => by
        rw [hcontrol, controlWord_nil_skip (by simp [hskip])]
    | none =>
      obtain ⟨t, ht⟩ | ht := s.local_escaped (skipWord pre)
      · exact local_of_forall t fun r => by rw [hcontrol, controlWord_nil hskip, ht]
      · exact Or.inr fun r => by
          rw [hcontrol, controlWord_nil hskip]
          exact ht r
  · exact local_of_forall
      ⟨(s.controlWord (pre.takeWhile Char.isAlpha)
          (scanParameter (pre.dropWhile Char.isAlpha)).1 []).scan,
        (s.controlWord (pre.takeWhile Char.isAlpha)
          (scanParameter (pre.dropWhile Char.isAlpha)).1 []).text, skipWord pre⟩
      fun r => by rw [hcontrol, controlWord_rest hword]

theorem local_skipEscape (s : RtfScan) (pre : List Char) :
    Local (fun cs => ⟨s, [], skipEscape cs⟩) pre := by
  match pre with
  | [] =>
    refine Or.inr fun r => ?_
    exact Nat.le_refl _
  | c :: pre =>
    by_cases hhex : c = '\''
    · subst hhex
      match pre with
      | [] => exact Or.inr fun r => by simp [skipEscape]
      | [a] => exact Or.inr fun r => by simp [skipEscape]
      | a :: b :: pre => exact local_of_forall ⟨s, [], pre⟩ fun r => rfl
    · by_cases halpha : c.isAlpha = true
      · refine local_of_forall ⟨s, [], skipWord pre⟩ fun r => ?_
        rw [← skipWord_stop (by decide)]
        simp [skipEscape, hhex, halpha, skipWord]
      · refine local_of_forall ⟨s, [], pre⟩ fun r => ?_
        simp [skipEscape, hhex, halpha]

/-- No turn reads beyond the next backslash. -/
theorem local_turn (s : RtfScan) (c : Char) (pre : List Char) : Local (s.turn c) pre := by
  have hkeeps : ∀ (scan : RtfScan) (text : List Char),
      Local (fun cs => ⟨scan, text, cs⟩) pre :=
    fun scan text => local_of_forall ⟨scan, text, pre⟩ fun r => rfl
  unfold turn
  split_ifs <;> try exact hkeeps _ _
  · exact local_skipEscape _ _
  · exact s.local_control pre

end RtfScan

/-- **What was read before does not depend on what follows.** Turns that end at a backslash are the
same, whatever is behind it. -/
theorem rtfTurns_append {n : ℕ} {s : RtfScan} {pre r : List Char}
    (h : (rtfTurns n s (pre ++ '\\' :: r)).rest = '\\' :: r) (r' : List Char) :
    rtfTurns n s (pre ++ '\\' :: r') =
      { rtfTurns n s (pre ++ '\\' :: r) with rest := '\\' :: r' } := by
  induction n generalizing s pre with
  | zero =>
    rw [rtfTurns_zero] at h
    obtain rfl : pre = [] := by simpa using h
    rw [rtfTurns_zero, rtfTurns_zero]
    rfl
  | succ n ih =>
    have hshort : ∀ {t : RtfTurn}, t.rest.length ≤ r.length →
        (rtfTurns n t.scan t.rest).rest ≠ '\\' :: r := by
      intro t hlength heq
      have hle := length_rtfTurns_le n t.scan t.rest
      rw [heq, List.length_cons] at hle
      omega
    cases pre with
    | nil => exact absurd h (hshort (s.length_turn_le '\\' r))
    | cons c pre =>
      rw [List.cons_append, rtfTurns] at h
      rw [List.cons_append, List.cons_append, rtfTurns, rtfTurns]
      obtain ⟨t, ht⟩ | ht := s.local_turn c pre
      · simp only [ht] at h ⊢
        rw [ih h]
      · exact absurd h (hshort (ht r))

/-! ### Skipped groups -/

/-- The text of a control word. -/
def controlText (word parameter : List Char) (spaced : Bool) : List Char :=
  word ++ (parameter ++ if spaced then [' '] else [])

/-- What makes the scanner skip the group it is in: a control word for a destination, a control
word after `\*`, or `\*` itself. The control word may have a space that ends it, and nothing ends
`\*`. -/
inductive Opening (s : RtfScan) : List Char → Bool → Prop
  | word {word parameter : List Char} {spaced : Bool} (hne : word ≠ [])
      (hword : ∀ c ∈ word, c.isAlpha = true)
      (hparameter : scanParameter parameter = (parameter, []))
      (hskips : word ∈ rtfSkipDestinations.map String.toList ∨ s.skipDepth = some s.groupDepth) :
      Opening s (controlText word parameter spaced) spaced
  | star (hskip : s.skipDepth = none) : Opening s ['*'] true

/-- No control word goes on here. -/
def stops : List Char → Bool
  | [] => true
  | c :: _ => !continues c

/-- Contents of a group: balanced, with nothing left for a backslash to take, and apart from the
control word before. -/
structure IsContent (spaced : Bool) (content : List Char) : Prop where
  balanced : Balanced (unescaped false (content.map charToken))
  settled : dangling false (content.map charToken) = false
  delimited : spaced = true ∨ stops content = true

/-- A place for a group in a document: what is before its control word, the control word without the
backslash, and what is after its closing brace. -/
structure GroupPlace where
  front : List Char
  opener : List Char
  /-- The control word has a space that ends it. -/
  spaced : Bool
  back : List Char
  deriving DecidableEq, Repr

/-- The document with that content in the group. -/
def GroupPlace.document (place : GroupPlace) (content : List Char) : List Char :=
  place.front ++ '\\' :: (place.opener ++ (content ++ '\x7d' :: place.back))

/-- The scanner comes to the control word and skips its group. -/
structure GroupPlace.Skipped (place : GroupPlace) (turns : ℕ) (body : List Char) : Prop where
  reached : (rtfTurns turns .start (place.document body)).rest =
    '\\' :: (place.opener ++ (body ++ '\x7d' :: place.back))
  settled : (rtfTurns turns .start (place.document body)).scan.fallbackCharsToSkip = 0
  opening : Opening (rtfTurns turns .start (place.document body)).scan place.opener place.spaced
  content : IsContent place.spaced body

/-! ### The scanner at a control word -/

/-- Where the scanner skips the group that it is in. -/
def RtfScan.skipping (s : RtfScan) : RtfScan := { s with skipDepth := some s.groupDepth }

/-- A group that is skipped already is skipped on. -/
theorem skipping_eq {s : RtfScan} (h : s.skipDepth = some s.groupDepth) : s.skipping = s := by
  rw [RtfScan.skipping, ← h]

/-- A control word ends before the brace that closes its group. -/
theorem stops_append {content : List Char} (h : stops content = true) (back : List Char) :
    stops (content ++ '\x7d' :: back) = true := by
  cases content with
  | nil => rfl
  | cons c content => exact h

theorem takeWhile_of_head {p : Char → Bool} {tail : List Char}
    (h : ∀ d rest, tail = d :: rest → p d = false) : tail.takeWhile p = [] ∧
      tail.dropWhile p = tail := by
  cases tail with
  | nil => exact ⟨rfl, rfl⟩
  | cons d rest =>
    have hd := h d rest rfl
    exact ⟨List.takeWhile_cons_of_neg (by simp [hd]), List.dropWhile_cons_of_neg (by simp [hd])⟩

/-- Characters of a run, and then others. -/
theorem takeWhile_append_head {p : Char → Bool} {run tail : List Char}
    (hrun : ∀ c ∈ run, p c = true) (htail : ∀ d rest, tail = d :: rest → p d = false) :
    (run ++ tail).takeWhile p = run ∧ (run ++ tail).dropWhile p = tail := by
  obtain ⟨htake, hdrop⟩ := takeWhile_of_head htail
  rw [List.takeWhile_append_of_pos hrun, List.dropWhile_append_of_pos hrun, htake, hdrop,
    List.append_nil]
  exact ⟨rfl, rfl⟩

/-- A number is a minus sign and digits, either of which may be missing. -/
theorem scanParameter_cases {parameter : List Char}
    (h : scanParameter parameter = (parameter, [])) :
    ∃ digits, (∀ c ∈ digits, c.isDigit = true) ∧
      (parameter = digits ∨ parameter = '-' :: digits) := by
  rw [scanParameter.eq_def] at h
  split at h
  · rename_i digits
    obtain ⟨htake, -⟩ := Prod.mk.inj h
    refine ⟨digits, fun c hc => ?_, Or.inr rfl⟩
    exact List.mem_takeWhile_imp ((List.cons.inj htake).2 ▸ hc)
  · obtain ⟨htake, -⟩ := Prod.mk.inj h
    exact ⟨_, fun c hc => List.mem_takeWhile_imp (htake ▸ hc), Or.inl rfl⟩

/-- A parameter is read in whole. -/
theorem scanParameter_append {parameter tail : List Char}
    (h : scanParameter parameter = (parameter, []))
    (htail : ∀ d rest, tail = d :: rest → d.isDigit = false ∧ d ≠ '-') :
    scanParameter (parameter ++ tail) = (parameter, tail) := by
  obtain ⟨digits, hdigits, hparameter⟩ := scanParameter_cases h
  obtain ⟨htake, hdrop⟩ := takeWhile_append_head hdigits fun d rest heq => (htail d rest heq).1
  obtain rfl | rfl := hparameter
  · have hne : ∀ rest, parameter ++ tail ≠ '-' :: rest := by
      intro rest heq
      cases parameter with
      | nil => exact (htail _ _ heq).2 rfl
      | cons c digits =>
        have hdigit := hdigits c List.mem_cons_self
        rw [(List.cons.inj heq).1] at hdigit
        exact absurd hdigit (by decide)
    rw [scanParameter.eq_2 _ hne, htake, hdrop]
  · rw [List.cons_append, scanParameter, htake, hdrop]

theorem isAlpha_of_parameter {parameter : List Char} (h : scanParameter parameter = (parameter, []))
    {d : Char} (hd : d ∈ parameter) : d.isAlpha = false := by
  obtain ⟨digits, hdigits, rfl | rfl⟩ := scanParameter_cases h
  · exact isAlpha_of_isDigit (hdigits d hd)
  · obtain rfl | hd := List.mem_cons.mp hd
    · decide
    · exact isAlpha_of_isDigit (hdigits d hd)

/-- A control word ends where it is delimited, and its space is skipped. -/
theorem ends_of_delimited {spaced : Bool} {rest tail : List Char}
    (h : spaced = true ∨ stops rest = true)
    (htail : (if spaced then [' '] else []) ++ rest = tail) :
    (∀ d cs, tail = d :: cs → d.isAlpha = false ∧ d.isDigit = false ∧ d ≠ '-') ∧
      skipSpace tail = rest := by
  cases spaced with
  | true =>
    obtain rfl : ' ' :: rest = tail := htail
    refine ⟨fun d cs heq => ?_, rfl⟩
    rw [← (List.cons.inj heq).1]
    decide
  | false =>
    obtain rfl : rest = tail := htail
    replace h : stops rest = true := h.resolve_left Bool.false_ne_true
    cases rest with
    | nil => exact ⟨nofun, rfl⟩
    | cons c cs =>
      rw [stops, Bool.not_eq_true'] at h
      obtain ⟨halpha, hdigit, hminus, hspace⟩ := continues_eq_false.mp h
      refine ⟨fun d ds heq => ?_, skipSpace.eq_2 _ fun ds heq => hspace (List.cons.inj heq).1⟩
      rw [← (List.cons.inj heq).1]
      exact ⟨halpha, hdigit, hminus⟩

/-- **A group is skipped from its control word on.** -/
theorem control_opening {s : RtfScan} {opener rest : List Char} {spaced : Bool}
    (h : Opening s opener spaced) (hrest : spaced = true ∨ stops rest = true) :
    s.control (opener ++ rest) = ⟨s.skipping, [], rest⟩ := by
  cases h with
  | star hskip =>
    rw [RtfScan.control_eq]
    exact RtfScan.controlWord_nil hskip _ _
  | @word word parameter _ hne hword hparameter hskips =>
    generalize htail : (if spaced then [' '] else []) ++ rest = tail
    obtain ⟨hends, hspace⟩ := ends_of_delimited hrest htail
    have hsplit : controlText word parameter spaced ++ rest = word ++ (parameter ++ tail) := by
      rw [← htail, controlText, List.append_assoc, List.append_assoc]
    have hnumber := scanParameter_append hparameter fun d cs heq => (hends d cs heq).2
    have hhead : ∀ d cs, parameter ++ tail = d :: cs → d.isAlpha = false := by
      intro d cs heq
      cases parameter with
      | nil => exact (hends d cs heq).1
      | cons c digits =>
        rw [← (List.cons.inj heq).1]
        exact isAlpha_of_parameter hparameter List.mem_cons_self
    obtain ⟨htake, hdrop⟩ := takeWhile_append_head hword hhead
    rw [hsplit, RtfScan.control_eq, skipWord, htake, hdrop, hnumber, hspace,
      RtfScan.controlWord]
    obtain hmem | hskip := hskips
    · rw [if_pos (List.contains_iff_mem.mpr hmem), RtfScan.skipping]
    · have hsame := skipping_eq hskip
      have hsome : s.skipDepth.isSome = true := by rw [hskip]; rfl
      rw [if_pos hsome, hsame]
      split_ifs
      · exact congrArg (RtfTurn.mk · [] rest) hsame
      · rfl

/-! ### What is hidden, and what is not -/

section Turns

variable {s : RtfScan}

/-- An opening brace is a level more. -/
theorem turn_open (hfallback : s.fallbackCharsToSkip = 0) (cs : List Char) :
    s.turn '\x7b' cs = ⟨{ s with groupDepth := s.groupDepth + 1 }, [], cs⟩ := by
  rw [RtfScan.turn, if_neg (by omega), if_pos rfl]

/-- A closing brace is a level less, and may end the skipping. -/
theorem turn_close (hfallback : s.fallbackCharsToSkip = 0) (cs : List Char) :
    s.turn '\x7d' cs =
      ⟨{ s with
          skipDepth := if s.skipDepth = some s.groupDepth then none else s.skipDepth
          groupDepth := s.groupDepth - 1 }, [], cs⟩ := by
  rw [RtfScan.turn, if_neg (by omega), if_neg (by decide), if_pos rfl]

/-- A backslash begins a control word. -/
theorem turn_backslash (hfallback : s.fallbackCharsToSkip = 0) (cs : List Char) :
    s.turn '\\' cs = s.control cs := by
  rw [RtfScan.turn, if_neg (by omega), if_neg (by decide), if_neg (by decide), if_pos rfl]

/-- Any other character is text, unless it is skipped. -/
theorem turn_other (hfallback : s.fallbackCharsToSkip = 0) {c : Char}
    (hc : charToken c = .other) (cs : List Char) :
    s.turn c cs = ⟨s, if s.skipDepth = none ∧ ' ' ≤ c then [c] else [], cs⟩ := by
  have hne : ∀ d, charToken d ≠ .other → c ≠ d := by
    rintro d hd rfl
    exact hd hc
  rw [RtfScan.turn, if_neg (by omega), if_neg (hne _ (by decide)), if_neg (hne _ (by decide)),
    if_neg (hne _ (by decide))]

/-- After the group that was skipped. -/
def RtfScan.resumed (s : RtfScan) : RtfScan :=
  { s with skipDepth := none, groupDepth := s.groupDepth - 1 }

/-- An escaped brace closes the group, and what follows it is read as text. -/
theorem rtfScan_leak (hfallback : s.fallbackCharsToSkip = 0) {c : Char}
    (hc : charToken c = .other) (hspace : ' ' ≤ c) (rest : List Char) :
    rtfScan s.skipping ('\\' :: '\x7d' :: c :: rest) = c :: rtfScan s.resumed rest := by
  have hcontrol : s.skipping.control ('\x7d' :: c :: rest) =
      ⟨s.skipping, [], '\x7d' :: c :: rest⟩ := by
    rw [RtfScan.control_eq]
    exact RtfScan.controlWord_nil_skip rfl _ _
  have hclose : s.skipping.turn '\x7d' (c :: rest) = ⟨s.resumed, [], c :: rest⟩ := by
    have hdepth : s.skipping.skipDepth = some s.skipping.groupDepth := rfl
    rw [turn_close (s := s.skipping) hfallback, if_pos hdepth]
    rfl
  rw [rtfScan_cons, turn_backslash (s := s.skipping) hfallback, hcontrol, rtfScan_cons, hclose,
    rtfScan_cons, turn_other (s := s.resumed) hfallback hc, if_pos ⟨rfl, hspace⟩]
  rfl

end Turns

/-- Contents after which the scanner is where it was: braces balance, escaped ones included, and no
destination stands in a nested group. -/
structure KeepsSkipping (content : List Char) : Prop where
  within : Within 0 (2 ^ 32) 0 (content.map charToken)
  closed : level (content.map charToken) = 0
  words : ∀ front rest, content = front ++ '\\' :: rest → level (front.map charToken) ≠ 0 →
    rest.takeWhile Char.isAlpha ∉ rtfSkipDestinations.map String.toList

theorem charToken_of_continues {c : Char} (h : continues c = true) : charToken c = .other := by
  have hne : ∀ d, continues d = false → c ≠ d := by
    rintro d hd rfl
    rw [h] at hd
    cases hd
  rw [charToken, if_neg (hne _ (by decide)), if_neg (hne _ (by decide)),
    if_neg (hne _ (by decide))]

/-- What a control word takes along are characters of control words. -/
theorem exists_append_skipWord (cs : List Char) :
    ∃ word, cs = word ++ skipWord cs ∧ ∀ c ∈ word, continues c = true := by
  have hletters : cs = cs.takeWhile Char.isAlpha ++ cs.dropWhile Char.isAlpha :=
    List.takeWhile_append_dropWhile.symm
  have hnumber : ∀ ds : List Char, ds = (scanParameter ds).1 ++ (scanParameter ds).2 ∧
      ∀ c ∈ (scanParameter ds).1, continues c = true := by
    intro ds
    have hdigit : ∀ {c} {es : List Char}, c ∈ es.takeWhile Char.isDigit → continues c = true :=
      fun hc => by simp [continues, List.mem_takeWhile_imp hc]
    rw [scanParameter.eq_def]
    split
    · refine ⟨by rw [List.cons_append, List.takeWhile_append_dropWhile], fun c hc => ?_⟩
      obtain rfl | hc := List.mem_cons.mp hc
      · decide
      · exact hdigit hc
    · exact ⟨List.takeWhile_append_dropWhile.symm, fun c hc => hdigit hc⟩
  have hspace : ∀ ds : List Char, ∃ space, ds = space ++ skipSpace ds ∧
      ∀ c ∈ space, continues c = true := by
    intro ds
    rw [skipSpace.eq_def]
    split
    · exact ⟨[' '], rfl, List.all_eq_true.mp rfl⟩
    · exact ⟨[], rfl, List.forall_mem_nil _⟩
  obtain ⟨hparts, hparameter⟩ := hnumber (cs.dropWhile Char.isAlpha)
  obtain ⟨space, hrest, hspaces⟩ := hspace (scanParameter (cs.dropWhile Char.isAlpha)).2
  refine ⟨cs.takeWhile Char.isAlpha ++ ((scanParameter (cs.dropWhile Char.isAlpha)).1 ++ space),
    ?_, fun c hc => ?_⟩
  · rw [skipWord, List.append_assoc, List.append_assoc, ← hrest, ← hparts, ← hletters]
  · rw [List.mem_append, List.mem_append] at hc
    obtain hc | hc | hc := hc
    · simp [continues, List.mem_takeWhile_imp hc]
    · exact hparameter c hc
    · exact hspaces c hc

/-- Depths are compared in 32 bits. -/
theorem depth_eq {d g : Int32} (h : (d.toInt - g.toInt - 0) % 2 ^ 32 = 0) : d = g := by
  have hmin := d.le_toInt
  have hmax := d.toInt_lt
  have hgmin := g.le_toInt
  have hgmax := g.toInt_lt
  exact Int32.toInt_inj.mp (by omega)

theorem charToken_cases (c : Char) :
    c = '\x7b' ∨ c = '\x7d' ∨ c = '\\' ∨ charToken c = .other := by
  rw [charToken]
  split_ifs with hopen hclose hescape
  · exact Or.inl hopen
  · exact Or.inr (Or.inl hclose)
  · exact Or.inr (Or.inr (Or.inl hescape))
  · exact Or.inr (Or.inr (Or.inr rfl))

/-- A control word opens and closes no group. -/
theorem exists_level_skipWord (cs : List Char) :
    ∃ word, cs = word ++ skipWord cs ∧ level (word.map charToken) = 0 := by
  obtain ⟨word, hword, hcontinues⟩ := exists_append_skipWord cs
  refine ⟨word, hword, level_eq_zero fun t ht => ?_⟩
  obtain ⟨c, hc, rfl⟩ := List.mem_map.mp ht
  rw [charToken_of_continues (hcontinues c hc)]
  rfl

/-- A control word is passed over; one for a destination changes nothing at the level of the group
that is skipped. -/
theorem control_keepsSkipping {g : Int32} {s : RtfScan} {cs : List Char}
    (hskip : s.skipDepth = some g)
    (hword : s.groupDepth ≠ g →
      cs.takeWhile Char.isAlpha ∉ rtfSkipDestinations.map String.toList) (back : List Char) :
    s.control (cs ++ '\x7d' :: back) = ⟨s, [], skipWord cs ++ '\x7d' :: back⟩ := by
  rw [RtfScan.control_eq, takeWhile_stop (by decide), skipWord_stop (by decide),
    RtfScan.controlWord]
  by_cases hdestination :
      (rtfSkipDestinations.map String.toList).contains (cs.takeWhile Char.isAlpha) = true
  · have hsame : s.groupDepth = g := by
      by_contra hne
      exact hword hne (List.contains_iff_mem.mp hdestination)
    have hskipping := skipping_eq (show s.skipDepth = some s.groupDepth by rw [hskip, hsame])
    rw [if_pos hdestination]
    exact congrArg (RtfTurn.mk · [] (skipWord cs ++ '\x7d' :: back)) hskipping
  · rw [if_neg hdestination, if_pos (by rw [hskip]; rfl)]

/-- What holds of the rest of a skipped group at some level holds of it after a control word. -/
theorem skipped_skipWord {n : ℤ} {cs : List Char}
    (hwithin : Within 0 (2 ^ 32) n (cs.map charToken)) (hclosed : n + level (cs.map charToken) = 0)
    (hwords : ∀ front rest, cs = front ++ '\\' :: rest → n + level (front.map charToken) ≠ 0 →
      rest.takeWhile Char.isAlpha ∉ rtfSkipDestinations.map String.toList) :
    (skipWord cs).length ≤ cs.length ∧ Within 0 (2 ^ 32) n ((skipWord cs).map charToken) ∧
      n + level ((skipWord cs).map charToken) = 0 ∧
      ∀ front rest, skipWord cs = front ++ '\\' :: rest → n + level (front.map charToken) ≠ 0 →
        rest.takeWhile Char.isAlpha ∉ rtfSkipDestinations.map String.toList := by
  obtain ⟨word, hword, hlevel⟩ := exists_level_skipWord cs
  refine ⟨?_, ?_, ?_, fun front rest heq hne => ?_⟩
  · have hlength := congrArg List.length hword
    rw [List.length_append] at hlength
    omega
  · rw [hword, List.map_append, within_append, hlevel, add_zero] at hwithin
    exact hwithin.2
  · rwa [hword, List.map_append, level_append, hlevel, zero_add] at hclosed
  · refine hwords (word ++ front) rest ?_ ?_
    · rw [List.append_assoc, ← heq, ← hword]
    · rwa [List.map_append, level_append, hlevel, zero_add]

/-- The scanner at some level of a group that it skips comes to the end of that group. -/
theorem rtfScan_keepsSkipping {g : Int32} {n : ℤ} {s : RtfScan} {cs : List Char}
    (hskip : s.skipDepth = some g) (hfallback : s.fallbackCharsToSkip = 0)
    (hdepth : (s.groupDepth.toInt - g.toInt - n) % 2 ^ 32 = 0)
    (hwithin : Within 0 (2 ^ 32) n (cs.map charToken)) (hclosed : n + level (cs.map charToken) = 0)
    (hwords : ∀ front rest, cs = front ++ '\\' :: rest → n + level (front.map charToken) ≠ 0 →
      rest.takeWhile Char.isAlpha ∉ rtfSkipDestinations.map String.toList) (back : List Char) :
    rtfScan s (cs ++ '\x7d' :: back) =
      rtfScan { s with skipDepth := none, groupDepth := g - 1 } back := by
  induction hlength : cs.length using Nat.strong_induction_on generalizing n s cs with
  | _ m ih =>
    cases cs with
    | nil =>
      rw [List.map_nil, level_nil, add_zero] at hclosed
      have hsame := depth_eq (hclosed ▸ hdepth)
      rw [List.nil_append, rtfScan_cons, turn_close hfallback, if_pos (by rw [hskip, hsame]), hsame]
      rfl
    | cons c cs =>
      rw [List.map_cons, within_cons] at hwithin
      rw [List.map_cons, level_cons, ← add_assoc] at hclosed
      have hlater : ∀ front rest, cs = front ++ '\\' :: rest →
          n + (charToken c).step + level (front.map charToken) ≠ 0 →
            rest.takeWhile Char.isAlpha ∉ rtfSkipDestinations.map String.toList := by
        intro front rest heq hlevel
        refine hwords (c :: front) rest (by rw [heq]; rfl) ?_
        rwa [List.map_cons, level_cons, ← add_assoc]
      have hlt : cs.length < m := hlength ▸ Nat.lt_succ_self _
      obtain rfl | rfl | rfl | hother := charToken_cases c
      · have hnext : ((s.groupDepth + 1).toInt - g.toInt - (n + 1)) % 2 ^ 32 = 0 := by
          rw [toInt_succ]
          split_ifs <;> omega
        rw [List.cons_append, rtfScan_cons, turn_open hfallback]
        exact ih cs.length hlt (s := { s with groupDepth := _ }) hskip
          hfallback hnext hwithin.2 hclosed hlater rfl
      · have hnext : ((s.groupDepth - 1).toInt - g.toInt - (n + -1)) % 2 ^ 32 = 0 := by
          rw [toInt_pred]
          split_ifs <;> omega
        have hne : ¬ s.skipDepth = some s.groupDepth := by
          rw [hskip, Option.some.injEq]
          rintro rfl
          have hstart : 0 ≤ n + -1 ∧ n + -1 < 2 ^ 32 := hwithin.2.start
          omega
        rw [List.cons_append, rtfScan_cons, turn_close hfallback, if_neg hne]
        exact ih cs.length hlt (s := { s with groupDepth := _ }) hskip
          hfallback hnext hwithin.2 hclosed hlater rfl
      · have hnested : s.groupDepth ≠ g →
            cs.takeWhile Char.isAlpha ∉ rtfSkipDestinations.map String.toList := by
          refine fun hne => hwords [] cs rfl fun hzero => hne (depth_eq ?_)
          rw [List.map_nil, level_nil, add_zero] at hzero
          rwa [hzero] at hdepth
        have hstep : n + (charToken '\\').step = n := add_zero n
        rw [hstep] at hlater hclosed hwithin
        obtain ⟨hlength', hwithin', hclosed', hlater'⟩ :=
          skipped_skipWord hwithin.2 hclosed hlater
        rw [List.cons_append, rtfScan_cons, turn_backslash hfallback,
          control_keepsSkipping hskip hnested]
        exact ih (skipWord cs).length (hlength'.trans_lt hlt) hskip hfallback hdepth hwithin'
          hclosed' hlater' rfl
      · have hstep : n + (charToken c).step = n := by rw [hother]; exact add_zero n
        have hskips : ¬ (s.skipDepth = none ∧ ' ' ≤ c) := fun h => by simp [hskip] at h
        rw [hstep] at hlater hclosed hwithin
        rw [List.cons_append, rtfScan_cons, turn_other hfallback hother, if_neg hskips]
        exact ih cs.length hlt hskip hfallback hdepth hwithin.2 hclosed hlater rfl

/-! ### Whether the group is hidden -/

/-- The text that is extracted is the same for all contents of the group that `converter` takes. -/
def Hidden (converter : FormatConverter) (place : GroupPlace) (body : List Char) : Prop :=
  ∀ content, IsContent place.spaced content → byteLen (place.document content) ≤ converter.maxSize →
    converter.rtfToText (encodeUtf8 (place.document content)) =
      converter.rtfToText (encodeUtf8 (place.document body))

/-- A document that is not too long is scanned. -/
theorem FormatConverter.rtfToText_encodeUtf8 {converter : FormatConverter} {document : List Char}
    (h : byteLen document ≤ converter.maxSize) :
    converter.rtfToText (encodeUtf8 document) = .ok (rtfScan .start document) := by
  rw [byteLen] at h
  rw [rtfToText, if_neg (Nat.not_lt.mpr h), decodeUtf8_encodeUtf8]

namespace GroupPlace

variable {place : GroupPlace} {turns : ℕ} {body : List Char}

/-- Other contents are read after what was read before the group. -/
theorem Skipped.rtfScan_document (h : place.Skipped turns body) {content : List Char}
    (hcontent : IsContent place.spaced content) :
    rtfScan .start (place.document content) =
      (rtfTurns turns .start (place.document body)).text ++
        rtfScan (rtfTurns turns .start (place.document body)).scan.skipping
          (content ++ '\x7d' :: place.back) := by
  have hrun : rtfTurns turns .start (place.document content) =
      { rtfTurns turns .start (place.document body) with
        rest := '\\' :: (place.opener ++ (content ++ '\x7d' :: place.back)) } :=
    rtfTurns_append h.reached _
  have hdelimited := hcontent.delimited.imp_right fun hstops => stops_append hstops place.back
  rw [rtfScan_rtfTurns turns, hrun]
  rw [rtfScan_cons, turn_backslash h.settled, control_opening h.opening hdelimited,
    List.nil_append]

/-- An escaped brace and a character. -/
theorem isContent_leak (spaced : Bool) {c : Char} (hc : charToken c = .other) :
    IsContent spaced ['\\', '\x7d', c] := by
  have htokens : ['\\', '\x7d', c].map charToken = [.escape, .closing, .other] := by
    rw [List.map_cons, List.map_cons, List.map_cons, hc]
    rfl
  refine ⟨?_, ?_, Or.inr rfl⟩
  · rw [htokens]
    decide
  · rw [htokens]
    rfl

/-- Two contents of one length that show. -/
theorem Skipped.not_hidden (h : place.Skipped turns body) {converter : FormatConverter}
    (hsize : byteLen (place.document ['\\', '\x7d', 'x']) ≤ converter.maxSize) :
    ¬ Hidden converter place body := by
  intro hhidden
  have hsize' : byteLen (place.document ['\\', '\x7d', 'y']) ≤ converter.maxSize := by
    have hx : 'x'.utf8Size = 'y'.utf8Size := rfl
    simpa only [document, byteLen_append, byteLen_cons, hx] using hsize
  have hx := isContent_leak place.spaced (c := 'x') rfl
  have hy := isContent_leak place.spaced (c := 'y') rfl
  have hsame := (hhidden _ hx hsize).trans (hhidden _ hy hsize').symm
  rw [FormatConverter.rtfToText_encodeUtf8 hsize, FormatConverter.rtfToText_encodeUtf8 hsize',
    Except.ok.injEq, h.rtfScan_document hx, h.rtfScan_document hy,
    List.append_cancel_left_eq] at hsame
  have hleakx := rtfScan_leak h.settled (c := 'x') rfl (by decide) ('\x7d' :: place.back)
  have hleaky := rtfScan_leak h.settled (c := 'y') rfl (by decide) ('\x7d' :: place.back)
  have hheads := hleakx.symm.trans (hsame.trans hleaky)
  exact absurd (List.cons.inj hheads).1 (by decide)

/-- Contents that keep the scanner skipping are not read. -/
theorem Skipped.rtfScan_keepsSkipping (h : place.Skipped turns body) {content : List Char}
    (hcontent : IsContent place.spaced content) (hkeeps : KeepsSkipping content) :
    rtfScan .start (place.document content) =
      (rtfTurns turns .start (place.document body)).text ++
        rtfScan (rtfTurns turns .start (place.document body)).scan.resumed place.back := by
  generalize hscan : (rtfTurns turns .start (place.document body)).scan = s
  have hsettled : s.fallbackCharsToSkip = 0 := hscan ▸ h.settled
  have hdepth : (s.groupDepth.toInt - s.groupDepth.toInt - 0) % 2 ^ 32 = 0 := by
    rw [sub_self, sub_zero, Int.zero_emod]
  have hrest := Clipboard.rtfScan_keepsSkipping (s := s.skipping) rfl hsettled hdepth
    hkeeps.within (by rw [hkeeps.closed, zero_add])
    (fun front rest heq hlevel => hkeeps.words front rest heq (by rwa [zero_add] at hlevel))
    place.back
  rw [h.rtfScan_document hcontent, hscan, hrest]
  rfl

end GroupPlace

/-- **A skipped group leaks.** There is no group, in no document, that hides all contents: an
escaped brace ends it. Contents whose braces balance with the escaped ones, and without destinations
in nested groups, are all hidden.

The converter refuses what is longer than its limit. Where the limit leaves no room for the escaped
brace and the letter behind it, the first part says nothing, and all that is left to compare are
shorter contents. Of two contents that do not both balance, the second part says nothing. -/
theorem skippedGroup_leaks (converter : FormatConverter) {place : GroupPlace} {turns : ℕ}
    {body : List Char} (h : place.Skipped turns body) :
    (byteLen (place.document ['\\', '\x7d', 'x']) ≤ converter.maxSize →
        ¬ Hidden converter place body) ∧
      (KeepsSkipping body → byteLen (place.document body) ≤ converter.maxSize →
        ∀ content, IsContent place.spaced content → KeepsSkipping content →
          byteLen (place.document content) ≤ converter.maxSize →
            converter.rtfToText (encodeUtf8 (place.document content)) =
              converter.rtfToText (encodeUtf8 (place.document body))) := by
  refine ⟨h.not_hidden, fun hbody hsize content hcontent hkeeps hsize' => ?_⟩
  rw [FormatConverter.rtfToText_encodeUtf8 hsize, FormatConverter.rtfToText_encodeUtf8 hsize',
    h.rtfScan_keepsSkipping hcontent hkeeps, h.rtfScan_keepsSkipping h.content hbody]

/-- A document with information about itself. -/
def infoPlace : GroupPlace where
  front := "\x7b\\rtf1\x7b".toList
  opener := "info ".toList
  spaced := true
  back := "y\x7d".toList

theorem skipped_infoPlace : infoPlace.Skipped 3 ['a'] where
  reached := by decide
  settled := by decide
  opening := @Opening.word _ "info".toList [] true (by decide) (List.all_eq_true.mp rfl) rfl
    (Or.inl (by decide))
  content := ⟨by decide, by decide, Or.inl rfl⟩

theorem keepsSkipping_letter {c : Char} (hc : charToken c = .other) : KeepsSkipping [c] where
  within := by
    rw [List.map_singleton, hc, within_cons, within_nil]
    decide
  closed := by
    rw [List.map_singleton, hc]
    rfl
  words := by
    intro front rest heq
    cases front with
    | nil => cases (List.cons.inj heq).1 ▸ hc
    | cons d front => simp at heq

theorem infoPlace_leaks : ¬ Hidden .new infoPlace ['a'] ∧
    FormatConverter.new.rtfToText (encodeUtf8 (infoPlace.document ['b'])) =
      FormatConverter.new.rtfToText (encodeUtf8 (infoPlace.document ['a'])) :=
  ⟨(skippedGroup_leaks .new skipped_infoPlace).1 (by decide),
    (skippedGroup_leaks .new skipped_infoPlace).2 (keepsSkipping_letter rfl) (by decide) ['b']
      ⟨by decide, by decide, Or.inl rfl⟩ (keepsSkipping_letter rfl) (by decide)⟩

/-- An escaped brace, and a nested destination. -/
theorem infoPlace_contents :
    ¬ (∀ place turns body, GroupPlace.Skipped place turns body →
        Hidden FormatConverter.new place body) ∧
      FormatConverter.new.rtfToText (encodeUtf8 (infoPlace.document ['a'])) = .ok ['y'] ∧
      FormatConverter.new.rtfToText (encodeUtf8 (infoPlace.document ['\\', '\x7d', 'x'])) =
        .ok ['x', 'y'] ∧
      FormatConverter.new.rtfToText
          (encodeUtf8 (infoPlace.document "\x7b\\pict a\x7db".toList)) = .ok ['b', 'y'] := by
  refine ⟨fun hall => ?_, by decide +kernel, by decide +kernel, by decide +kernel⟩
  have hhidden := hall infoPlace 3 ['a'] skipped_infoPlace
    ['\\', '\x7d', 'x'] (GroupPlace.isContent_leak true rfl) (by decide)
  exact absurd hhidden (by decide +kernel)

end Clipboard

end Cheirizo
