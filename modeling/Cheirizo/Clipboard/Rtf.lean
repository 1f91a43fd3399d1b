import Cheirizo.Clipboard.Converter

/-!
# Text as RTF

`text_to_rtf` and `rtf_to_text` of `src/rdp/channels/clipboard/core/formats.rs`. The reader is a
scanner over the characters of a document. It keeps the depth of groups and of a group that it
skips, and after a Unicode escape it skips the characters that stand in for it. Here a turn of the
scanner is a function of its state, and what it appends to the result is the turn's text, so what it
makes of an encoded character does not depend on what was read before.

The encoder writes a tab as it is, and the scanner drops every character below a space: the tabs of
a text are lost.

## Main definitions

* `RtfScan`, `RtfScan.turn`, `rtfScan` — the scanner
* `FormatConverter.textToRtf`, `FormatConverter.rtfToText`
* `rtfKept` — the characters that come back

## Main results

* `rtfToText_rtfDocument` — what is read from what the encoder writes
* `rtf_roundTrip_iff` — the round trip, of the texts without a tab
-/

namespace Cheirizo

namespace Clipboard

open Unicode

/-! ### The encoder -/

/-- `unit as i16`. -/
def asI16 (unit : UInt16) : ℤ := if unit.toNat < 0x8000 then unit.toNat else unit.toNat - 0x10000

/-- A unit as a signed number, and a question mark for readers that do not know of it. -/
def rtfUnicode (unit : UInt16) : List Char := '\\' :: 'u' :: (Text.signed (asI16 unit) ++ ['?'])

/-- What the format uses itself is escaped. Other characters are written by their units. -/
def rtfEncodeChar (c : Char) : List Char :=
  if c = '\\' then ['\\', '\\']
  else if c = '{' then ['\\', '{']
  else if c = '}' then ['\\', '}']
  else if c = '\n' then "\\par\n".toList
  else if c = '\r' then []
  else if c.toNat < 0x80 then [c]
  else (encodeUtf16Char c).flatMap rtfUnicode

/-- A document begins with its fonts. -/
def rtfHeader : List Char :=
  "\x7b\\rtf1\\ansi\\deff0\n\x7b\\fonttbl\x7b\\f0\\fswiss\\fcharset0 Arial;\x7d\x7d\n".toList

/-- The document that `text_to_rtf` builds. -/
def rtfDocument (text : List Char) : List Char :=
  rtfHeader ++ (text.flatMap rtfEncodeChar ++ ['}'])

/-- The limit is one on the text, not on the document. -/
def FormatConverter.textToRtf (converter : FormatConverter) (text : List Char) :
    Except ConversionError (List UInt8) :=
  if converter.maxSize < byteLen text then
    .error (.dataSizeExceeded (byteLen text) converter.maxSize)
  else .ok (encodeUtf8 (rtfDocument text))

/-! ### The scanner -/

/-- What the scanner keeps from turn to turn. -/
structure RtfScan where
  /-- The depth at which a skipped group started. -/
  skipDepth : Option Int32
  groupDepth : Int32
  unicodeFallbackCount : ℕ
  fallbackCharsToSkip : ℕ
  pendingHighSurrogate : Option UInt16
  deriving DecidableEq, Repr

/-- What a turn leaves: the state, the text it appends to the result, and the rest of the input. -/
structure RtfTurn where
  scan : RtfScan
  text : List Char
  rest : List Char
  deriving DecidableEq, Repr

/-- Groups that begin with one of these words have no text for the reader. -/
def rtfSkipDestinations : List String :=
  ["fonttbl", "colortbl", "stylesheet", "info", "pict", "header", "footer", "footnote",
    "annotation", "field", "fldinst", "datafield", "docvar", "xe", "tc", "rxe"]

/-- `char::from_u32`, with the replacement character for what is none. -/
def charFromU32 (n : ℕ) : Char := if n.isValidChar then Char.ofNat n else replacement

/-- An optional minus sign and digits, and what follows them. -/
def scanParameter : List Char → List Char × List Char
  | '-' :: cs => ('-' :: cs.takeWhile Char.isDigit, cs.dropWhile Char.isDigit)
  | cs => (cs.takeWhile Char.isDigit, cs.dropWhile Char.isDigit)

/-- What follows the space that ends a control word. -/
def skipSpace : List Char → List Char
  | ' ' :: cs => cs
  | cs => cs

/-- What follows an escape that stands for one fallback character. -/
def skipEscape : List Char → List Char
  | [] => []
  | escaped :: cs =>
    if escaped = '\'' then cs.drop 2
    else if escaped.isAlpha then skipSpace (scanParameter (cs.dropWhile Char.isAlpha)).2
    else cs

namespace RtfScan

/-- Outside of all groups. A unit has one character to skip behind it. -/
def start : RtfScan where
  skipDepth := none
  groupDepth := 0
  unicodeFallbackCount := 1
  fallbackCharsToSkip := 0
  pendingHighSurrogate := none

variable (s : RtfScan)

/-- The replacement character, if a high surrogate waits in vain. -/
def lostSurrogate : List Char := if s.pendingHighSurrogate.isSome then [replacement] else []

/-- The control word `u` with its value. -/
def unicode (value : ℤ) : RtfScan × List Char :=
  let unit := UInt16.ofNat (value % 0x10000).toNat
  let next := { s with fallbackCharsToSkip := s.unicodeFallbackCount }
  if isHighSurrogate unit then
    ({ next with pendingHighSurrogate := some unit }, s.lostSurrogate)
  else if isLowSurrogate unit then
    match s.pendingHighSurrogate with
    | some high => ({ next with pendingHighSurrogate := none },
        [charFromU32 (0x10000 + (high.toNat - 0xD800) * 1024 + (unit.toNat - 0xDC00))])
    | none => (next, [replacement])
  else ({ next with pendingHighSurrogate := none }, s.lostSurrogate ++ [charFromU32 unit.toNat])

/-- A backslash that no control word follows. -/
def escaped : List Char → RtfTurn
  | [] => ⟨s, [], []⟩
  | c :: rest =>
    if c = '\\' ∨ c = '{' ∨ c = '}' then ⟨s, [c], rest⟩
    else if c = '\'' then
      match rest with
      | a :: b :: rest => ⟨s, ((hexByte a b).map windows1252ToChar).toList, rest⟩
      | [a] => ⟨s, ((hexDigit a).map fun n => windows1252ToChar (UInt8.ofNat n)).toList, []⟩
      | [] => ⟨s, [], []⟩
    else if c = '*' then ⟨{ s with skipDepth := some s.groupDepth }, [], rest⟩
    else ⟨s, [], rest⟩

/-- What follows a backslash. -/
def control (cs : List Char) : RtfTurn :=
  let word := cs.takeWhile Char.isAlpha
  let digits := scanParameter (cs.dropWhile Char.isAlpha)
  let parameter := Text.parseSigned (2 ^ 31) digits.1
  let rest := skipSpace digits.2
  if (rtfSkipDestinations.map String.toList).contains word then
    ⟨{ s with skipDepth := some s.groupDepth }, [], rest⟩
  else if s.skipDepth.isSome then ⟨s, [], rest⟩
  else if word = "par".toList ∨ word = "line".toList then ⟨s, ['\n'], rest⟩
  else if word = "tab".toList then ⟨s, ['\t'], rest⟩
  else if word = "uc".toList then
    match parameter.filter fun value => 0 ≤ value with
    | some value => ⟨{ s with unicodeFallbackCount := value.toNat }, [], rest⟩
    | none => ⟨s, [], rest⟩
  else if word = "u".toList then
    match parameter with
    | some value => ⟨(s.unicode value).1, (s.unicode value).2, rest⟩
    | none => ⟨s, [], rest⟩
  else if word = [] then s.escaped rest
  else ⟨s, [], rest⟩

/-- One turn of the loop. -/
def turn (c : Char) (cs : List Char) : RtfTurn :=
  if 0 < s.fallbackCharsToSkip then
    ⟨{ s with fallbackCharsToSkip := s.fallbackCharsToSkip - 1 }, [],
      if c = '\\' then skipEscape cs else cs⟩
  else if c = '{' then ⟨{ s with groupDepth := s.groupDepth + 1 }, [], cs⟩
  else if c = '}' then
    ⟨{ s with
        skipDepth := if s.skipDepth = some s.groupDepth then none else s.skipDepth
        groupDepth := s.groupDepth - 1 }, [], cs⟩
  else if c = '\\' then s.control cs
  else ⟨s, if s.skipDepth = none ∧ ' ' ≤ c then [c] else [], cs⟩

end RtfScan

/-- The loop, with a number of turns it may take. -/
def rtfLoop : ℕ → RtfScan → List Char → List Char
  | _, s, [] => s.lostSurrogate
  | 0, _, _ :: _ => []
  | n + 1, s, c :: cs =>
    (s.turn c cs).text ++ rtfLoop n (s.turn c cs).scan (s.turn c cs).rest

/-- The loop. A turn takes a character at least, so there are no more turns than characters. -/
def rtfScan (s : RtfScan) (cs : List Char) : List Char := rtfLoop cs.length s cs

/-- The limit is one on the document. -/
def FormatConverter.rtfToText (converter : FormatConverter) (data : List UInt8) :
    Except ConversionError (List Char) :=
  if converter.maxSize < data.length then
    .error (.dataSizeExceeded data.length converter.maxSize)
  else
    match decodeUtf8 data with
    | none => .error .invalidUtf8
    | some text => .ok (rtfScan .start text)

/-! ### The turns suffice -/

theorem length_skipSpace_le (cs : List Char) : (skipSpace cs).length ≤ cs.length := by
  rw [skipSpace.eq_def]
  split
  · exact Nat.le_succ _
  · exact Nat.le_refl _

theorem length_dropWhile_le (p : Char → Bool) (cs : List Char) :
    (cs.dropWhile p).length ≤ cs.length :=
  (List.dropWhile_sublist p).length_le

/-- A parameter only takes away from the text. -/
theorem length_scanParameter_le (cs : List Char) : (scanParameter cs).2.length ≤ cs.length := by
  rw [scanParameter.eq_def]
  split
  · exact Nat.le_succ_of_le (length_dropWhile_le _ _)
  · exact length_dropWhile_le _ _

theorem length_skipWord_le (cs : List Char) :
    (skipSpace (scanParameter (cs.dropWhile Char.isAlpha)).2).length ≤ cs.length :=
  calc (skipSpace (scanParameter (cs.dropWhile Char.isAlpha)).2).length
      ≤ (scanParameter (cs.dropWhile Char.isAlpha)).2.length := length_skipSpace_le _
    _ ≤ (cs.dropWhile Char.isAlpha).length := length_scanParameter_le _
    _ ≤ cs.length := length_dropWhile_le _ _

theorem length_skipEscape_le (cs : List Char) : (skipEscape cs).length ≤ cs.length := by
  cases cs with
  | nil => exact Nat.le_refl _
  | cons c cs =>
    rw [skipEscape, List.length_cons]
    split_ifs
    · rw [List.length_drop]
      omega
    · exact Nat.le_succ_of_le (length_skipWord_le cs)
    · exact Nat.le_succ _

namespace RtfScan

theorem length_escaped_le (s : RtfScan) (cs : List Char) :
    (s.escaped cs).rest.length ≤ cs.length := by
  rw [escaped.eq_def]
  split
  · exact Nat.le_refl _
  · rw [List.length_cons]
    split_ifs
    · exact Nat.le_succ _
    · split <;> simp only [List.length_cons, List.length_nil] <;> omega
    · exact Nat.le_succ _
    · exact Nat.le_succ _

/-- So does a control word. -/
theorem length_control_le (s : RtfScan) (cs : List Char) :
    (s.control cs).rest.length ≤ cs.length := by
  have hrest := length_skipWord_le cs
  rw [control]
  split_ifs <;> try exact hrest
  · split <;> exact hrest
  · split <;> exact hrest
  · exact Nat.le_trans (s.length_escaped_le _) hrest

/-- So does a turn, and there are no more turns than characters. -/
theorem length_turn_le (s : RtfScan) (c : Char) (cs : List Char) :
    (s.turn c cs).rest.length ≤ cs.length := by
  rw [turn]
  split_ifs <;> try exact Nat.le_refl _
  · exact length_skipEscape_le cs
  · exact s.length_control_le cs

end RtfScan

/-- As many turns as characters are enough. -/
theorem rtfLoop_eq_rtfScan {n : ℕ} {cs : List Char} (h : cs.length ≤ n) (s : RtfScan) :
    rtfLoop n s cs = rtfScan s cs := by
  rw [rtfScan]
  generalize hm : cs.length = m at h
  replace hm : cs.length ≤ m := Nat.le_of_eq hm
  induction n generalizing m cs s with
  | zero =>
    cases cs with
    | nil => cases m <;> rfl
    | cons c cs => simp at hm; omega
  | succ n ih =>
    cases cs with
    | nil => cases m <;> rfl
    | cons c cs =>
      obtain ⟨m, rfl⟩ : ∃ k, m = k + 1 := ⟨m - 1, by simp at hm; omega⟩
      rw [List.length_cons] at hm
      have hturn := s.length_turn_le c cs
      rw [rtfLoop, rtfLoop, ih _ m (by omega) (by omega)]

/-- The scanner, turn by turn. -/
theorem rtfScan_cons (s : RtfScan) (c : Char) (cs : List Char) :
    rtfScan s (c :: cs) = (s.turn c cs).text ++ rtfScan (s.turn c cs).scan (s.turn c cs).rest := by
  rw [← rtfLoop_eq_rtfScan (s.length_turn_le c cs)]
  rfl

/-! ### Reading what was encoded -/

namespace RtfScan

/-- In the document's own group, with nothing pending. -/
def ready : RtfScan := { start with groupDepth := 1 }

end RtfScan

/-- The header leaves no text, and the scanner ready. -/
theorem rtfScan_rtfHeader (cs : List Char) :
    rtfScan .start (rtfHeader ++ cs) = rtfScan .ready cs := by
  have hheader : rtfHeader = ['{', '\\', 'r', 't', 'f', '1', '\\', 'a', 'n', 's', 'i', '\\', 'd',
      'e', 'f', 'f', '0', '\n', '{', '\\', 'f', 'o', 'n', 't', 't', 'b', 'l', '{', '\\', 'f', '0',
      '\\', 'f', 's', 'w', 'i', 's', 's', '\\', 'f', 'c', 'h', 'a', 'r', 's', 'e', 't', '0', ' ',
      'A', 'r', 'i', 'a', 'l', ';', '}', '}', '\n'] := rfl
  rw [hheader]
  simp [rtfScan_cons, RtfScan.turn, RtfScan.control, RtfScan.start, RtfScan.ready, scanParameter,
    skipSpace, rtfSkipDestinations]

/-- A digit is no letter. -/
theorem isAlpha_of_isDigit {c : Char} (h : c.isDigit = true) : c.isAlpha = false := by
  obtain ⟨-, hnine⟩ := Char.isDigit_iff_toNat.mp h
  change c.val.toNat ≤ 57 at hnine
  rw [← Bool.not_eq_true]
  delta Char.isAlpha Char.isUpper Char.isLower
  simp only [Bool.and_eq_true, Bool.or_eq_true, decide_eq_true_eq, ge_iff_le,
    UInt32.le_iff_toNat_le, Char.reduceVal, UInt32.reduceToNat]
  omega

/-- A number starts with no letter. -/
theorem signed_eq_cons (n : ℤ) : ∃ d ds, Text.signed n = d :: ds ∧ ¬ d.isAlpha = true := by
  rw [Text.signed]
  split_ifs
  · exact ⟨_, _, rfl, by decide⟩
  · obtain ⟨d, ds, hd⟩ := List.exists_cons_of_ne_nil (Text.padded_ne_nil 0 n.natAbs)
    have hmem : d ∈ Text.padded 0 n.natAbs := hd ▸ List.mem_cons_self
    exact ⟨d, ds, hd, ne_true_of_eq_false (isAlpha_of_isDigit (Text.isDigit_of_mem_padded hmem))⟩

/-- A number is read up to the first character that is not part of it. -/
theorem scanParameter_signed (n : ℤ) (cs : List Char) :
    scanParameter (Text.signed n ++ '?' :: cs) = (Text.signed n, '?' :: cs) := by
  have hdigits : ∀ m : ℕ, ∀ c ∈ Text.padded 0 m, c.isDigit = true :=
    fun m c hc => Text.isDigit_of_mem_padded hc
  have htake : ∀ m : ℕ, (Text.padded 0 m ++ '?' :: cs).takeWhile Char.isDigit =
      Text.padded 0 m := by
    intro m
    rw [List.takeWhile_append_of_pos (hdigits m), List.takeWhile_cons_of_neg (by decide),
      List.append_nil]
  have hdrop : ∀ m : ℕ, (Text.padded 0 m ++ '?' :: cs).dropWhile Char.isDigit = '?' :: cs := by
    intro m
    rw [List.dropWhile_append_of_pos (hdigits m), List.dropWhile_cons_of_neg (by decide)]
  rw [Text.signed]
  split_ifs
  · rw [List.cons_append, scanParameter, htake, hdrop]
  · obtain ⟨d, ds, hd⟩ := List.exists_cons_of_ne_nil (Text.padded_ne_nil 0 n.natAbs)
    have hne : ∀ rest, Text.padded 0 n.natAbs ++ '?' :: cs ≠ '-' :: rest := by
      intro rest hrest
      rw [hd, List.cons_append] at hrest
      cases hrest
      exact absurd (hdigits n.natAbs '-' (hd ▸ List.mem_cons_self)) (by decide)
    rw [scanParameter.eq_2 _ hne, htake, hdrop]

namespace RtfScan

variable {s : RtfScan}

/-- A Unicode escape is a number and its stand-in. -/
theorem control_unicode (hskip : s.skipDepth = none) {n : ℤ} (hmin : -(2 ^ 31 : ℕ) ≤ n)
    (hmax : n < (2 ^ 31 : ℕ)) (cs : List Char) :
    s.control ('u' :: (Text.signed n ++ '?' :: cs)) =
      ⟨(s.unicode n).1, (s.unicode n).2, '?' :: cs⟩ := by
  obtain ⟨d, ds, hd, halpha⟩ := signed_eq_cons n
  have hword : ('u' :: (Text.signed n ++ '?' :: cs)).takeWhile Char.isAlpha = ['u'] := by
    rw [List.takeWhile_cons_of_pos (by decide), hd, List.cons_append,
      List.takeWhile_cons_of_neg halpha]
  have hrest : ('u' :: (Text.signed n ++ '?' :: cs)).dropWhile Char.isAlpha =
      Text.signed n ++ '?' :: cs := by
    rw [List.dropWhile_cons_of_pos (by decide), hd, List.cons_append,
      List.dropWhile_cons_of_neg halpha]
  rw [control]
  simp only [hword, hrest, scanParameter_signed, Text.parseSigned_signed hmin hmax, hskip]
  rfl

/-- A Unicode escape and its fallback character. -/
theorem rtfScan_rtfUnicode (hskip : s.skipDepth = none) (hfallback : s.fallbackCharsToSkip = 0)
    (hcount : s.unicodeFallbackCount = 1) (unit : UInt16) (cs : List Char) :
    rtfScan s (rtfUnicode unit ++ cs) = (s.unicode (asI16 unit)).2 ++
      rtfScan { (s.unicode (asI16 unit)).1 with fallbackCharsToSkip := 0 } cs := by
  have hunit := unit.toNat_lt
  have hmin : -(2 ^ 31 : ℕ) ≤ asI16 unit ∧ asI16 unit < (2 ^ 31 : ℕ) := by
    rw [asI16]
    split_ifs <;> omega
  have hnext : (s.unicode (asI16 unit)).1.fallbackCharsToSkip = 1 := by
    rw [unicode]
    split_ifs
    · exact hcount
    · split <;> exact hcount
    · exact hcount
  rw [rtfUnicode, List.cons_append, List.cons_append, List.append_assoc, List.singleton_append,
    rtfScan_cons, turn, if_neg (by omega), if_neg (by decide), if_neg (by decide), if_pos rfl,
    control_unicode hskip hmin.1 hmin.2, rtfScan_cons, turn,
    if_pos (show 0 < (s.unicode (asI16 unit)).1.fallbackCharsToSkip by omega),
    if_neg (by decide)]
  simp only [hnext]
  rfl

/-- A unit is written as a signed number and read back. -/
theorem unit_asI16 (unit : UInt16) :
    UInt16.ofNat (asI16 unit % 0x10000).toNat = unit := by
  have hunit := unit.toNat_lt
  have hvalue : (asI16 unit % 0x10000).toNat = unit.toNat := by
    rw [asI16]
    split_ifs <;> omega
  rw [hvalue, UInt16.ofNat_toNat]

theorem charFromU32_toNat (c : Char) : charFromU32 c.toNat = c := by
  have hvalid : c.toNat.isValidChar := c.valid
  rw [charFromU32, if_pos hvalid, Char.ofNat_toNat]

/-- A character beyond ASCII is read back from its units, of which there may be two. -/
theorem rtfScan_encodeUtf16Char (c : Char) (cs : List Char) :
    rtfScan ready ((encodeUtf16Char c).flatMap rtfUnicode ++ cs) = c :: rtfScan ready cs := by
  have hv := toNat_valid c
  rw [encodeUtf16Char]
  split_ifs with hc
  · have hunit : (UInt16.ofNat c.toNat).toNat = c.toNat := toNat_unit hc
    have hhigh : isHighSurrogate (UInt16.ofNat c.toNat) = false := by
      rw [← Bool.not_eq_true, isHighSurrogate_iff, hunit]
      omega
    have hlow : isLowSurrogate (UInt16.ofNat c.toNat) = false := by
      rw [← Bool.not_eq_true, isLowSurrogate_iff, hunit]
      omega
    rw [List.flatMap_singleton, rtfScan_rtfUnicode rfl rfl rfl, unicode, unit_asI16]
    simp only [hhigh, hlow, hunit, charFromU32_toNat]
    rfl
  · generalize hhi : UInt16.ofNat (0xD800 + (c.toNat - 0x10000) / 1024) = high
    generalize hlo : UInt16.ofNat (0xDC00 + (c.toNat - 0x10000) % 1024) = low
    have hhigh : high.toNat = 0xD800 + (c.toNat - 0x10000) / 1024 := by
      rw [← hhi, toNat_unit (by omega)]
    have hlow : low.toNat = 0xDC00 + (c.toNat - 0x10000) % 1024 := by
      rw [← hlo, toNat_unit (by omega)]
    have hfirst : ready.unicode (asI16 high) =
        ({ ready with fallbackCharsToSkip := 1, pendingHighSurrogate := some high }, []) := by
      rw [unicode, unit_asI16, if_pos ((isHighSurrogate_iff high).mpr (by omega))]
      rfl
    have hsecond : ({ ready with pendingHighSurrogate := some high } : RtfScan).unicode
        (asI16 low) = ({ ready with fallbackCharsToSkip := 1 }, [c]) := by
      have hpair : 0x10000 + (high.toNat - 0xD800) * 1024 + (low.toNat - 0xDC00) = c.toNat := by
        omega
      rw [unicode, unit_asI16, if_neg (by rw [isHighSurrogate_iff]; omega),
        if_pos ((isLowSurrogate_iff low).mpr (by omega))]
      simp only [hpair, charFromU32_toNat]
      rfl
    rw [List.flatMap_cons, List.flatMap_singleton, List.append_assoc,
      rtfScan_rtfUnicode rfl rfl rfl, hfirst]
    show [] ++ rtfScan { ready with pendingHighSurrogate := some high } _ = _
    rw [List.nil_append, rtfScan_rtfUnicode rfl rfl rfl, hsecond]
    rfl

end RtfScan

/-- What the scanner keeps of a text: everything but controls, and line feeds. -/
def rtfKept (c : Char) : Bool := c = '\n' || ' ' ≤ c

/-- Each encoded character is read back, or dropped. -/
theorem rtfScan_rtfEncodeChar (c : Char) (cs : List Char) :
    rtfScan .ready (rtfEncodeChar c ++ cs) =
      (if rtfKept c then [c] else []) ++ rtfScan .ready cs := by
  -- A backslash and a brace are escaped, and nothing after them is looked at.
  have hescape : ∀ d, d = '\\' ∨ d = '{' ∨ d = '}' →
      rtfScan .ready ('\\' :: d :: cs) = d :: rtfScan .ready cs := by
    rintro d (rfl | rfl | rfl) <;>
      simp [rtfScan_cons, RtfScan.turn, RtfScan.control, RtfScan.escaped, RtfScan.ready,
        RtfScan.start, scanParameter, skipSpace, rtfSkipDestinations]
  by_cases hspecial : c = '\\' ∨ c = '{' ∨ c = '}'
  · have hkept : rtfKept c = true := by
      obtain rfl | rfl | rfl := hspecial <;> decide
    have hencode : rtfEncodeChar c = ['\\', c] := by
      obtain rfl | rfl | rfl := hspecial <;> rfl
    rw [hencode, hkept, if_pos rfl]
    exact hescape c hspecial
  · obtain ⟨hbackslash, hopen, hclose⟩ : c ≠ '\\' ∧ c ≠ '{' ∧ c ≠ '}' := by
      simpa only [not_or] using hspecial
    rw [rtfEncodeChar, if_neg hbackslash, if_neg hopen, if_neg hclose]
    by_cases hnewline : c = '\n'
    · subst hnewline
      rw [if_pos rfl, if_pos (by decide)]
      have hpar : "\\par\n".toList = ['\\', 'p', 'a', 'r', '\n'] := rfl
      rw [hpar]
      simp [rtfScan_cons, RtfScan.turn, RtfScan.control, RtfScan.ready, RtfScan.start,
        scanParameter, skipSpace, rtfSkipDestinations]
    · rw [if_neg hnewline]
      by_cases hreturn : c = '\r'
      · subst hreturn
        rfl
      · rw [if_neg hreturn]
        have hkept : rtfKept c = decide (' ' ≤ c) := by
          rw [rtfKept, decide_eq_false hnewline, Bool.false_or]
        have hspace : ' ' ≤ c ↔ 0x20 ≤ c.toNat := by
          rw [Char.le_def, UInt32.le_iff_toNat_le]
          rfl
        by_cases hascii : c.toNat < 0x80
        · rw [if_pos hascii, List.singleton_append, rtfScan_cons, RtfScan.turn,
            if_neg (by decide), if_neg hopen, if_neg hclose, if_neg hbackslash, hkept]
          simp only [RtfScan.ready, RtfScan.start, true_and, decide_eq_true_eq]
        · rw [if_neg hascii, RtfScan.rtfScan_encodeUtf16Char, hkept,
            if_pos (by rw [decide_eq_true_eq, hspace]; omega), List.singleton_append]

/-- By induction on the text; the scanner is ready after every character. -/
theorem rtfScan_flatMap (text cs : List Char) :
    rtfScan .ready (text.flatMap rtfEncodeChar ++ cs) =
      text.filter rtfKept ++ rtfScan .ready cs := by
  induction text with
  | nil => rfl
  | cons c text ih =>
    rw [List.flatMap_cons, List.append_assoc, rtfScan_rtfEncodeChar, ih, ← List.append_assoc,
      List.filter_cons]
    split_ifs <;> rfl

/-- What is read from a document is the text it was made from, without controls other than line
feeds. -/
theorem rtfScan_rtfDocument (text : List Char) :
    rtfScan .start (rtfDocument text) = text.filter rtfKept := by
  have hclose : rtfScan .ready ['}'] = [] := by decide
  rw [rtfDocument, rtfScan_rtfHeader, rtfScan_flatMap, hclose, List.append_nil]

/-- What is read from what the encoder writes, if it is not too long. -/
theorem FormatConverter.rtfToText_rtfDocument {converter : FormatConverter} {text : List Char}
    (hsize : byteLen (rtfDocument text) ≤ converter.maxSize) :
    converter.rtfToText (encodeUtf8 (rtfDocument text)) = .ok (text.filter rtfKept) := by
  rw [byteLen] at hsize
  rw [rtfToText, if_neg (Nat.not_lt.mpr hsize), decodeUtf8_encodeUtf8]
  dsimp only
  rw [rtfScan_rtfDocument]

/-! ### The round trip -/

/-- The text comes back without its carriage returns. -/
def RtfRoundTrips (converter : FormatConverter) (text : List Char) : Prop :=
  (converter.textToRtf text).bind converter.rtfToText = .ok (text.filter (· ≠ '\r'))

/-- **Tabs are lost.** Of the texts whose controls are tabs and line breaks and whose document is
not too large, those without a tab come back, if they are not too large themselves. -/
theorem rtf_roundTrip_iff {converter : FormatConverter} {text : List Char}
    (hcontrols : ∀ c ∈ text, isControl c = true → c = '\t' ∨ c = '\n' ∨ c = '\r')
    (hsize : byteLen (rtfDocument text) ≤ converter.maxSize) :
    RtfRoundTrips converter text ↔ '\t' ∉ text ∧ byteLen text ≤ converter.maxSize := by
  have hread := FormatConverter.rtfToText_rtfDocument hsize
  rw [RtfRoundTrips, FormatConverter.textToRtf]
  split_ifs with htext
  · exact iff_of_false nofun fun h => absurd h.2 (Nat.not_le.mpr htext)
  · rw [Except.bind, hread, and_iff_left (Nat.not_lt.mp htext), Except.ok.injEq]
    constructor
    · intro h htab
      have hmem : '\t' ∈ text.filter (· ≠ '\r') := List.mem_filter.mpr ⟨htab, by decide⟩
      rw [← h, List.mem_filter] at hmem
      exact absurd hmem.2 (by decide)
    · intro htab
      refine List.filter_congr fun c hc => ?_
      by_cases hcontrol : isControl c = true
      · obtain rfl | rfl | rfl := hcontrols c hc hcontrol
        · exact absurd hc htab
        · rfl
        · rfl
      · have hreturn : c ≠ '\r' := by
          rintro rfl
          exact hcontrol (by decide)
        have hspace : ' ' ≤ c := by
          rw [isControl] at hcontrol
          rw [Char.le_def, UInt32.le_iff_toNat_le]
          show 0x20 ≤ c.toNat
          simp only [Bool.or_eq_true, decide_eq_true_eq, not_or] at hcontrol
          omega
        rw [rtfKept, decide_eq_true hspace, Bool.or_true, decide_eq_true hreturn]

/-- A text that looks like control words, with characters of every plane. -/
def controlWords : List Char := "\\par\x7b\\u8364?\x7d\r\n-5 €😀".toList

theorem controlWords_roundTrip : RtfRoundTrips .new controlWords := by
  have hall : (controlWords.all fun c =>
      !isControl c || c = '\t' || c = '\n' || c = '\r') = true := by decide +kernel
  refine (rtf_roundTrip_iff (fun c hc hcontrol => ?_) (by decide +kernel)).mpr (by decide +kernel)
  simpa [hcontrol, or_assoc] using List.all_eq_true.mp hall c hc

/-- A single tab is read back as nothing. -/
theorem tab_lost : byteLen (rtfDocument ['\t']) ≤ FormatConverter.new.maxSize ∧
    ¬ RtfRoundTrips .new ['\t'] := by
  refine ⟨by decide +kernel, ?_⟩
  rw [RtfRoundTrips]
  decide +kernel

end Clipboard

end Cheirizo
