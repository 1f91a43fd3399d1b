import Cheirizo.Clipboard.Answers
import Cheirizo.Clipboard.Converter
import Cheirizo.Clipboard.Names
import Cheirizo.Clipboard.Policy
import Mathlib.Data.List.Forall2
import Mathlib.Data.List.TakeWhile

/-!
# Text between the two sides

Which text arrives when a selection with text is pasted on the other side. A client's format says
how its text is encoded, but an answer is decoded by the MIME type it was requested for, as UTF-16
whatever the format; and a local text is encoded for `CF_UNICODETEXT` only, and passed on as it is
under every other format with text.

## Line endings

A text has LF on the local side and CRLF on the other, so each direction is compared up to this
translation.

## Main definitions

* `Encoded` — what a client sends for a text, by the format that was looked up
* `Intelligible`, `Presentable` — when the text survives

## Main results

* `text_survives_iff` — in either direction, exactly then
-/

namespace Cheirizo

namespace Clipboard

open Unicode

/-! ### Line endings -/

/-- The translation takes away and adds line endings only. -/
theorem filter_convertLineEndingsToUnix {p : Char → Bool} (hp : p '\r' = false) (cs : List Char) :
    (convertLineEndingsToUnix cs).filter p = cs.filter p := by
  fun_induction convertLineEndingsToUnix cs with
  | case1 rest ih =>
    have hcr : ¬ p '\r' = true := by simp [hp]
    rw [List.filter_cons_of_neg hcr]
    cases hlf : p '\n' with
    | true => rw [List.filter_cons_of_pos hlf, List.filter_cons_of_pos hlf, ih]
    | false =>
      have hlf' : ¬ p '\n' = true := by simp [hlf]
      rw [List.filter_cons_of_neg hlf', List.filter_cons_of_neg hlf', ih]
  | case2 c rest hne ih => rw [List.filter_cons, List.filter_cons, ih]
  | case3 => rfl

/-- The other characters stay. -/
theorem mem_convertLineEndingsToUnix {c : Char} (hcr : c ≠ '\r') (cs : List Char) :
    c ∈ convertLineEndingsToUnix cs ↔ c ∈ cs := by
  have hmem : ∀ ds : List Char, c ∈ ds.filter (· == c) ↔ c ∈ ds := by simp
  rw [← hmem, filter_convertLineEndingsToUnix (by simpa using hcr.symm), hmem]

/-- A character that is no carriage return is passed on as it is. -/
theorem convertLineEndingsToUnix_cons {c : Char} (hcr : c ≠ '\r') (cs : List Char) :
    convertLineEndingsToUnix (c :: cs) = c :: convertLineEndingsToUnix cs := by
  rw [convertLineEndingsToUnix]
  intro rest h
  exact absurd h hcr

/-- The first character of a text is still the first, unless it began a line break. -/
theorem head?_convertLineEndingsToUnix (c : Char) (cs : List Char) :
    (convertLineEndingsToUnix (c :: cs)).head? = some c ∨
      (convertLineEndingsToUnix (c :: cs)).head? = some '\n' := by
  rw [convertLineEndingsToUnix.eq_def]
  split
  · exact Or.inr rfl
  · rename_i heq
    cases heq
    exact Or.inl rfl
  · rename_i heq
    cases heq

/-- Zeros are taken out. -/
theorem zero_notMem_sanitizeTextForLinux (cs : List Char) : '\x00' ∉ sanitizeTextForLinux cs := by
  simp [sanitizeTextForLinux]

/-- Nothing else is. -/
theorem sanitizeTextForLinux_eq {cs : List Char} (h : '\x00' ∉ cs) :
    sanitizeTextForLinux cs = convertLineEndingsToUnix cs := by
  rw [sanitizeTextForLinux, List.filter_eq_self]
  intro c hc
  rw [decide_eq_true_eq]
  rintro rfl
  exact h ((mem_convertLineEndingsToUnix (by decide) cs).mp hc)

theorem filter_nonAscii_sanitizeTextForLinux (cs : List Char) :
    (sanitizeTextForLinux cs).filter nonAscii = cs.filter nonAscii := by
  rw [sanitizeTextForLinux, List.filter_filter,
    ← filter_convertLineEndingsToUnix (p := nonAscii) rfl]
  refine List.filter_congr fun c _ => ?_
  by_cases hc : c = '\x00'
  · rw [hc]
    rfl
  · simp [hc]

/-- Carriage returns are all that Windows line endings add. -/
theorem filter_convertLineEndingsToWindows {p : Char → Bool} (hp : p '\r' = false)
    (cs : List Char) : (convertLineEndingsToWindows cs).filter p = cs.filter p := by
  rw [← filter_convertLineEndingsToUnix hp cs, convertLineEndingsToWindows]
  induction convertLineEndingsToUnix cs with
  | nil => rfl
  | cons c cs ih =>
    rw [List.flatMap_cons, List.filter_append, ih, ← List.singleton_append (l := cs),
      List.filter_append]
    split_ifs with hlf
    · rw [hlf, List.filter_cons_of_neg (by simp [hp])]
    · rfl

/-- In this direction too the other characters stay. -/
theorem count_convertLineEndingsToWindows {c : Char} (hcr : c ≠ '\r') (cs : List Char) :
    (convertLineEndingsToWindows cs).count c = cs.count c := by
  rw [List.count_eq_length_filter, List.count_eq_length_filter,
    filter_convertLineEndingsToWindows (by simpa using hcr.symm)]

theorem mem_convertLineEndingsToWindows {c : Char} (hcr : c ≠ '\r') (cs : List Char) :
    c ∈ convertLineEndingsToWindows cs ↔ c ∈ cs := by
  rw [← List.count_pos_iff, count_convertLineEndingsToWindows hcr, List.count_pos_iff]

/-- Here the translation only adds. -/
theorem sublist_convertLineEndingsToWindows (cs : List Char) :
    cs.Sublist (convertLineEndingsToWindows cs) := by
  rw [convertLineEndingsToWindows]
  fun_induction convertLineEndingsToUnix cs with
  | case1 rest ih => exact (ih.cons_cons '\n').cons_cons '\r'
  | case2 c rest hne ih =>
    rw [List.flatMap_cons]
    split_ifs with hlf
    · rw [hlf]
      exact (ih.cons_cons '\n').cons '\r'
    · exact ih.cons_cons c
  | case3 => exact List.Sublist.refl _

/-- So a text without new carriage returns is unchanged. -/
theorem convertLineEndingsToWindows_eq_self {cs : List Char}
    (h : (convertLineEndingsToWindows cs).count '\r' ≤ cs.count '\r') :
    convertLineEndingsToWindows cs = cs := by
  have hfilter : (convertLineEndingsToWindows cs).filter (· ≠ '\r') = cs.filter (· ≠ '\r') :=
    filter_convertLineEndingsToWindows (by decide) cs
  have hlength : ∀ ds : List Char, ds.length = ds.count '\r' + (ds.filter (· ≠ '\r')).length := by
    intro ds
    rw [← List.countP_eq_length_filter, List.count, List.length_eq_countP_add_countP (· == '\r')]
    congr 2
    funext c
    simp
  refine (sublist_convertLineEndingsToWindows cs).eq_of_length_le ?_ |>.symm
  rw [hlength, hlength cs, hfilter]
  omega

/-! ### What a client sends -/

/-- Text in a code page, with a terminator. -/
def CodePage.Encoded (page : CodePage) (data : List UInt8) (text : List Char) : Prop :=
  ∃ bytes, data = bytes ++ [0] ∧ bytes.map page = text

/-- An HTML document: after its header, which names the fragment, and with a terminator at most. -/
structure CfHtml (data : List UInt8) (text : List Char) : Prop where
  decodes : FormatConverter.cfHtmlToHtml data = .ok text
  parts : ∃ header rest terminator, data =
      encodeUtf8 "Version:".toList ++ header ++ encodeUtf8 text ++ rest ++ terminator ∧
    0 ∉ header ∧ 0 ∉ rest ∧ (terminator = [] ∨ terminator = [0])

/-- The answer `data` is what the format that was looked up for the MIME type prescribes for
`text`. -/
def Encoded (mime : String) (formatId : UInt32) (data : List UInt8) (text : List Char) : Prop :=
  if mime = "text/html" then CfHtml data text
  else if formatId = cfUnicodetext then data = (encodeUtf16 text).flatMap u16ToLe ++ [0, 0]
  else if formatId = cfText then windows1252ToChar.Encoded data text
  else cp437ToChar.Encoded data text

/-- A text that arrives: in UTF-16 without a zero, or a single character that both encodings have at
the same place. -/
def Intelligible (mime : String) (formatId : UInt32) (data : List UInt8) (text : List Char) :
    Prop :=
  mime ≠ "text/html" ∧
    if formatId = cfUnicodetext then '\x00' ∉ text
    else ∃ b, b ≠ 0 ∧ data = [b, 0] ∧ text = [Char.ofNat b.toNat]

/-- What the source takes to be UTF-16. -/
def isTextMime (mime : String) : Bool := startsWith "text/plain" mime || startsWith "text/html" mime

/-- The formats that are offered as text. -/
theorem rdpFormatToMime_eq_text {formatId : UInt32} {mime : String} (htext : isTextMime mime = true)
    (h : rdpFormatToMime formatId = some mime) :
    mime = "text/plain;charset=utf-8" ∧ (formatId = 13 ∨ formatId = 1 ∨ formatId = 7) ∨
      mime = "text/html" ∧ formatId = cfHtml := by
  rcases ite_eq_iff.mp h with ⟨hplain, h⟩ | ⟨-, h⟩
  · exact Or.inl ⟨(Option.some.inj h).symm, hplain⟩
  rcases ite_eq_iff.mp h with ⟨hhtml, h⟩ | ⟨-, h⟩
  · exact Or.inr ⟨(Option.some.inj h).symm, hhtml⟩
  -- The rest of the table has no text.
  repeat
    rcases ite_eq_iff.mp h with ⟨-, h⟩ | ⟨-, h⟩
    · cases h
      exact absurd htext (by decide)
  cases h

/-- The formats that are recognised by their names; none is plain text. -/
theorem formatNameToMime_cases {name mime : String} (h : formatNameToMime name = some mime) :
    mime = "text/uri-list" ∨ mime = "text/html" ∨ mime = "text/rtf" := by
  unfold formatNameToMime at h
  split at h
  · exact Or.inl (Option.some.inj h).symm
  · exact Or.inl (Option.some.inj h).symm
  · exact Or.inr (Or.inl (Option.some.inj h).symm)
  · exact Or.inr (Or.inr (Option.some.inj h).symm)
  · cases h

/-- A text type is looked up as plain text under one of three identifiers, or as HTML. -/
theorem lookupFormatIdForMime_text {formats : List ClipboardFormat} {mime : String}
    {formatId : UInt32} (htext : isTextMime mime = true)
    (h : lookupFormatIdForMime formats mime = some formatId) :
    mime = "text/html" ∨ (mime = "text/plain;charset=utf-8" ∨ mime = "text/plain") ∧
      (formatId = 13 ∨ formatId = 1 ∨ formatId = 7) := by
  rw [lookupFormatIdForMime] at h
  split_ifs at h with h₁ h₂
  · cases h
    exact Or.inr ⟨h₁.1, Or.inl rfl⟩
  · cases h
    exact Or.inr ⟨h₂.1, Or.inr (Or.inl rfl)⟩
  · obtain ⟨format, hfound, rfl⟩ := Option.map_eq_some_iff.mp h
    have hserves := List.find?_some hfound
    rw [servesMime, Bool.or_eq_true, decide_eq_true_eq] at hserves
    rcases hserves with hid | hname
    · rcases rdpFormatToMime_eq_text htext hid with ⟨rfl, hthree⟩ | ⟨rfl, -⟩
      · exact Or.inr ⟨Or.inl rfl, hthree⟩
      · exact Or.inl rfl
    · split at hname
      · cases hname
      · rename_i mapped hmapped
        obtain ⟨name, -, hmapped⟩ := Option.bind_eq_some_iff.mp hmapped
        rw [Bool.or_eq_true, Bool.and_eq_true, decide_eq_true_eq, decide_eq_true_eq,
          decide_eq_true_eq] at hname
        rcases hname with rfl | ⟨-, rfl⟩
        · rcases formatNameToMime_cases hmapped with rfl | rfl | rfl
          · exact absurd htext (by decide)
          · exact Or.inl rfl
          · exact absurd htext (by decide)
        · exact absurd htext (by decide)

/-- Data of two bytes and more is decoded as UTF-16, whatever its format was. -/
theorem toPortalData_text {codec : ImageCodec} {mime : String} {data : List UInt8}
    (h : mime = "text/html" ∨ mime = "text/plain;charset=utf-8" ∨ mime = "text/plain") :
    toPortalData codec mime data = .ok (if 2 ≤ data.length then clientText data else data) := by
  have htext : isTextMime mime = true := by
    rcases h with rfl | rfl | rfl <;> decide
  rw [isTextMime] at htext
  rw [toPortalData, htext]
  rcases h with rfl | rfl | rfl
  all_goals
    rw [if_neg (by decide), if_neg (by decide), if_neg (by decide), if_neg (by decide)]
    simp only [true_and]
    split_ifs <;> rfl

/-! ### What arrives -/

section Arrives

variable {data bytes : List UInt8} {text : List Char}

/-- Text that is delivered has no zero. -/
theorem zero_notMem_of_clientText
    (h : clientText data = encodeUtf8 (convertLineEndingsToUnix text)) : '\x00' ∉ text := by
  intro hzero
  have hclean : '\x00' ∉ convertLineEndingsToUnix text :=
    encodeUtf8_injective h ▸ zero_notMem_sanitizeTextForLinux _
  exact hclean ((mem_convertLineEndingsToUnix (by decide) text).mpr hzero)

/-- UTF-16 arrives as it was sent, except for zeros. -/
theorem clientText_unicode_iff : clientText ((encodeUtf16 text).flatMap u16ToLe ++ [0, 0]) =
    encodeUtf8 (convertLineEndingsToUnix text) ↔ '\x00' ∉ text := by
  refine ⟨zero_notMem_of_clientText, fun h => ?_⟩
  have hunits : ∀ u ∈ encodeUtf16 text, decide (u ≠ 0) = true := by
    intro u hu
    rw [decide_eq_true_eq]
    rintro rfl
    exact h (zero_mem_encodeUtf16.mp hu)
  have hlast : unitsOfLe [0, 0] = [0] := rfl
  rw [clientText, unitsOfLe_append, hlast, List.takeWhile_append_of_pos hunits]
  show encodeUtf8 (sanitizeTextForLinux (decodeUtf16Lossy (encodeUtf16 text ++ []))) = _
  rw [List.append_nil, decodeUtf16Lossy_encodeUtf16, sanitizeTextForLinux_eq h]

theorem convertLineEndingsToUnix_singleton (c : Char) : convertLineEndingsToUnix [c] = [c] := by
  simp [convertLineEndingsToUnix]

/-- A byte and a terminator are one unit. -/
theorem clientText_byte {b : UInt8} (hb : b ≠ 0) :
    clientText [b, 0] = encodeUtf8 [Char.ofNat b.toNat] := by
  have hlt := b.toNat_lt
  have hb' : b.toNat ≠ 0 := fun h => hb (UInt8.toNat_inj.mp h)
  have hunits : (unitsOfLe [b, 0]).takeWhile (· ≠ 0) = [u16FromLe b 0] := by
    rw [unitsOfLe, List.takeWhile_cons_of_pos (by simpa using u16FromLe_ne_zero (Or.inl hb))]
    rfl
  have hdecoded : decodeUtf16Lossy [u16FromLe b 0] = [Char.ofNat b.toNat] := by
    have hu : (u16FromLe b 0).toNat = b.toNat := toNat_u16FromLe b 0
    rw [decodeUtf16Lossy, decodeUtf16Units, if_neg, if_neg]
    · rw [hu]
      rfl
    · rw [isLowSurrogate_iff]
      omega
    · rw [isHighSurrogate_iff]
      omega
  have hchar : Char.ofNat b.toNat ≠ '\x00' := by
    intro h
    rw [← Char.toNat_inj, toNat_ofNat (by omega)] at h
    exact hb' h
  rw [clientText, hunits, hdecoded, sanitizeTextForLinux, convertLineEndingsToUnix_singleton,
    List.filter_cons_of_pos (by simpa using hchar)]
  rfl

/-- Two bytes of a code page are one unit, whose character is not the one of the first byte. -/
theorem clientText_codePage_ne {page : CodePage} (hpage : page.Sane) (a b : UInt8)
    (rest : List UInt8) : clientText (a :: b :: rest ++ [0]) ≠
      encodeUtf8 (convertLineEndingsToUnix ((a :: b :: rest).map page)) := by
  intro h
  have hzero := zero_notMem_of_clientText h
  have hb : b ≠ 0 := by
    rintro rfl
    exact hzero (List.mem_map.mpr ⟨0, by simp, hpage.control 0 (Or.inl (by decide))⟩)
  have hb' : b.toNat ≠ 0 := fun h => hb (UInt8.toNat_inj.mp h)
  have hu := toNat_u16FromLe a b
  rw [clientText] at h
  have htext := encodeUtf8_injective h
  rw [List.cons_append, List.cons_append, unitsOfLe, List.takeWhile_cons_of_pos
    (by simpa using u16FromLe_ne_zero (Or.inr hb))] at htext
  obtain ⟨c, cs, hdecoded, hc⟩ := decodeUtf16Lossy_cons (u16FromLe a b)
    ((unitsOfLe (rest ++ [0])).takeWhile (· ≠ 0))
  have hbeyond : 256 ≤ c.toNat := by omega
  have hhead : ∀ d : Char, d.toNat < 256 → c ≠ d := by
    rintro d hd rfl
    omega
  rw [hdecoded, sanitizeTextForLinux, convertLineEndingsToUnix_cons (hhead _ (by decide)),
    List.filter_cons_of_pos (by simpa using hhead _ (by decide)), List.map_cons] at htext
  rcases head?_convertLineEndingsToUnix (page a) ((b :: rest).map page) with hfirst | hfirst
  · rw [← htext] at hfirst
    cases hfirst
    rcases hpage.beyond a with hlatin | ⟨hlow, hbyte⟩
    · omega
    · have ha := a.toNat_lt
      omega
  · rw [← htext] at hfirst
    exact hhead _ (by decide) (Option.some.inj hfirst)

/-- Of a code page only a text of one character arrives: its byte and the final zero make one
unit. -/
theorem clientText_codePage_iff {page : CodePage} (hpage : page.Sane) :
    (if 2 ≤ (bytes ++ [0]).length then clientText (bytes ++ [0]) else bytes ++ [0]) =
        encodeUtf8 (convertLineEndingsToUnix (bytes.map page)) ↔
      ∃ b, b ≠ 0 ∧ bytes ++ [0] = [b, 0] ∧ bytes.map page = [Char.ofNat b.toNat] := by
  match bytes with
  | [] =>
    constructor
    · intro h
      cases h
    · rintro ⟨b, -, h, -⟩
      cases h
  | [b] =>
    rw [if_pos (by simp)]
    constructor
    · intro h
      have hzero := zero_notMem_of_clientText h
      have hb : b ≠ 0 := by
        rintro rfl
        exact hzero (List.mem_map.mpr ⟨0, by simp, hpage.control 0 (Or.inl (by decide))⟩)
      refine ⟨b, hb, rfl, ?_⟩
      rw [List.singleton_append, clientText_byte hb, List.map_singleton,
        convertLineEndingsToUnix_singleton] at h
      exact (encodeUtf8_injective h).symm
    · rintro ⟨c, hc, hbytes, htext⟩
      cases hbytes
      rw [htext, List.singleton_append, clientText_byte hc, convertLineEndingsToUnix_singleton]
  | a :: b :: rest =>
    constructor
    · rw [if_pos (by simp)]
      exact fun h => absurd h (clientText_codePage_ne hpage a b rest)
    · rintro ⟨c, -, h, -⟩
      simp at h

/-- HTML does not arrive: its header would have to be in UTF-16. -/
theorem clientText_html_ne (h : CfHtml data text) :
    (if 2 ≤ data.length then clientText data else data) ≠
      encodeUtf8 (convertLineEndingsToUnix text) := by
  obtain ⟨header, rest, terminator, rfl, hheader, hrest, hterm⟩ := h.parts
  have hversion : (encodeUtf8 "Version:".toList).length = 8 := by decide
  rw [if_pos (by simp only [List.length_append, hversion]; omega)]
  intro heq
  have hzero : 0 ∉ encodeUtf8 text := by
    have hcount := count_encodeUtf8 (a := '\x00') (by decide) text
    rw [List.count_eq_zero.mpr (zero_notMem_of_clientText heq)] at hcount
    exact List.count_eq_zero.mp hcount
  have hdocument : 0 ∉ encodeUtf8 "Version:".toList ++ header ++ encodeUtf8 text ++ rest := by
    simp only [List.mem_append, not_or]
    exact ⟨⟨⟨by decide, hheader⟩, hzero⟩, hrest⟩
  obtain ⟨hnonzero, hcount⟩ := unitsOfLe_of_nonzero hterm _ hdocument
  have htext := encodeUtf8_injective heq
  rw [List.takeWhile_eq_self_iff.mpr hnonzero] at htext
  have hfilter := congrArg (List.filter nonAscii) htext
  rw [filter_nonAscii_sanitizeTextForLinux, filter_convertLineEndingsToUnix rfl] at hfilter
  have htwo := two_mul_countP_le (unitsOfLe
    (encodeUtf8 "Version:".toList ++ header ++ encodeUtf8 text ++ rest ++ terminator))
  have hle := length_encodeUtf8_filter_le nonAscii text
  rw [hfilter] at htwo
  simp only [List.length_append, hversion] at hcount
  omega

end Arrives

/-! ### What a client is sent -/

/-- The two characters are the same, unless the page lacks the second one. -/
def CodePage.Agrees (page : CodePage) (decoded c : Char) : Prop := decoded = c ∨ page.Lacks c

/-- The bytes of a format decode to the text, with the line endings of the client. -/
def Conveys (converter : FormatConverter) (formatId : UInt32) (bytes : List UInt8)
    (text : List Char) : Prop :=
  let windows := convertLineEndingsToWindows text
  if formatId = cfUnicodetext then converter.unicodeToText bytes = .ok windows
  else if formatId = cfHtml then FormatConverter.cfHtmlToHtml bytes = .ok windows
  else if formatId = cfText then
    ∃ decoded, converter.ansiToText bytes = .ok decoded ∧
      List.Forall₂ windows1252ToChar.Agrees decoded windows
  else
    ∃ decoded, converter.oemToText bytes = .ok decoded ∧
      List.Forall₂ cp437ToChar.Agrees decoded windows

/-- A text that is presented as it is: as UTF-16 one without a zero, as HTML one that is itself a
document about all of it, and in a code page one of ASCII. All but UTF-16 need Windows line endings
on the local side. -/
def Presentable (converter : FormatConverter) (formatId : UInt32) (text : List Char) : Prop :=
  if formatId = cfUnicodetext then
    '\x00' ∉ text ∧
      2 * (encodeUtf16 (convertLineEndingsToWindows text)).length + 2 ≤ converter.maxSize
  else
    convertLineEndingsToWindows text = text ∧
      if formatId = cfHtml then
        FormatConverter.parseHeaderValue text "StartFragment:" = .ok 0 ∧
          FormatConverter.parseHeaderValue text "EndFragment:" = .ok (encodeUtf8 text).length
      else
        (∀ c ∈ text, c.toNat < 0x80) ∧ text.getLast? ≠ some '\x00' ∧
          text.length ≤ converter.maxSize

section Presented

variable {converter : FormatConverter} {page : CodePage} {text : List Char}

/-- The terminator goes, and what was encoded is there again. -/
theorem unicodeToText_encodeUtf16 (cs : List Char) :
    converter.unicodeToText ((encodeUtf16 cs).flatMap u16ToLe ++ [0, 0]) =
      if converter.maxSize < 2 * (encodeUtf16 cs).length + 2 then
        .error (.dataSizeExceeded (2 * (encodeUtf16 cs).length + 2) converter.maxSize)
      else .ok cs := by
  have hlength : ((encodeUtf16 cs).flatMap u16ToLe ++ [0, 0]).length =
      2 * (encodeUtf16 cs).length + 2 := by
    rw [List.length_append, length_flatMap_u16ToLe]
    rfl
  have hlast : unitsOfLe [0, 0] = [0] := rfl
  rw [FormatConverter.unicodeToText, hlength, if_neg (c := _ % 2 ≠ 0) (by omega)]
  dsimp only
  rw [unitsOfLe_append, hlast, List.getLast?_concat, if_pos rfl, List.dropLast_concat,
    decodeUtf16_encodeUtf16]

/-- A text is conveyed as UTF-16 if it has no zeros and is not too long for the other side. -/
theorem unicode_conveys_iff :
    converter.unicodeToText (localText (encodeUtf8 text)) =
        .ok (convertLineEndingsToWindows text) ↔
      '\x00' ∉ text ∧
        2 * (encodeUtf16 (convertLineEndingsToWindows text)).length + 2 ≤ converter.maxSize := by
  rw [localText, decodeUtf8Lossy_encodeUtf8, unicodeToText_encodeUtf16]
  constructor
  · intro h
    split_ifs at h with hsize
    have hsame := Except.ok.inj h
    have hzero : '\x00' ∉ text := by
      rw [← mem_convertLineEndingsToWindows (by decide), ← hsame, sanitizeTextForWindows]
      simp
    rw [hsame] at hsize
    exact ⟨hzero, by omega⟩
  · rintro ⟨hzero, hsize⟩
    have hsame : sanitizeTextForWindows text = convertLineEndingsToWindows text := by
      rw [sanitizeTextForWindows, List.filter_eq_self]
      intro c hc
      rw [decide_eq_true_eq]
      rintro rfl
      exact hzero ((mem_convertLineEndingsToWindows (by decide) text).mp hc)
    rw [hsame, if_neg (by omega)]

/-- An HTML text that is no document has no fragment, and a document has one of its own. -/
theorem html_conveys_iff :
    FormatConverter.cfHtmlToHtml (encodeUtf8 text) = .ok (convertLineEndingsToWindows text) ↔
      convertLineEndingsToWindows text = text ∧
        FormatConverter.parseHeaderValue text "StartFragment:" = .ok 0 ∧
          FormatConverter.parseHeaderValue text "EndFragment:" = .ok (encodeUtf8 text).length := by
  rw [FormatConverter.cfHtmlToHtml, decodeUtf8_encodeUtf8]
  dsimp only
  constructor
  · intro h
    split at h
    · cases h
    rename_i start hstart
    split at h
    · cases h
    rename_i stop hstop
    split_ifs at h with hbounds
    split at h
    · rename_i fragment hslice
      obtain rfl := Except.ok.inj h
      obtain ⟨front, rest, htext, hfront, hfragment⟩ := FormatConverter.sliceBytes_eq_some hslice
      have hle := (sublist_convertLineEndingsToWindows text).length_le
      have hlength := congrArg List.length htext
      rw [List.length_append, List.length_append] at hlength
      obtain rfl : front = [] := List.length_eq_zero_iff.mp (by omega)
      obtain rfl : rest = [] := List.length_eq_zero_iff.mp (by omega)
      rw [List.nil_append, List.append_nil] at htext
      rw [List.nil_append, ← htext] at hfragment
      obtain rfl : start = 0 := hfront.symm
      rw [hstart, hstop, hfragment]
      exact ⟨htext.symm, rfl, rfl⟩
    · cases h
  · rintro ⟨hsame, hstart, hstop⟩
    have hpos : 0 < (encodeUtf8 text).length := by
      have hle := length_le_length_encodeUtf8 text
      cases text with
      | nil => cases hstart
      | cons c text => exact lt_of_lt_of_le (Nat.succ_pos _) hle
    rw [hstart, hstop]
    dsimp only
    rw [if_neg (by omega), FormatConverter.sliceBytes_whole, hsame]

theorem toNat_inj_byte {a : Char} (ha : a.toNat < 256) (b : UInt8) :
    b = UInt8.ofNat a.toNat ↔ Char.ofNat b.toNat = a := by
  have hb := b.toNat_lt
  rw [← UInt8.toNat_inj, ← Char.toNat_inj, toNat_byte ha, toNat_ofNat (by omega)]

/-- A control stands for itself. -/
theorem CodePage.Sane.eq_control_iff (hpage : page.Sane) {a : Char} (ha : a.toNat < 32)
    (b : UInt8) : page b = a ↔ b = UInt8.ofNat a.toNat := by
  rw [toNat_inj_byte (by omega)]
  have hb := b.toNat_lt
  constructor
  · rintro rfl
    exact (hpage.control b (Or.inr ha)).symm
  · rintro rfl
    rw [toNat_ofNat (by omega)] at ha
    exact hpage.control b (Or.inl ha)

/-- A code page has the control characters in their places. -/
theorem CodePage.Sane.count_map (hpage : page.Sane) {a : Char} (ha : a.toNat < 32)
    (bytes : List UInt8) : (bytes.map page).count a = bytes.count (UInt8.ofNat a.toNat) := by
  induction bytes with
  | nil => rfl
  | cons b bytes ih =>
    rw [List.map_cons, List.count_cons, List.count_cons, ih]
    congr 1
    refine if_congr ?_ rfl rfl
    rw [beq_iff_eq, beq_iff_eq, hpage.eq_control_iff ha]

/-- What the page has is found wherever it is expected. -/
theorem CodePage.count_le_of_agrees {a : Char} (ha : ¬ page.Lacks a) {decoded cs : List Char}
    (h : List.Forall₂ page.Agrees decoded cs) : cs.count a ≤ decoded.count a := by
  induction h with
  | nil => exact le_refl _
  | @cons d c decoded cs hagrees _ ih =>
    rw [List.count_cons, List.count_cons]
    by_cases hc : c = a
    · have hd : d = a := by
        rcases hagrees with rfl | hlacks
        · exact hc
        · exact absurd (hc ▸ hlacks) ha
      rw [hc, hd]
      omega
    · rw [if_neg (by simpa using hc)]
      omega

theorem CodePage.Sane.not_lacks (hpage : page.Sane) {a : Char} (ha : a.toNat < 32) :
    ¬ page.Lacks a := fun h => h _ ((hpage.eq_control_iff ha _).mpr rfl)

/-- A text is passed on in UTF-8, so a code page shows it if it is ASCII, with line endings that
need no translation. -/
theorem codePage_conveys_iff (hpage : page.Sane) :
    (∃ decoded, converter.codePageToText page (encodeUtf8 text) = .ok decoded ∧
        List.Forall₂ page.Agrees decoded (convertLineEndingsToWindows text)) ↔
      convertLineEndingsToWindows text = text ∧ (∀ c ∈ text, c.toNat < 0x80) ∧
        text.getLast? ≠ some '\x00' ∧ text.length ≤ converter.maxSize := by
  constructor
  · rintro ⟨decoded, hdecoded, hagrees⟩
    obtain ⟨hsize, rfl⟩ := FormatConverter.codePageToText_eq_ok.mp hdecoded
    -- Every zero that is expected is sent, so what went was no terminator.
    have hlast : (encodeUtf8 text).getLast? ≠ some 0 := by
      intro hlast
      rw [if_pos hlast] at hagrees
      have hcount := CodePage.count_le_of_agrees (hpage.not_lacks (a := '\x00') (by decide)) hagrees
      rw [hpage.count_map (by decide), count_convertLineEndingsToWindows (by decide),
        ← count_encodeUtf8 (by decide), ← List.dropLast_append_getLast? 0 hlast,
        List.dropLast_concat, List.count_append] at hcount
      exact absurd hcount (by simp)
    rw [if_neg hlast] at hagrees
    have hcount := CodePage.count_le_of_agrees (hpage.not_lacks (a := '\r') (by decide)) hagrees
    rw [hpage.count_map (by decide), count_encodeUtf8 (by decide)] at hcount
    have hsame := convertLineEndingsToWindows_eq_self hcount
    have hlength := hagrees.length_eq
    rw [List.length_map, hsame] at hlength
    refine ⟨hsame, ascii_of_length_encodeUtf8 hlength, ?_, hlength ▸ hsize⟩
    exact fun h => hlast ((getLast?_encodeUtf8 (by decide) text).mpr h)
  · rintro ⟨hsame, hascii, hlast, hsize⟩
    have hsent : (encodeUtf8 text).getLast? ≠ some 0 :=
      fun h => hlast ((getLast?_encodeUtf8 (by decide) text).mp h)
    rw [hsame]
    refine ⟨_, FormatConverter.codePageToText_eq_ok.mpr ⟨?_, rfl⟩, ?_⟩
    · rw [encodeUtf8_of_ascii hascii, List.length_map]
      exact hsize
    · rw [if_neg hsent, encodeUtf8_of_ascii hascii, List.map_map, List.forall₂_map_left_iff,
        List.forall₂_same]
      intro c hc
      have hc' := hascii c hc
      have hbyte : (UInt8.ofNat c.toNat).toNat = c.toNat := toNat_byte (by omega)
      rcases hpage.ascii (UInt8.ofNat c.toNat) (by omega) with h | h
      · rw [hbyte, Char.ofNat_toNat] at h
        exact Or.inl h
      · rw [hbyte, Char.ofNat_toNat] at h
        exact Or.inr (forall_byte (P := fun b => page b ≠ c) h)

end Presented

/-! ### The two handlers -/

section Handlers

variable {lib : Libraries} {env : Env} {s : Session} {provider : Provider}

/-- The client's answer is for this transfer, and it is taken. -/
structure Awaits (lib : Libraries) (env : Env) (s : Session) (serial : UInt32) (mime : String)
    (data : List UInt8) : Prop where
  provider : env.provider.isSome
  pending : s.orch.pendingPortalRequests.head? = some (serial, mime)
  notEager : serial ≠ eagerFetchSerial
  accepted : (s.orch.sync.checkContent lib.sha256 env.now data true).1 = true

/-- The transfer is completed with these bytes. -/
def Delivers (lib : Libraries) (env : Env) (s : Session) (serial : UInt32) (mime : String)
    (data bytes : List UInt8) : Prop :=
  s.out ++ [.completeTransfer serial mime bytes true] <+:
    ((handleRdpDataResponse lib env data).run s).2.out

/-- The request is answered with bytes that convey the text. -/
def Presents (lib : Libraries) (env : Env) (s : Session) (converter : FormatConverter)
    (formatId : UInt32) (text : List Char) : Prop :=
  ∃ mime bytes, ((handleRdpDataRequest lib env formatId).run s).2.out =
      s.out ++ [.readData mime, .toClient (.sendFormatData (.data bytes))] ∧
    Conveys converter formatId bytes text

/-- What the converter makes of the answer is what is delivered. -/
theorem delivers_portalData {serial : UInt32} {mime : String} {data portal : List UInt8}
    (hawaits : Awaits lib env s serial mime data) (htext : isTextMime mime = true)
    (hportal : toPortalData lib.codec mime data = .ok portal) :
    Delivers lib env s serial mime data portal := by
  obtain ⟨provider, hprovider⟩ := Option.isSome_iff_exists.mp hawaits.provider
  obtain ⟨rest, hpending⟩ := List.head?_eq_some_iff.mp hawaits.pending
  have hfile : isFileMime mime = false := by
    rw [isFileMime, Bool.or_eq_false_iff, decide_eq_false_iff_not, decide_eq_false_iff_not]
    constructor
    · rintro rfl
      exact absurd htext (by decide)
    · rintro rfl
      exact absurd htext (by decide)
  have hrun : ∃ orch, ((handleRdpDataResponse lib env data).run s).2 =
      ((deliver lib env provider serial mime data).run ⟨orch, s.out⟩).2 := by
    refine ⟨{ s.orch with
      sync := (s.orch.sync.checkContent lib.sha256 env.now data true).2
      pendingPortalRequests := rest }, ?_⟩
    simp only [handleRdpDataResponse, Prog.run_bind, run_withSync, hawaits.accepted, if_true,
      hprovider, Prog.run_gets, hpending, run_modifyPending, settle, hawaits.notEager, if_false,
      hfile, Bool.false_eq_true]
  obtain ⟨orch, hrun⟩ := hrun
  rw [Delivers, hrun]
  cases hcomplete : provider.completeTransfer serial mime with
  | true =>
    rw [run_deliver_success hportal hcomplete]
    simp
  | false =>
    rw [run_deliver_failure hportal hcomplete]
    simp

/-- Only one text is delivered. -/
theorem delivers_iff {serial : UInt32} {mime : String} {data portal bytes : List UInt8}
    (h : Delivers lib env s serial mime data portal) :
    Delivers lib env s serial mime data bytes ↔ portal = bytes := by
  constructor
  · intro hbytes
    have hprefix := List.prefix_of_prefix_length_le h hbytes (by simp)
    have hsame := hprefix.eq_of_length (by simp)
    simpa using hsame
  · rintro rfl
    exact h

/-- Nothing that is advertised under a number is a file list. -/
theorem advertisedName_ne_fileList {offered : List String} {formatId : UInt32}
    (hid : formatId ≠ 0) :
    advertisedName (mimeToRdpFormats offered) formatId ≠ some "FileGroupDescriptorW" := by
  intro hname
  obtain ⟨f, hfound, hf⟩ := Option.bind_eq_some_iff.mp hname
  obtain ⟨mime, -, hmem⟩ := mem_mimeToRdpFormats (List.mem_of_find?_eq_some hfound)
  have hfid : f.id = formatId := by simpa [hid] using List.find?_some hfound
  have hfile : f.isFile = true := by simp [ClipboardFormat.isFile, hf]
  have hzero : f.id = 0 := by
    have hall : ∀ g ∈ addMime [] "text/uri-list", g.id = 0 := by decide
    rcases (kinds_of_mem_addMime hmem).1 hfile with rfl | rfl
    · exact hall f hmem
    · exact hall f hmem
  exact hid (hfid.symm.trans hzero)

/-- A request for a format with text is answered with what the provider has, converted. -/
theorem out_handleRdpDataRequest {offered : List String} {formatId : UInt32} {mime : String}
    {content bytes : List UInt8} (hadvertised : s.orch.localAdvertisedFormats =
      mimeToRdpFormats offered) (hid : formatId ≠ 0) (hmime : rdpFormatToMime formatId = some mime)
    (hprovider : env.provider = some provider) (hcontent : provider.readData mime = some content)
    (hsender : env.sender = .registered)
    (hbytes : toRdpData lib.codec formatId mime content = .ok bytes) :
    ((handleRdpDataRequest lib env formatId).run s).2.out =
      s.out ++ [.readData mime, .toClient (.sendFormatData (.data bytes))] := by
  rw [handleRdpDataRequest, Prog.run_bind, Prog.run_gets, hadvertised]
  dsimp only
  rw [if_neg (advertisedName_ne_fileList hid), hmime]
  dsimp only
  rw [sendProviderData, hprovider]
  dsimp only
  rw [Prog.run_bind, run_emit, hcontent]
  dsimp only
  rw [hbytes]
  dsimp only
  rw [run_send, if_pos hsender]
  exact List.append_assoc _ _ _

/-- What reaches the local side is the text, or something else. -/
theorem delivers_text_iff {serial : UInt32} {formats : List ClipboardFormat} {mime : String}
    {formatId : UInt32} {data : List UInt8} {text : List Char} (htext : isTextMime mime = true)
    (hlookup : lookupFormatIdForMime formats mime = some formatId)
    (hencoded : Encoded mime formatId data text) (hawaits : Awaits lib env s serial mime data) :
    Delivers lib env s serial mime data (encodeUtf8 (convertLineEndingsToUnix text)) ↔
      Intelligible mime formatId data text := by
  have hmime := lookupFormatIdForMime_text htext hlookup
  have hportal : toPortalData lib.codec mime data =
      .ok (if 2 ≤ data.length then clientText data else data) :=
    toPortalData_text (hmime.imp_right And.left)
  rw [delivers_iff (delivers_portalData hawaits htext hportal), Intelligible]
  rw [Encoded] at hencoded
  rcases hmime with rfl | ⟨hplain, hformat⟩
  · rw [if_pos rfl] at hencoded
    exact iff_of_false (clientText_html_ne hencoded) fun h => h.1 rfl
  · have hhtml : mime ≠ "text/html" := by
      rcases hplain with rfl | rfl <;> decide
    rw [if_neg hhtml] at hencoded
    rw [and_iff_right hhtml]
    have hpage : ∀ {page : CodePage}, page.Sane → page.Encoded data text →
        ((if 2 ≤ data.length then clientText data else data) =
            encodeUtf8 (convertLineEndingsToUnix text) ↔
          ∃ b, b ≠ 0 ∧ data = [b, 0] ∧ text = [Char.ofNat b.toNat]) := by
      rintro page hsane ⟨bytes, rfl, rfl⟩
      exact clientText_codePage_iff hsane
    rcases hformat with rfl | rfl | rfl
    · obtain rfl : data = (encodeUtf16 text).flatMap u16ToLe ++ [0, 0] := hencoded
      rw [if_pos (by simp)]
      exact clientText_unicode_iff
    · exact hpage sane_windows1252 hencoded
    · exact hpage sane_cp437 hencoded

/-- What the client gets for a format is the text, or something else. -/
theorem presents_text_iff {converter : FormatConverter} {offered : List String}
    {formatId : UInt32} {mime : String} {text : List Char}
    (hadvertised : s.orch.localAdvertisedFormats = mimeToRdpFormats offered)
    (hmime : rdpFormatToMime formatId = some mime) (htext : isTextMime mime = true)
    (hprovider : env.provider = some provider) (hsender : env.sender = .registered)
    (hcontent : provider.readData mime = some (encodeUtf8 text)) :
    Presents lib env s converter formatId text ↔ Presentable converter formatId text := by
  have hformat : formatId = 13 ∨ formatId = 1 ∨ formatId = 7 ∨ formatId = cfHtml := by
    rcases rdpFormatToMime_eq_text htext hmime with ⟨-, h | h | h⟩ | ⟨-, h⟩ <;> simp [h]
  have hid : formatId ≠ 0 := by
    rcases hformat with rfl | rfl | rfl | rfl <;> decide
  have hbytes : toRdpData lib.codec formatId mime (encodeUtf8 text) =
      .ok (if formatId = 13 then localText (encodeUtf8 text) else encodeUtf8 text) := by
    rcases hformat with rfl | rfl | rfl | rfl <;> rfl
  have hconveys : Presents lib env s converter formatId text ↔ Conveys converter formatId
      (if formatId = 13 then localText (encodeUtf8 text) else encodeUtf8 text) text := by
    have hout :=
      out_handleRdpDataRequest hadvertised hid hmime hprovider hcontent hsender hbytes
    constructor
    · rintro ⟨mime', bytes, hout', hconveys⟩
      rw [hout, List.append_cancel_left_eq] at hout'
      cases hout'
      exact hconveys
    · exact fun h => ⟨mime, _, hout, h⟩
  rw [hconveys, Presentable]
  rcases hformat with rfl | rfl | rfl | rfl
  · exact unicode_conveys_iff
  · exact codePage_conveys_iff sane_windows1252
  · exact codePage_conveys_iff sane_cp437
  · exact html_conveys_iff

end Handlers

/-- **Text survives on exactly these terms.** Whatever a client offers, and whatever text it sends
in the format that was looked up, the text arrives if it is UTF-16 without a zero, or a single
character that its code page shares with UTF-16; HTML never does. And whatever text a local
selection has, it can be read in an advertised format if that is UTF-16, or if it is in that format
as it is. -/
theorem text_survives_iff (lib : Libraries) (env : Env) (s : Session) :
    (∀ (serial : UInt32) (formats : List ClipboardFormat) (mime : String) (formatId : UInt32)
        (data : List UInt8) (text : List Char), isTextMime mime = true →
      lookupFormatIdForMime formats mime = some formatId → Encoded mime formatId data text →
      Awaits lib env s serial mime data →
      (Delivers lib env s serial mime data (encodeUtf8 (convertLineEndingsToUnix text)) ↔
        Intelligible mime formatId data text)) ∧
    (∀ (provider : Provider) (converter : FormatConverter) (offered : List String)
        (formatId : UInt32) (mime : String) (text : List Char),
      s.orch.localAdvertisedFormats = mimeToRdpFormats offered →
      rdpFormatToMime formatId = some mime → isTextMime mime = true →
      env.provider = some provider → env.sender = .registered →
      provider.readData mime = some (encodeUtf8 text) →
      (Presents lib env s converter formatId text ↔ Presentable converter formatId text)) := by
  refine ⟨?_, ?_⟩
  · intro serial formats mime formatId data text htext hlookup hencoded hawaits
    exact delivers_text_iff htext hlookup hencoded hawaits
  · intro provider converter offered formatId mime text hadvertised hmime htext hprovider
      hsender hcontent
    exact presents_text_iff hadvertised hmime htext hprovider hsender hcontent

/-- The orchestrator after an application asked for text. -/
def textRequested : Session :=
  ⟨(respond sampleLibraries (.new sampleConfig "/home/user/Downloads")
    (.transfer 7 "text/plain;charset=utf-8")).orch, []⟩

/-- A client that offers `CF_TEXT` only sends two characters, and one arrives. -/
theorem ansi_text_misread :
    lookupFormatIdForMime [.new cfText] "text/plain;charset=utf-8" = some cfText ∧
      Encoded "text/plain;charset=utf-8" cfText [104, 105, 0] ['h', 'i'] ∧
      Awaits sampleLibraries sampleEnv textRequested 7 "text/plain;charset=utf-8" [104, 105, 0] ∧
      ¬ Delivers sampleLibraries sampleEnv textRequested 7 "text/plain;charset=utf-8"
        [104, 105, 0] (encodeUtf8 (convertLineEndingsToUnix ['h', 'i'])) := by
  refine ⟨by decide, ⟨[104, 105], rfl, by decide⟩, ⟨rfl, by decide +kernel, by decide,
    by decide +kernel⟩, ?_⟩
  rw [Delivers]
  decide +kernel

/-- A text with umlauts, a line break and a character outside of the basic plane. -/
def greeting : List Char := "Grüße\n𝄞".toList

/-- A provider whose selection is the greeting. -/
def greetingEnv : Env :=
  { sampleEnv with
    provider := some { sampleProvider with readData := fun _ => some (encodeUtf8 greeting) } }

/-- The orchestrator when it has advertised text. -/
def textAdvertised : Session :=
  ⟨{ Orchestrator.new sampleConfig "/home/user/Downloads" with
      localAdvertisedFormats := mimeToRdpFormats ["text/plain"] }, []⟩

theorem greeting_survives :
    Delivers sampleLibraries sampleEnv textRequested 7 "text/plain;charset=utf-8"
        ((encodeUtf16 greeting).flatMap u16ToLe ++ [0, 0])
        (encodeUtf8 (convertLineEndingsToUnix greeting)) ∧
      Presents sampleLibraries greetingEnv textAdvertised .new cfUnicodetext greeting := by
  have hzero : '\x00' ∉ greeting := by decide
  have hencoded : Encoded "text/plain;charset=utf-8" cfUnicodetext
      ((encodeUtf16 greeting).flatMap u16ToLe ++ [0, 0]) greeting := rfl
  constructor
  · refine ((text_survives_iff _ _ _).1 _ [.new cfUnicodetext] _ _ _ _ (by decide) (by decide)
      hencoded ⟨rfl, by decide +kernel, by decide, by decide +kernel⟩).mpr ?_
    exact ⟨by decide, hzero⟩
  · refine ((text_survives_iff _ _ _).2 _ _ ["text/plain"] _ "text/plain;charset=utf-8" _ rfl
      (by decide) (by decide) rfl rfl rfl).mpr ?_
    exact ⟨hzero, by decide +kernel⟩

end Clipboard

end Cheirizo
