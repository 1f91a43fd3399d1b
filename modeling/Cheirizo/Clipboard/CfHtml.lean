import Cheirizo.Clipboard.Converter

/-!
# HTML with a header

`html_to_cf_html` and `cf_html_to_html` of `src/rdp/channels/clipboard/core/formats.rs`. The
document is preceded by lines that say, in bytes, where its fragment starts and stops. What the
encoder writes is read back whatever the document holds, as its own lines come first. A header from
the other side may declare a position inside a character, and slicing there panics; that is the one
way in which the decoder goes wrong.

## Main definitions

* `FormatConverter.htmlToCfHtml` — the document with its header
* `DeclaresFragment`, `ReturnsFragment` — what a header declares, and what is to be returned

## Main results

* `returnsFragment_iff` — the fragment is returned if and only if it is not cut inside a character
* `cfHtml_htmlToCfHtml` — the round trip
-/

namespace Cheirizo

namespace Clipboard

open Unicode

namespace FormatConverter

/-! ### Slices -/

/-- A text is split where no character is cut. -/
theorem isSome_splitAtByte (n : ℕ) (cs : List Char) :
    (splitAtByte n cs).isSome = isCharBoundary (encodeUtf8 cs) n := by
  induction cs generalizing n with
  | nil => cases n <;> rfl
  | cons c cs ih =>
    cases n with
    | zero =>
      rw [isCharBoundary_zero]
      rfl
    | succ n =>
      rw [splitAtByte]
      split_ifs with hsize
      · rw [Option.isSome_map, ih, isCharBoundary_beyond hsize]
      · rw [isCharBoundary_inside (Nat.succ_pos n) (by omega)]
        rfl

/-- A position is a boundary of the text before a later one as it is of the whole. -/
theorem isCharBoundary_front {front rest : List Char} {n : ℕ}
    (hn : n ≤ (encodeUtf8 front).length) :
    isCharBoundary (encodeUtf8 front) n = isCharBoundary (encodeUtf8 (front ++ rest)) n := by
  obtain hn | rfl := Nat.lt_or_eq_of_le hn
  · rw [isCharBoundary, isCharBoundary, encodeUtf8_append, List.getElem?_append_left hn,
      List.getElem?_eq_getElem hn]
  · have hsplit := isSome_splitAtByte (encodeUtf8 front).length
    rw [← hsplit, ← hsplit, splitAtByte_append]
    nth_rw 2 [← List.append_nil front]
    rw [splitAtByte_append]
    rfl

theorem isSome_sliceBytes {text : List Char} {start stop : ℕ} (h : start ≤ stop) :
    (sliceBytes text start stop).isSome =
      (isCharBoundary (encodeUtf8 text) start && isCharBoundary (encodeUtf8 text) stop) := by
  rw [← isSome_splitAtByte stop]
  cases hstop : splitAtByte stop text with
  | none =>
    rw [sliceBytes, hstop, Option.isSome_none, Bool.and_false]
    rfl
  | some parts =>
    obtain ⟨front, rest⟩ := parts
    obtain ⟨rfl, hlength⟩ := splitAtByte_eq_some hstop
    rw [← isCharBoundary_front (by omega), ← isSome_splitAtByte, sliceBytes, hstop,
      Option.isSome_some, Bool.and_true]
    show ((splitAtByte start front).bind _).isSome = _
    cases splitAtByte start front <;> rfl

theorem sliceBytes_append (front slice rest : List Char) :
    sliceBytes (front ++ slice ++ rest) (encodeUtf8 front).length
      (encodeUtf8 (front ++ slice)).length = some slice := by
  rw [sliceBytes, splitAtByte_append]
  show (splitAtByte _ (front ++ slice)).bind _ = _
  rw [splitAtByte_append]
  rfl

/-! ### Any header -/

/-- The text's header declares a fragment from `start` to `stop`. -/
def DeclaresFragment (data : List UInt8) (start stop : ℕ) : Prop :=
  ∃ text, decodeUtf8 data = some text ∧ parseHeaderValue text "StartFragment:" = .ok start ∧
    parseHeaderValue text "EndFragment:" = .ok stop

/-- There is an error, or what is between the declared offsets is returned. -/
def ReturnsFragment (data : List UInt8) : Prop :=
  match cfHtmlToHtml data with
  | .ok fragment => ∃ start stop, DeclaresFragment data start stop ∧
      encodeUtf8 fragment = (data.take stop).drop start
  | .error e => e ≠ .panic

/-- The declared positions, if they are in order and within the data, cut no character. -/
def CutsNoCharacter (data : List UInt8) : Prop :=
  ∀ start stop, DeclaresFragment data start stop → start < stop → stop ≤ data.length →
    isCharBoundary data start = true ∧ isCharBoundary data stop = true

/-- What the decoder makes of a declared fragment. -/
theorem cfHtmlToHtml_of_declares {data : List UInt8} {text : List Char} {start stop : ℕ}
    (htext : decodeUtf8 data = some text)
    (hstart : parseHeaderValue text "StartFragment:" = .ok start)
    (hstop : parseHeaderValue text "EndFragment:" = .ok stop) :
    cfHtmlToHtml data =
      if stop ≤ start ∨ data.length < stop then
        .error (.formatConversion "invalid CF_HTML offsets")
      else
        match sliceBytes text start stop with
        | some fragment => .ok fragment
        | none => .error .panic := by
  cases hslice : sliceBytes text start stop with
  | none => simp only [cfHtmlToHtml, htext, hstart, hstop, hslice]
  | some fragment => simp only [cfHtmlToHtml, htext, hstart, hstop, hslice]

theorem parseHeaderValue_ne_panic {text : List Char} {key : String} :
    parseHeaderValue text key ≠ .error .panic := by
  rw [parseHeaderValue]
  split <;> simp

theorem returnsFragment_of_error {data : List UInt8} {e : ConversionError}
    (h : cfHtmlToHtml data = .error e) (he : e ≠ .panic) : ReturnsFragment data := by
  rw [ReturnsFragment, h]
  exact he

/-- Without a declared fragment there is an error that says so. -/
theorem returnsFragment_of_not_declares {data : List UInt8}
    (h : ∀ start stop, ¬ DeclaresFragment data start stop) : ReturnsFragment data := by
  cases htext : decodeUtf8 data with
  | none =>
    have herror : cfHtmlToHtml data = .error .invalidUtf8 := by rw [cfHtmlToHtml, htext]
    exact returnsFragment_of_error herror nofun
  | some text =>
    cases hstart : parseHeaderValue text "StartFragment:" with
    | error e =>
      have herror : cfHtmlToHtml data = .error e := by
        rw [cfHtmlToHtml, htext]
        simp only [hstart]
      exact returnsFragment_of_error herror fun he => parseHeaderValue_ne_panic (he ▸ hstart)
    | ok start =>
      cases hstop : parseHeaderValue text "EndFragment:" with
      | error e =>
        have herror : cfHtmlToHtml data = .error e := by
          rw [cfHtmlToHtml, htext]
          simp only [hstart, hstop]
        exact returnsFragment_of_error herror fun he => parseHeaderValue_ne_panic (he ▸ hstop)
      | ok stop => exact absurd ⟨text, htext, hstart, hstop⟩ (h start stop)

end FormatConverter

open FormatConverter in
/-- **Only a cut character goes wrong.** The fragment is returned, or an error, if and only if the
header does not declare an end of it inside a character. -/
theorem returnsFragment_iff (data : List UInt8) : ReturnsFragment data ↔ CutsNoCharacter data := by
  by_cases hdeclares : ∃ start stop, DeclaresFragment data start stop
  · obtain ⟨start, stop, text, htext, hstart, hstop⟩ := hdeclares
    have hdata : encodeUtf8 text = data := encodeUtf8_of_decodeUtf8 htext
    have honly : ∀ start' stop', DeclaresFragment data start' stop' →
        start' = start ∧ stop' = stop := by
      rintro start' stop' ⟨text', htext', hstart', hstop'⟩
      rw [htext] at htext'
      cases htext'
      rw [hstart] at hstart'
      rw [hstop] at hstop'
      cases hstart'
      cases hstop'
      exact ⟨rfl, rfl⟩
    rw [ReturnsFragment, cfHtmlToHtml_of_declares htext hstart hstop]
    split_ifs with hrange
    · refine iff_of_true (by simp) fun start' stop' h hlt hle => ?_
      obtain ⟨rfl, rfl⟩ := honly start' stop' h
      omega
    · have hslice : (sliceBytes text start stop).isSome = _ := isSome_sliceBytes (by omega)
      rw [hdata] at hslice
      cases hfragment : sliceBytes text start stop with
      | none =>
        rw [hfragment] at hslice
        refine iff_of_false (fun h => h rfl) fun hcuts => ?_
        obtain ⟨hstart', hstop'⟩ := hcuts start stop ⟨text, htext, hstart, hstop⟩ (by omega)
          (by omega)
        rw [hstart', hstop'] at hslice
        cases hslice
      | some fragment =>
        rw [hfragment] at hslice
        refine iff_of_true ⟨start, stop, ⟨text, htext, hstart, hstop⟩, ?_⟩
          fun start' stop' h _ _ => ?_
        · obtain ⟨front, rest, rfl, rfl, rfl⟩ := sliceBytes_eq_some hfragment
          rw [← hdata, encodeUtf8_append _ rest, List.take_left, encodeUtf8_append,
            List.drop_left]
        · obtain ⟨rfl, rfl⟩ := honly start' stop' h
          exact Bool.and_eq_true_iff.mp hslice.symm
  · have hnone : ∀ start stop, ¬ DeclaresFragment data start stop :=
      fun start stop h => hdeclares ⟨start, stop, h⟩
    exact iff_of_true (returnsFragment_of_not_declares hnone)
      fun start stop h => absurd h (hnone start stop)

/-- A header that ends the fragment inside the one character of it. -/
def cutFragment : List UInt8 := encodeUtf8 "StartFragment:31\nEndFragment:33\né".toList

theorem cutFragment_panics : ¬ FormatConverter.ReturnsFragment cutFragment := by
  have hpanic : FormatConverter.cfHtmlToHtml cutFragment = .error .panic := by decide +kernel
  rw [FormatConverter.ReturnsFragment, hpanic]
  exact fun h => h rfl

/-! ### The encoder's header -/

namespace FormatConverter

/-- The header, with places for offsets of eight digits. -/
def cfHtmlHeaderTemplate : List Char :=
  ("Version:0.9\r\nStartHTML:XXXXXXXX\r\nEndHTML:XXXXXXXX\r\n" ++
    "StartFragment:XXXXXXXX\r\nEndFragment:XXXXXXXX\r\n").toList

/-- What is put in front of the fragment. -/
def cfHtmlPrefix : List Char := "<html><body><!--StartFragment-->".toList

/-- What is put behind it. -/
def cfHtmlSuffix : List Char := "<!--EndFragment--></body></html>".toList

/-- A line that ends in a carriage return and a line feed. -/
def crlfLine (line : List Char) : List Char := line ++ ['\r', '\n']

/-- The name of an offset and the offset in eight digits. -/
def headerLine (label : String) (n : ℕ) : List Char := label.toList ++ Text.padded 8 n

/-- The template with its four offsets. -/
def cfHtmlHeader (startHtml endHtml startFragment endFragment : ℕ) : List Char :=
  crlfLine "Version:0.9".toList ++ crlfLine (headerLine "StartHTML:" startHtml) ++
    crlfLine (headerLine "EndHTML:" endHtml) ++
    crlfLine (headerLine "StartFragment:" startFragment) ++
    crlfLine (headerLine "EndFragment:" endFragment)

/-- The offsets are those of bytes from the start of the header. -/
def htmlToCfHtml (converter : FormatConverter) (html : List Char) :
    Except ConversionError (List UInt8) :=
  if converter.maxSize < byteLen html then
    .error (.dataSizeExceeded (byteLen html) converter.maxSize)
  else
    let headerLen := byteLen cfHtmlHeaderTemplate
    let startHtml := headerLen
    let startFragment := headerLen + byteLen cfHtmlPrefix
    let endFragment := startFragment + byteLen html
    let endHtml := endFragment + byteLen cfHtmlSuffix
    .ok (encodeUtf8 (cfHtmlHeader startHtml endHtml startFragment endFragment ++ cfHtmlPrefix ++
      html ++ cfHtmlSuffix))

theorem newline_notMem_headerLine {label : String} (h : '\n' ∉ label.toList) (n : ℕ) :
    '\n' ∉ headerLine label n := by
  rw [headerLine, List.mem_append]
  rintro (hlabel | hdigits)
  · exact h hlabel
  · exact absurd (Text.isDigit_of_mem_padded hdigits) (by decide)

/-- The header's lines come first, and nothing in the document changes them. -/
theorem lines_cfHtmlHeader (startHtml endHtml startFragment endFragment : ℕ)
    (document : List Char) :
    Text.lines (cfHtmlHeader startHtml endHtml startFragment endFragment ++ document) =
      "Version:0.9".toList :: headerLine "StartHTML:" startHtml ::
        headerLine "EndHTML:" endHtml :: headerLine "StartFragment:" startFragment ::
          headerLine "EndFragment:" endFragment :: Text.lines document := by
  have hline : ∀ {line : List Char}, '\n' ∉ line → ∀ rest,
      Text.lines (crlfLine line ++ rest) = line :: Text.lines rest := by
    intro line hline rest
    rw [crlfLine, List.append_assoc]
    exact Text.lines_append_crlf hline rest
  rw [cfHtmlHeader]
  simp only [List.append_assoc]
  rw [hline (by decide), hline (newline_notMem_headerLine (by decide) _),
    hline (newline_notMem_headerLine (by decide) _),
    hline (newline_notMem_headerLine (by decide) _),
    hline (newline_notMem_headerLine (by decide) _)]

/-- The number on the first line with its label. -/
theorem parseHeaderValue_of_find? {text : List Char} {key : String} {n : ℕ} (hn : n < 2 ^ 64)
    (h : (Text.lines text).find? (fun line => key.toList.isPrefixOf line) =
      some (headerLine key n)) : parseHeaderValue text key = .ok n := by
  have hwhite : ∀ c ∈ Text.padded 8 n, Text.isWhitespace c = false := by
    intro c hc
    obtain ⟨hzero, hnine⟩ := Char.isDigit_iff_toNat.mp (Text.isDigit_of_mem_padded hc)
    change 48 ≤ c.val.toNat at hzero
    change c.val.toNat ≤ 57 at hnine
    rw [← Bool.not_eq_true]
    intro hspace
    simp only [Text.isWhitespace, Bool.or_eq_true, decide_eq_true_eq, UInt32.le_iff_toNat_le,
      ← UInt32.toNat_inj, UInt32.reduceToNat] at hspace
    omega
  rw [parseHeaderValue, h, Option.bind_some, headerLine, List.drop_left, Text.trim_eq_self hwhite,
    Text.parseUnsigned_padded hn]

theorem byteLen_padded {n : ℕ} (hn : n < 10 ^ 8) : byteLen (Text.padded 8 n) = 8 := by
  have hascii : ∀ c ∈ Text.padded 8 n, c.toNat < 0x80 := by
    intro c hc
    obtain ⟨-, hnine⟩ := Char.isDigit_iff_toNat.mp (Text.isDigit_of_mem_padded hc)
    exact Nat.lt_of_le_of_lt hnine (by decide)
  rw [byteLen_of_ascii hascii, Text.length_padded (by decide) hn]

/-- Offsets of up to eight digits fill their places in the template. -/
theorem byteLen_cfHtmlHeader {startHtml endHtml startFragment endFragment : ℕ}
    (hstartHtml : startHtml < 10 ^ 8) (hendHtml : endHtml < 10 ^ 8)
    (hstartFragment : startFragment < 10 ^ 8) (hendFragment : endFragment < 10 ^ 8) :
    byteLen (cfHtmlHeader startHtml endHtml startFragment endFragment) =
      byteLen cfHtmlHeaderTemplate := by
  have hline : ∀ (label : String) {n : ℕ}, n < 10 ^ 8 →
      byteLen (crlfLine (headerLine label n)) = byteLen label.toList + 8 + 2 := by
    intro label n hn
    rw [crlfLine, headerLine, byteLen_append, byteLen_append, byteLen_padded hn]
    rfl
  rw [cfHtmlHeader, byteLen_append, byteLen_append, byteLen_append, byteLen_append,
    hline _ hstartHtml, hline _ hendHtml, hline _ hstartFragment, hline _ hendFragment]
  decide +kernel

theorem byteLen_parts : byteLen cfHtmlHeaderTemplate = 97 ∧ byteLen cfHtmlPrefix = 32 ∧
    byteLen cfHtmlSuffix = 32 := by
  decide +kernel

/-- The decoder finds its two offsets in the encoder's header. -/
theorem parseHeaderValue_cfHtmlHeader (startHtml endHtml : ℕ) {startFragment endFragment : ℕ}
    (hstart : startFragment < 2 ^ 64) (hstop : endFragment < 2 ^ 64) (document : List Char) :
    parseHeaderValue
        (cfHtmlHeader startHtml endHtml startFragment endFragment ++ document) "StartFragment:" =
        .ok startFragment ∧
      parseHeaderValue
        (cfHtmlHeader startHtml endHtml startFragment endFragment ++ document) "EndFragment:" =
        .ok endFragment := by
  have hown : ∀ (label : String) (n : ℕ),
      label.toList.isPrefixOf (headerLine label n) = true := by
    intro label n
    rw [List.isPrefixOf_iff_prefix]
    exact List.prefix_append _ _
  constructor
  · refine parseHeaderValue_of_find? hstart ?_
    rw [lines_cfHtmlHeader, List.find?_cons_of_neg Bool.false_ne_true,
      List.find?_cons_of_neg Bool.false_ne_true, List.find?_cons_of_neg Bool.false_ne_true,
      List.find?_cons_of_pos (hown _ _)]
  · refine parseHeaderValue_of_find? hstop ?_
    rw [lines_cfHtmlHeader, List.find?_cons_of_neg Bool.false_ne_true,
      List.find?_cons_of_neg Bool.false_ne_true, List.find?_cons_of_neg Bool.false_ne_true,
      List.find?_cons_of_neg Bool.false_ne_true, List.find?_cons_of_pos (hown _ _)]

end FormatConverter

open FormatConverter in
/-- **The round trip.** Every text within the default converter's size comes back, whatever lines
it holds. -/
theorem cfHtml_htmlToCfHtml {html : List Char} (hne : html ≠ [])
    (hsize : byteLen html ≤ FormatConverter.new.maxSize) :
    (htmlToCfHtml .new html).bind cfHtmlToHtml = .ok html := by
  obtain ⟨htemplate, hprefix, hsuffix⟩ := byteLen_parts
  have hmax : FormatConverter.new.maxSize = 16777216 := rfl
  have hpos : 0 < byteLen html := by
    obtain ⟨c, cs, rfl⟩ := List.exists_cons_of_ne_nil hne
    rw [byteLen_cons]
    exact Nat.add_pos_left c.utf8Size_pos _
  rw [htmlToCfHtml, if_neg (by omega), htemplate, hprefix, hsuffix]
  simp only [Except.bind]
  generalize hheader : cfHtmlHeader 97 (97 + 32 + byteLen html + 32) (97 + 32)
    (97 + 32 + byteLen html) = header
  have hlength : byteLen header = 97 := by
    rw [← hheader, byteLen_cfHtmlHeader (by omega) (by omega) (by omega) (by omega), htemplate]
  have hstartBound : 97 + 32 < 2 ^ 64 := by omega
  have hstopBound : 97 + 32 + byteLen html < 2 ^ 64 := by omega
  obtain ⟨hstart, hstop⟩ := parseHeaderValue_cfHtmlHeader 97 (97 + 32 + byteLen html + 32)
    hstartBound hstopBound (cfHtmlPrefix ++ html ++ cfHtmlSuffix)
  rw [hheader, ← List.append_assoc, ← List.append_assoc] at hstart hstop
  have hslice := sliceBytes_append (header ++ cfHtmlPrefix) html cfHtmlSuffix
  change sliceBytes _ (byteLen (header ++ cfHtmlPrefix))
    (byteLen (header ++ cfHtmlPrefix ++ html)) = _ at hslice
  rw [byteLen_append, byteLen_append, byteLen_append, hlength, hprefix] at hslice
  have hdata : (encodeUtf8 (header ++ cfHtmlPrefix ++ html ++ cfHtmlSuffix)).length =
      97 + 32 + byteLen html + 32 := by
    change byteLen _ = _
    rw [byteLen_append, byteLen_append, byteLen_append, hlength, hprefix, hsuffix]
  rw [cfHtmlToHtml_of_declares (decodeUtf8_encodeUtf8 _) hstart hstop, if_neg (by omega), hslice]

/-- Lines that look like a header's, and a character of two bytes. -/
def mimicHtml : List Char := "StartFragment:7\r\nEndFragment:9\né".toList

theorem mimicHtml_roundTrip :
    (FormatConverter.htmlToCfHtml .new mimicHtml).bind FormatConverter.cfHtmlToHtml =
      .ok mimicHtml :=
  cfHtml_htmlToCfHtml (by decide +kernel) (by decide +kernel)

end Clipboard

end Cheirizo
