import Cheirizo.Clipboard.Sanitize
import Mathlib.Algebra.Group.Nat.Defs

/-!
# The format converter

The text decoders of `FormatConverter` in `src/rdp/channels/clipboard/core/formats.rs`: what a
format with text means. The clipboard manager has a converter and does not call it; it converts text
on its own. The decoders are what its conversions are compared with.

## Main definitions

* `FormatConverter.unicodeToText`, `FormatConverter.ansiToText`, `FormatConverter.oemToText`
* `FormatConverter.cfHtmlToHtml` — the fragment of an HTML document with a header
* `CodePage.Sane` — what the two code pages have in common
-/

namespace Cheirizo

namespace Clipboard

open Unicode

/-! ### Code pages -/

/-- What each byte stands for. -/
abbrev CodePage : Type := UInt8 → Char

/-- The code page of Western Windows. Its holes are read as they are. -/
def windows1252ToChar : CodePage := fun b =>
  if b < 128 then Char.ofNat b.toNat
  else if 160 ≤ b then Char.ofNat b.toNat
  else
    match b with
    | 128 => '€'
    | 130 => '‚'
    | 131 => 'ƒ'
    | 132 => '„'
    | 133 => '…'
    | 134 => '†'
    | 135 => '‡'
    | 136 => 'ˆ'
    | 137 => '‰'
    | 138 => 'Š'
    | 139 => '‹'
    | 140 => 'Œ'
    | 142 => 'Ž'
    | 145 => '‘'
    | 146 => '’'
    | 147 => '“'
    | 148 => '”'
    | 149 => '•'
    | 150 => '–'
    | 151 => '—'
    | 152 => '˜'
    | 153 => '™'
    | 154 => 'š'
    | 155 => '›'
    | 156 => 'œ'
    | 158 => 'ž'
    | 159 => 'Ÿ'
    | _ => '?'

/-- The upper half of the code page of the console. -/
def cp437High : List Char := [
    'Ç', 'ü', 'é', 'â', 'ä', 'à', 'å', 'ç', 'ê', 'ë', 'è', 'ï', 'î', 'ì', 'Ä', 'Å',
    'É', 'æ', 'Æ', 'ô', 'ö', 'ò', 'û', 'ù', 'ÿ', 'Ö', 'Ü', '¢', '£', '¥', '₧', 'ƒ',
    'á', 'í', 'ó', 'ú', 'ñ', 'Ñ', 'ª', 'º', '¿', '⌐', '¬', '½', '¼', '¡', '«', '»',
    '░', '▒', '▓', '│', '┤', '╡', '╢', '╖', '╕', '╣', '║', '╗', '╝', '╜', '╛', '┐',
    '└', '┴', '┬', '├', '─', '┼', '╞', '╟', '╚', '╔', '╩', '╦', '╠', '═', '╬', '╧',
    '╨', '╤', '╥', '╙', '╘', '╒', '╓', '╫', '╪', '┘', '┌', '█', '▄', '▌', '▐', '▀',
    'α', 'ß', 'Γ', 'π', 'Σ', 'σ', 'µ', 'τ', 'Φ', 'Θ', 'Ω', 'δ', '∞', 'φ', 'ε', '∩',
    '≡', '±', '≥', '≤', '⌠', '⌡', '÷', '≈', '°', '∙', '·', '√', 'ⁿ', '²', '■', ' ']

/-- The code page of the console. Control characters are read as they are. -/
def cp437ToChar : CodePage := fun b =>
  if b < 32 then Char.ofNat b.toNat
  else if b < 127 then Char.ofNat b.toNat
  else if b = 127 then '⌂'
  else cp437High.getD (b.toNat - 128) ' '

namespace CodePage

/-- No byte stands for this character. -/
def Lacks (page : CodePage) (c : Char) : Prop := ∀ b, page b ≠ c

/-- Controls are where ASCII has them and nowhere else, the rest of ASCII is there or lacking, and a
byte for something beyond Latin-1 is not the low byte of its code point. -/
structure Sane (page : CodePage) : Prop where
  control : ∀ b, b.toNat < 32 ∨ (page b).toNat < 32 → page b = Char.ofNat b.toNat
  ascii : ∀ b, b.toNat < 128 → page b = Char.ofNat b.toNat ∨
    ∀ n < 256, page (UInt8.ofNat n) ≠ Char.ofNat b.toNat
  beyond : ∀ b, (page b).toNat < 256 ∨ (page b).toNat < 0xD800 ∧ (page b).toNat % 256 ≠ b.toNat

end CodePage

theorem forall_byte {P : UInt8 → Prop} (h : ∀ n < 256, P (UInt8.ofNat n)) (b : UInt8) : P b := by
  have hb : UInt8.ofNat b.toNat = b := UInt8.ofNat_toNat
  exact hb ▸ h b.toNat b.toNat_lt

theorem sane_windows1252 : CodePage.Sane windows1252ToChar where
  control := forall_byte (by decide +kernel)
  ascii := forall_byte (by decide +kernel)
  beyond := forall_byte (by decide +kernel)

theorem sane_cp437 : CodePage.Sane cp437ToChar where
  control := forall_byte (by decide +kernel)
  ascii := forall_byte (by decide +kernel)
  beyond := forall_byte (by decide +kernel)

/-! ### The converter -/

/-- Why a conversion has no result. -/
inductive ConversionError where
  | dataSizeExceeded (actual max : ℕ)
  | invalidUtf16
  | invalidUtf8
  | formatConversion (message : String)
  /-- A slice that cuts a character panics. -/
  | panic
  deriving DecidableEq, Repr

/-- The conversions, up to a size. -/
structure FormatConverter where
  /-- The most bytes a conversion takes. -/
  maxSize : ℕ
  deriving DecidableEq, Repr

namespace FormatConverter

/-- Sixteen mebibytes. -/
def new : FormatConverter := ⟨16 * 1024 * 1024⟩

variable (converter : FormatConverter)

/-- UTF-16, with or without a zero behind it. -/
def unicodeToText (data : List UInt8) : Except ConversionError (List Char) :=
  if converter.maxSize < data.length then
    .error (.dataSizeExceeded data.length converter.maxSize)
  else if data.length % 2 ≠ 0 then .error .invalidUtf16
  else
    let units := unitsOfLe data
    match decodeUtf16 (if units.getLast? = some 0 then units.dropLast else units) with
    | some text => .ok text
    | none => .error .invalidUtf16

/-- The decoder of a code page: a terminator goes. -/
def codePageToText (page : CodePage) (data : List UInt8) : Except ConversionError (List Char) :=
  if converter.maxSize < data.length then
    .error (.dataSizeExceeded data.length converter.maxSize)
  else .ok ((if data.getLast? = some 0 then data.dropLast else data).map page)

/-- Text in the code page of the system. -/
def ansiToText (data : List UInt8) : Except ConversionError (List Char) :=
  converter.codePageToText windows1252ToChar data

/-- Text in the code page of the console. -/
def oemToText (data : List UInt8) : Except ConversionError (List Char) :=
  converter.codePageToText cp437ToChar data

/-- The number after `key`, on the first line that starts with it. -/
def parseHeaderValue (text : List Char) (key : String) : Except ConversionError ℕ :=
  match ((Text.lines text).find? fun line => key.toList.isPrefixOf line).bind fun line =>
    Text.parseUnsigned (2 ^ 64) (Text.trim (line.drop key.toList.length)) with
  | some n => .ok n
  | none => .error (.formatConversion ("missing " ++ key ++ " header"))

/-- Split a text after a number of bytes, which must not end inside a character. -/
def splitAtByte : ℕ → List Char → Option (List Char × List Char)
  | 0, cs => some ([], cs)
  | _ + 1, [] => none
  | n + 1, c :: cs =>
    if c.utf8Size ≤ n + 1 then
      (splitAtByte (n + 1 - c.utf8Size) cs).map fun parts => (c :: parts.1, parts.2)
    else none

/-- `text[start..stop]`, in bytes. -/
def sliceBytes (text : List Char) (start stop : ℕ) : Option (List Char) := do
  let front ← splitAtByte stop text
  let slice ← splitAtByte start front.1
  return slice.2

/-- The fragment that the header describes, by offsets in bytes. -/
def cfHtmlToHtml (data : List UInt8) : Except ConversionError (List Char) :=
  match decodeUtf8 data with
  | none => .error .invalidUtf8
  | some text =>
    match parseHeaderValue text "StartFragment:" with
    | .error e => .error e
    | .ok start =>
      match parseHeaderValue text "EndFragment:" with
      | .error e => .error e
      | .ok stop =>
        if stop ≤ start ∨ data.length < stop then
          .error (.formatConversion "invalid CF_HTML offsets")
        else
          match sliceBytes text start stop with
          | some fragment => .ok fragment
          | none => .error .panic

/-! ### What the decoders return -/

variable {converter}

theorem codePageToText_eq_ok {page : CodePage} {data : List UInt8} {text : List Char} :
    converter.codePageToText page data = .ok text ↔ data.length ≤ converter.maxSize ∧
      (if data.getLast? = some 0 then data.dropLast else data).map page = text := by
  rw [codePageToText]
  split_ifs with h <;> simp <;> omega

theorem splitAtByte_eq_some {n : ℕ} {cs front rest : List Char}
    (h : splitAtByte n cs = some (front, rest)) :
    cs = front ++ rest ∧ (encodeUtf8 front).length = n := by
  induction cs generalizing n front with
  | nil =>
    cases n with
    | zero =>
      cases h
      exact ⟨rfl, rfl⟩
    | succ n => cases h
  | cons c cs ih =>
    cases n with
    | zero =>
      cases h
      exact ⟨rfl, rfl⟩
    | succ n =>
      rw [splitAtByte] at h
      split at h
      · obtain ⟨⟨front', rest'⟩, hsplit, hparts⟩ := Option.map_eq_some_iff.mp h
        cases hparts
        obtain ⟨rfl, hlength⟩ := ih hsplit
        refine ⟨rfl, ?_⟩
        rw [encodeUtf8_cons, List.length_append, String.length_utf8EncodeChar, hlength]
        omega
      · cases h

theorem splitAtByte_append (front rest : List Char) :
    splitAtByte (encodeUtf8 front).length (front ++ rest) = some (front, rest) := by
  induction front with
  | nil => cases rest <;> rfl
  | cons c front ih =>
    have hc : 0 < c.utf8Size := c.utf8Size_pos
    rw [encodeUtf8_cons, List.length_append, String.length_utf8EncodeChar, List.cons_append]
    obtain ⟨n, hn⟩ : ∃ n, c.utf8Size + (encodeUtf8 front).length = n + 1 :=
      ⟨c.utf8Size + (encodeUtf8 front).length - 1, by omega⟩
    rw [hn, splitAtByte, if_pos (by omega), ← hn, Nat.add_sub_cancel_left, ih]
    rfl

theorem sliceBytes_eq_some {text slice : List Char} {start stop : ℕ}
    (h : sliceBytes text start stop = some slice) :
    ∃ front rest, text = front ++ slice ++ rest ∧ (encodeUtf8 front).length = start ∧
      (encodeUtf8 (front ++ slice)).length = stop := by
  obtain ⟨⟨upTo, rest⟩, hstop, h⟩ := Option.bind_eq_some_iff.mp h
  obtain ⟨⟨front, slice'⟩, hstart, h⟩ := Option.bind_eq_some_iff.mp h
  cases h
  obtain ⟨rfl, hlength⟩ := splitAtByte_eq_some hstop
  obtain ⟨rfl, hlength'⟩ := splitAtByte_eq_some hstart
  exact ⟨front, rest, rfl, hlength', hlength⟩

theorem sliceBytes_whole (text : List Char) :
    sliceBytes text 0 (encodeUtf8 text).length = some text := by
  have hall : splitAtByte (encodeUtf8 text).length text = some (text, []) := by
    rw [← splitAtByte_append text [], List.append_nil]
  have hnone : splitAtByte 0 text = some ([], text) := by
    cases text <;> rfl
  rw [sliceBytes, hall]
  show (splitAtByte 0 text).bind _ = _
  rw [hnone]
  rfl

end FormatConverter

end Clipboard

end Cheirizo
