import Cheirizo.Clipboard.Converter

/-!
# Texts in code pages

The encoders of `FormatConverter` for the two code pages, in
`src/rdp/channels/clipboard/core/formats.rs`. A character without a byte becomes a question mark,
and the text gets a terminator. The terminator counts when the text is read back.

The encoder of Windows-1252 has a byte for every character of the page. That of the OEM page has
none for most of what is beyond Latin letters, and one that the page reads as something else: the
middle dot is written as the bullet operator.

## Main definitions

* `charToWindows1252`, `charToCp437` — the byte for a character
* `FormatConverter.textToAnsi`, `FormatConverter.textToOem`

## Main results

* `ansi_roundTrip_iff`, `oem_roundTrip_iff` — exactly which texts come back
-/

namespace Cheirizo

namespace Clipboard

/-! ### Encoders -/

/-- The code points above ASCII that are not their own bytes. -/
def windows1252Codes : List (ℕ × UInt8) := [
    (0x20AC, 128), (0x201A, 130), (0x0192, 131), (0x201E, 132), (0x2026, 133), (0x2020, 134),
    (0x2021, 135), (0x02C6, 136), (0x2030, 137), (0x0160, 138), (0x2039, 139), (0x0152, 140),
    (0x017D, 142), (0x2018, 145), (0x2019, 146), (0x201C, 147), (0x201D, 148), (0x2022, 149),
    (0x2013, 150), (0x2014, 151), (0x02DC, 152), (0x2122, 153), (0x0161, 154), (0x203A, 155),
    (0x0153, 156), (0x017E, 158), (0x0178, 159)]

/-- A question mark stands for what the page does not have. -/
def charToWindows1252 (c : Char) : UInt8 :=
  if c.toNat < 128 then .ofNat c.toNat
  else
    match windows1252Codes.lookup c.toNat with
    | some b => b
    | none => if 160 ≤ c.toNat ∧ c.toNat ≤ 255 then .ofNat c.toNat else 63

/-- The upper half of the code page, the other way. -/
def cp437Codes : List (ℕ × UInt8) := [
    (0x00C7, 128), (0x00FC, 129), (0x00E9, 130), (0x00E2, 131), (0x00E4, 132), (0x00E0, 133),
    (0x00E5, 134), (0x00E7, 135), (0x00EA, 136), (0x00EB, 137), (0x00E8, 138), (0x00EF, 139),
    (0x00EE, 140), (0x00EC, 141), (0x00C4, 142), (0x00C5, 143), (0x00C9, 144), (0x00E6, 145),
    (0x00C6, 146), (0x00F4, 147), (0x00F6, 148), (0x00F2, 149), (0x00FB, 150), (0x00F9, 151),
    (0x00FF, 152), (0x00D6, 153), (0x00DC, 154), (0x00A2, 155), (0x00A3, 156), (0x00A5, 157),
    (0x20A7, 158), (0x0192, 159), (0x00E1, 160), (0x00ED, 161), (0x00F3, 162), (0x00FA, 163),
    (0x00F1, 164), (0x00D1, 165), (0x00AA, 166), (0x00BA, 167), (0x00BF, 168), (0x00A1, 173),
    (0x00AB, 174), (0x00BB, 175), (0x00B0, 248), (0x00B7, 249), (0x00B2, 253)]

/-- A question mark stands for what the page does not have. -/
def charToCp437 (c : Char) : UInt8 :=
  if c.toNat < 127 then .ofNat c.toNat
  else
    match cp437Codes.lookup c.toNat with
    | some b => b
    | none => 63

namespace FormatConverter

variable (converter : FormatConverter)

/-- The encoder for a code page: a terminator comes last. -/
def textToCodePage (encode : Char → UInt8) (text : List Char) :
    Except ConversionError (List UInt8) :=
  if converter.maxSize < byteLen text then
    .error (.dataSizeExceeded (byteLen text) converter.maxSize)
  else .ok (text.map encode ++ [0])

/-- Text in the code page of the system. -/
def textToAnsi (text : List Char) : Except ConversionError (List UInt8) :=
  converter.textToCodePage charToWindows1252 text

/-- Text in the code page of the console. -/
def textToOem (text : List Char) : Except ConversionError (List UInt8) :=
  converter.textToCodePage charToCp437 text

/-! ### Round trips -/

/-- A text comes back if each of its characters does and there is room for the terminator. -/
theorem codePage_roundTrip_iff {page : CodePage} {encode : Char → UInt8} {text : List Char} :
    (converter.textToCodePage encode text).bind (converter.codePageToText page) = .ok text ↔
      byteLen text ≤ converter.maxSize ∧ text.length < converter.maxSize ∧
        ∀ c ∈ text, page (encode c) = c := by
  rw [textToCodePage]
  split_ifs with hsize
  · exact iff_of_false nofun fun h => absurd h.1 (Nat.not_le.mpr hsize)
  · rw [and_iff_right (Nat.not_lt.mp hsize), Except.bind, codePageToText_eq_ok,
      List.getLast?_concat, if_pos rfl, List.dropLast_concat, List.length_append, List.length_map,
      List.map_map, List.length_singleton, Nat.succ_le_iff]
    refine and_congr_right fun _ => ?_
    nth_rewrite 2 [← List.map_id text]
    exact List.map_inj_left

end FormatConverter

/-- The text comes back. -/
def AnsiRoundTrips (converter : FormatConverter) (text : List Char) : Prop :=
  (converter.textToAnsi text).bind converter.ansiToText = .ok text

/-- The text is read back as it was written. -/
def OemRoundTrips (converter : FormatConverter) (text : List Char) : Prop :=
  (converter.textToOem text).bind converter.oemToText = .ok text

/-- A byte is written for every character of Windows-1252. -/
theorem windows1252ToChar_charToWindows1252 {c : Char} :
    windows1252ToChar (charToWindows1252 c) = c ↔ ∃ b, windows1252ToChar b = c := by
  have hbyte : ∀ b, windows1252ToChar (charToWindows1252 (windows1252ToChar b)) =
      windows1252ToChar b := forall_byte (by decide +kernel)
  constructor
  · exact fun h => ⟨_, h⟩
  · rintro ⟨b, rfl⟩
    exact hbyte b

/-- **Texts in Windows-1252.** Exactly the texts of characters of the page come back, if they are
not too large and leave room for the terminator. -/
theorem ansi_roundTrip_iff {converter : FormatConverter} {text : List Char} :
    AnsiRoundTrips converter text ↔ byteLen text ≤ converter.maxSize ∧
      text.length < converter.maxSize ∧ ∀ c ∈ text, ∃ b, windows1252ToChar b = c := by
  simp only [← windows1252ToChar_charToWindows1252]
  exact converter.codePage_roundTrip_iff

/-- The characters above ASCII that the OEM page gives back: the Latin letters with the signs that
follow them, and five more. -/
def cp437Kept : List Char := cp437High.take 41 ++ ['¡', '«', '»', '°', '²']

theorem cp437ToChar_of_mem {n : ℕ} {b : UInt8} (h : (n, b) ∈ cp437Codes)
    (hkept : cp437ToChar b = Char.ofNat n) : Char.ofNat n ∈ cp437Kept := by
  have hall : ∀ p ∈ cp437Codes, cp437ToChar p.2 = Char.ofNat p.1 → Char.ofNat p.1 ∈ cp437Kept := by
    decide +kernel
  exact hall (n, b) h hkept

theorem cp437ToChar_ofNat {n : ℕ} (hn : n < 127) : cp437ToChar (.ofNat n) = Char.ofNat n := by
  have hbyte : (UInt8.ofNat n).toNat = n := UInt8.toNat_ofNat_of_lt' (Nat.lt_trans hn (by decide))
  have hascii : UInt8.ofNat n < 127 := UInt8.lt_iff_toNat_lt.mpr (by rwa [hbyte])
  simp only [cp437ToChar]
  rw [if_pos hascii, ite_self, hbyte]

theorem cp437ToChar_charToCp437 {c : Char} :
    cp437ToChar (charToCp437 c) = c ↔ c.toNat < 127 ∨ c ∈ cp437Kept := by
  constructor
  · intro h
    by_cases hascii : c.toNat < 127
    · exact Or.inl hascii
    rw [charToCp437, if_neg hascii] at h
    split at h
    · rename_i b hb
      obtain ⟨before, after, hcodes, -⟩ := List.lookup_eq_some_iff.mp hb
      have hmem : (c.toNat, b) ∈ cp437Codes := by
        rw [hcodes]
        exact List.mem_append_right before (List.mem_cons_self ..)
      have hc : Char.ofNat c.toNat = c := Char.ofNat_toNat c
      exact Or.inr (hc ▸ cp437ToChar_of_mem hmem (hc.symm ▸ h))
    · rw [← h] at hascii
      exact absurd (by decide) hascii
  · rintro (hascii | hkept)
    · rw [charToCp437, if_pos hascii, cp437ToChar_ofNat hascii, Char.ofNat_toNat]
    · have hall : (cp437Kept.all fun d => cp437ToChar (charToCp437 d) == d) = true := by
        decide +kernel
      exact eq_of_beq (List.all_eq_true.mp hall c hkept)

/-- **Texts in the OEM page.** Exactly the texts of ASCII and of those few characters come back, if
they are not too large and leave room for the terminator. So most characters of the page do not. -/
theorem oem_roundTrip_iff {converter : FormatConverter} {text : List Char} :
    OemRoundTrips converter text ↔ byteLen text ≤ converter.maxSize ∧
      text.length < converter.maxSize ∧ ∀ c ∈ text, c.toNat < 127 ∨ c ∈ cp437Kept := by
  simp only [← cp437ToChar_charToCp437]
  exact converter.codePage_roundTrip_iff

/-- The middle dot has a byte of the page, but is read back as another character. -/
example : (∃ b, cp437ToChar b = '·') ∧ cp437ToChar (charToCp437 '·') = '∙' :=
  ⟨⟨250, by decide +kernel⟩, by decide +kernel⟩

end Clipboard

end Cheirizo
