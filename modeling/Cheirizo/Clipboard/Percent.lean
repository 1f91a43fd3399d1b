import Cheirizo.Clipboard.Converter
import Cheirizo.Clipboard.Names

/-!
# Percent-decoding, twice

A file URI is decoded by `percent_decode` of `src/rdp/channels/clipboard/core/sanitize.rs`, which
reads characters, and by `percent_decode` of `core/formats.rs`, which reads bytes. Both read the two
characters after a percent sign as a number, and `u8::from_str_radix` takes a plus sign and a digit
for one. The second decoder steps over a percent sign that is not followed by a number; the first
takes the two characters after it along, and if one of them is the percent sign of an escape, the
escape is lost.

What is written to a URI is read as a list of *marks*: characters, and the bytes of escapes. Each
decoder is compared with what its marks say, and the marks with the escapes of two hexadecimal
digits.

## Main definitions

* `Formats.percentDecode`, `Formats.percentEncode`
* `marks`, `markBytes`, `markText` — what a text with escapes stands for
* `Plain`, `aligned`, `unbroken` — texts whose marks the decoders read alike
* `OneDecoding`

## Main results

* `Formats.percentDecode_eq` — the decoder of bytes reads all marks
* `percentDecode_eq_iff` — the decoder of characters reads them if it loses no escape
* `one_decoding_iff` — when the two decoders are one
-/

namespace Cheirizo

namespace Clipboard

open Unicode

/-! ### The decoder of bytes -/

namespace Formats

/-- `u8::from_str_radix(_, 16)` on two bytes, which have to be a text. -/
def hexOctet (a b : UInt8) : Option UInt8 :=
  match decodeUtf8 [a, b] with
  | some [x, y] => hexByte x y
  | _ => none

/-- What is no escape stands for itself. -/
def percentDecodeBytes : List UInt8 → List UInt8
  | [] => []
  | a :: rest =>
    if a = 0x25 then
      match rest with
      | b :: c :: rest₂ =>
        match hexOctet b c with
        | some byte => byte :: percentDecodeBytes rest₂
        | none => a :: percentDecodeBytes (b :: c :: rest₂)
      | short => a :: short
    else a :: percentDecodeBytes rest

/-- The bytes have to be text in the end. -/
def percentDecode (input : List Char) : Except ConversionError (List Char) :=
  match decodeUtf8 (percentDecodeBytes (encodeUtf8 input)) with
  | some text => .ok text
  | none => .error .invalidUtf8

/-- Letters, digits and `-._~/:` are written as they are. -/
def keepsByte (b : UInt8) : Bool :=
  (0x41 ≤ b && b ≤ 0x5A) || (0x61 ≤ b && b ≤ 0x7A) || (0x30 ≤ b && b ≤ 0x39) ||
    "-._~/:".toList.any fun c => c.toNat = b.toNat

/-- A byte that may not stay is written in upper case. -/
def percentEncodeByte (b : UInt8) : List Char :=
  if keepsByte b then [Char.ofNat b.toNat]
  else ['%', upperHex (b.toNat / 16), upperHex (b.toNat % 16)]

/-- Every byte of the text by itself. -/
def percentEncode (input : List Char) : List Char := (encodeUtf8 input).flatMap percentEncodeByte

end Formats

/-! ### Marks -/

/-- Two hexadecimal digits. -/
def hexPair (a b : Char) : Option UInt8 := do
  return UInt8.ofNat (16 * (← hexDigit a) + (← hexDigit b))

/-- The characters of a text and the bytes of its escapes. An escape is a percent sign with two
characters that `read` makes a byte of. -/
def marks (read : Char → Char → Option UInt8) : List Char → List (Char ⊕ UInt8)
  | [] => []
  | c :: rest =>
    if c = '%' then
      match rest with
      | a :: b :: rest₂ =>
        match read a b with
        | some byte => .inr byte :: marks read rest₂
        | none => .inl c :: marks read (a :: b :: rest₂)
      | short => .inl c :: short.map .inl
    else .inl c :: marks read rest

/-- An escape begins here. -/
def startsEscape (read : Char → Char → Option UInt8) : List Char → Bool
  | '%' :: a :: b :: _ => (read a b).isSome
  | _ => false

/-- What a mark stands for: a character, or one byte. -/
def markByte : Char ⊕ UInt8 → List UInt8
  | .inl c => String.utf8EncodeChar c
  | .inr b => [b]

/-- The bytes that the marks stand for. -/
def markBytes (ms : List (Char ⊕ UInt8)) : List UInt8 := ms.flatMap markByte

/-- The text that the marks stand for, after the bytes of an unfinished character. Bytes that do not
become a character are replaced together. -/
def markText : List UInt8 → List (Char ⊕ UInt8) → List Char
  | pending, [] => if pending = [] then [] else [replacement]
  | pending, .inl c :: ms => (if pending = [] then [] else [replacement]) ++ c :: markText [] ms
  | pending, .inr b :: ms =>
    match decodeUtf8 (pending ++ [b]) with
    | some cs => cs ++ markText [] ms
    | none => markText (pending ++ [b]) ms

section Marks

variable {read : Char → Char → Option UInt8}

/-- An escape is one mark. -/
theorem marks_escape {a b : Char} {byte : UInt8} (h : read a b = some byte) (rest : List Char) :
    marks read ('%' :: a :: b :: rest) = .inr byte :: marks read rest := by
  rw [marks, if_pos rfl]
  simp only [h]

/-- What starts no escape stands for itself. -/
theorem marks_keep {c : Char} {rest : List Char} (h : startsEscape read (c :: rest) = false) :
    marks read (c :: rest) = .inl c :: marks read rest := by
  match rest with
  | [] => rw [marks.eq_def]; dsimp only; split_ifs <;> rfl
  | [d] => simp [marks]
  | a :: b :: rest₂ =>
    rw [marks]
    split_ifs with hc
    · subst hc
      have hnone : read a b = none := by simpa [startsEscape] using h
      simp only [hnone]
    · rfl

/-- What an escape looks like. -/
theorem eq_of_startsEscape {cs : List Char} (h : startsEscape read cs = true) :
    ∃ a b byte rest, cs = '%' :: a :: b :: rest ∧ read a b = some byte := by
  rw [startsEscape.eq_def] at h
  split at h
  · rename_i a b rest
    obtain ⟨byte, hbyte⟩ := Option.isSome_iff_exists.mp h
    exact ⟨a, b, byte, rest, rfl, hbyte⟩
  · exact absurd h Bool.false_ne_true

/-- A text is empty, or starts with an escape, or with a character that starts none. -/
theorem marks_cases (read : Char → Char → Option UInt8) (cs : List Char) :
    cs = [] ∨ (∃ a b byte rest, cs = '%' :: a :: b :: rest ∧ read a b = some byte) ∨
      ∃ c rest, cs = c :: rest ∧ startsEscape read (c :: rest) = false := by
  cases cs with
  | nil => exact Or.inl rfl
  | cons c rest =>
    refine Or.inr ?_
    cases hstarts : startsEscape read (c :: rest) with
    | false => exact Or.inr ⟨c, rest, rfl, hstarts⟩
    | true => exact Or.inl (eq_of_startsEscape hstarts)

theorem startsEscape_of_ne {c : Char} (h : c ≠ '%') (rest : List Char) :
    startsEscape read (c :: rest) = false := by
  rw [startsEscape.eq_2]
  rintro a b rest₂ heq
  exact h (List.cons.inj heq).1

theorem startsEscape_percent (a b : Char) (rest : List Char) :
    startsEscape read ('%' :: a :: b :: rest) = (read a b).isSome := rfl

/-- The bytes of the marks follow one another. -/
theorem markBytes_cons (m : Char ⊕ UInt8) (ms : List (Char ⊕ UInt8)) :
    markBytes (m :: ms) = markByte m ++ markBytes ms := rfl

end Marks

/-! ### Hexadecimal digits -/

/-- A digit is an ASCII character with a value below sixteen. -/
theorem hexDigit_bounds {c : Char} {n : ℕ} (h : hexDigit c = some n) :
    n < 16 ∧ 0x30 ≤ c.toNat ∧ c.toNat < 0x80 := by
  have hle : ∀ a b : Char, a ≤ b ↔ a.toNat ≤ b.toNat := fun a b => Iff.rfl
  rw [hexDigit] at h
  simp only [hle] at h
  have hzero : '0'.toNat = 48 ∧ '9'.toNat = 57 ∧ 'a'.toNat = 97 ∧ 'f'.toNat = 102 ∧
      'A'.toNat = 65 ∧ 'F'.toNat = 70 := by decide
  split_ifs at h <;> rw [Option.some.injEq] at h <;> omega

/-- What is written as a digit is read as one. -/
theorem hexDigit_upperHex : ∀ n < 16, hexDigit (upperHex n) = some n := by decide

/-- Only a plus sign makes a difference. -/
theorem hexByte_of_ne {a : Char} (h : a ≠ '+') (b : Char) : hexByte a b = hexPair a b := if_neg h

theorem hexPair_eq_some {a b : Char} {byte : UInt8} (h : hexPair a b = some byte) :
    ∃ m n, hexDigit a = some m ∧ hexDigit b = some n ∧ byte = UInt8.ofNat (16 * m + n) := by
  obtain ⟨m, hm, h⟩ := Option.bind_eq_some_iff.mp h
  obtain ⟨n, hn, h⟩ := Option.bind_eq_some_iff.mp h
  exact ⟨m, n, hm, hn, (Option.some.inj h).symm⟩

/-- Two hexadecimal digits, or a plus sign and one. -/
theorem hexByte_eq_some {a b : Char} {byte : UInt8} (h : hexByte a b = some byte) :
    (a ≠ '+' ∧ hexPair a b = some byte) ∨
      (a = '+' ∧ ∃ n, hexDigit b = some n ∧ byte.toNat = n ∧ n < 16) := by
  by_cases ha : a = '+'
  · refine Or.inr ⟨ha, ?_⟩
    rw [hexByte, if_pos ha] at h
    obtain ⟨n, hn, rfl⟩ := Option.map_eq_some_iff.mp h
    have hlt := (hexDigit_bounds hn).1
    exact ⟨n, hn, toNat_byte (by omega), hlt⟩
  · exact Or.inl ⟨ha, hexByte_of_ne ha b ▸ h⟩

/-- Characters that make a byte are ASCII, and no percent signs. -/
theorem hexByte_ascii {a b : Char} {byte : UInt8} (h : hexByte a b = some byte) :
    (a.toNat < 0x80 ∧ a ≠ '%') ∧ b.toNat < 0x80 ∧ b ≠ '%' := by
  have hdigit : ∀ {c : Char} {n : ℕ}, hexDigit c = some n → c.toNat < 0x80 ∧ c ≠ '%' := by
    intro c n hc
    obtain ⟨-, hmin, hmax⟩ := hexDigit_bounds hc
    refine ⟨hmax, ?_⟩
    rintro rfl
    exact absurd hmin (by decide)
  obtain ⟨-, hpair⟩ | ⟨rfl, n, hn, -⟩ := hexByte_eq_some h
  · obtain ⟨m, n, hm, hn, -⟩ := hexPair_eq_some hpair
    exact ⟨hdigit hm, hdigit hn⟩
  · exact ⟨by decide, hdigit hn⟩

/-! ### The decoder of bytes reads all marks -/

/-- A text that is encoded with an ASCII byte in front has its character in front. -/
theorem eq_cons_of_encodeUtf8 {a : Char} (ha : a.toNat < 0x80) {cs : List Char} {bs : List UInt8}
    (h : encodeUtf8 cs = UInt8.ofNat a.toNat :: bs) :
    ∃ rest, cs = a :: rest ∧ encodeUtf8 rest = bs := by
  cases cs with
  | nil => exact absurd h (List.cons_ne_nil _ _).symm
  | cons c rest =>
    rw [encodeUtf8_cons] at h
    have hbyte : (UInt8.ofNat a.toNat).toNat = a.toNat := toNat_byte (by omega)
    by_cases hc : c.toNat < 0x80
    · rw [encodeChar_of_ascii hc, List.singleton_append] at h
      obtain ⟨hhead, htail⟩ := List.cons.inj h
      have hnat := congrArg UInt8.toNat hhead
      rw [hbyte, toNat_byte (by omega)] at hnat
      exact ⟨rest, by rw [Char.toNat_inj.mp hnat], htail⟩
    · obtain ⟨lead, tail, hlead, -⟩ := encodeChar_eq_cons c
      have hmem : lead ∈ String.utf8EncodeChar c := hlead ▸ List.mem_cons_self
      have hle := le_of_mem_encodeChar hc hmem
      rw [hlead, List.cons_append] at h
      rw [(List.cons.inj h).1, hbyte] at hle
      exact absurd ha (by omega)

namespace Formats

/-- Two bytes are read as the two characters are. -/
theorem hexOctet_ascii {a b : Char} (ha : a.toNat < 0x80) (hb : b.toNat < 0x80) :
    hexOctet (UInt8.ofNat a.toNat) (UInt8.ofNat b.toNat) = hexByte a b := by
  have hencode : encodeUtf8 [a, b] = [UInt8.ofNat a.toNat, UInt8.ofNat b.toNat] := by
    rw [encodeUtf8_of_ascii (by simp [ha, hb])]
    rfl
  rw [hexOctet, ← hencode, decodeUtf8_encodeUtf8]

/-- Bytes that are read as a number are those of two characters that are. -/
theorem hexOctet_eq_some {x y byte : UInt8} (h : hexOctet x y = some byte) :
    ∃ a b, x = UInt8.ofNat a.toNat ∧ y = UInt8.ofNat b.toNat ∧ hexByte a b = some byte := by
  rw [hexOctet] at h
  split at h
  · rename_i a b hdecode
    obtain ⟨⟨ha, -⟩, hb, -⟩ := hexByte_ascii h
    have hencode := encodeUtf8_of_decodeUtf8 hdecode
    rw [encodeUtf8_of_ascii (by simp [ha, hb])] at hencode
    obtain ⟨hx, hrest⟩ := List.cons.inj hencode
    exact ⟨a, b, hx.symm, (List.cons.inj hrest).1.symm, h⟩
  · cases h

/-- Bytes without a percent sign are passed on. -/
theorem percentDecodeBytes_append {bs : List UInt8} (h : 0x25 ∉ bs) (rest : List UInt8) :
    percentDecodeBytes (bs ++ rest) = bs ++ percentDecodeBytes rest := by
  induction bs with
  | nil => rfl
  | cons b bs ih =>
    obtain ⟨hb, hbs⟩ : ¬ 0x25 = b ∧ 0x25 ∉ bs := by simpa using h
    rw [List.cons_append, percentDecodeBytes.eq_def]
    dsimp only
    rw [if_neg (Ne.symm hb), ih hbs, List.cons_append]

/-- A percent sign that starts no escape is kept. -/
theorem percentDecodeBytes_percent {rest : List Char}
    (h : startsEscape hexByte ('%' :: rest) = false) :
    percentDecodeBytes (0x25 :: encodeUtf8 rest) =
      0x25 :: percentDecodeBytes (encodeUtf8 rest) := by
  generalize hbytes : encodeUtf8 rest = bytes
  match bytes with
  | [] => rfl
  | [x] => simp [percentDecodeBytes]
  | x :: y :: more =>
    rw [percentDecodeBytes, if_pos rfl]
    cases hoctet : hexOctet x y with
    | none => rfl
    | some byte =>
      obtain ⟨a, b, rfl, rfl, hread⟩ := hexOctet_eq_some hoctet
      obtain ⟨⟨ha, -⟩, hb, -⟩ := hexByte_ascii hread
      obtain ⟨rest₂, rfl, hrest⟩ := eq_cons_of_encodeUtf8 ha hbytes
      obtain ⟨rest₃, rfl, -⟩ := eq_cons_of_encodeUtf8 hb hrest
      rw [startsEscape_percent, hread] at h
      exact absurd h (by simp)

/-- **The decoder of bytes reads all marks.** -/
theorem percentDecodeBytes_encodeUtf8 (cs : List Char) :
    percentDecodeBytes (encodeUtf8 cs) = markBytes (marks hexByte cs) := by
  induction hn : cs.length using Nat.strong_induction_on generalizing cs with
  | _ n ih =>
    obtain rfl | ⟨a, b, byte, rest, rfl, hread⟩ | ⟨c, rest, rfl, hkeep⟩ := marks_cases hexByte cs
    · rfl
    · obtain ⟨⟨ha, -⟩, hb, -⟩ := hexByte_ascii hread
      have hencode : encodeUtf8 ('%' :: a :: b :: rest) =
          0x25 :: UInt8.ofNat a.toNat :: UInt8.ofNat b.toNat :: encodeUtf8 rest := by
        rw [encodeUtf8_cons, encodeUtf8_cons, encodeUtf8_cons, encodeChar_of_ascii ha,
          encodeChar_of_ascii hb]
        rfl
      rw [hencode, percentDecodeBytes, if_pos rfl]
      simp only [hexOctet_ascii ha hb, hread]
      rw [marks_escape hread, markBytes_cons, ih rest.length (by simp at hn; omega) rest rfl]
      rfl
    · have hrest := ih rest.length (by simp at hn; omega) rest rfl
      rw [marks_keep hkeep, markBytes_cons, ← hrest, encodeUtf8_cons]
      by_cases hc : c = '%'
      · subst hc
        exact percentDecodeBytes_percent hkeep
      · have hnotMem : 0x25 ∉ String.utf8EncodeChar c := by
          intro hmem
          by_cases hascii : c.toNat < 0x80
          · rw [encodeChar_of_ascii hascii, List.mem_singleton] at hmem
            have hnat := congrArg UInt8.toNat hmem
            rw [toNat_byte (by omega)] at hnat
            exact hc (Char.toNat_inj.mp hnat.symm)
          · exact absurd (le_of_mem_encodeChar hascii hmem) (by decide)
        exact percentDecodeBytes_append hnotMem _

/-- The decoder of bytes gives the bytes of the marks, if they are UTF-8. -/
theorem percentDecode_eq (cs : List Char) : percentDecode cs =
    match decodeUtf8 (markBytes (marks hexByte cs)) with
    | some text => .ok text
    | none => .error .invalidUtf8 := by
  rw [percentDecode, percentDecodeBytes_encodeUtf8]

end Formats

/-! ### The decoder of characters -/

/-- No percent sign that starts no escape directly follows the bytes of an unfinished character. -/
def unbroken : List UInt8 → List (Char ⊕ UInt8) → Bool
  | _, [] => true
  | pending, .inl c :: ms => (pending.isEmpty || c ≠ '%') && unbroken [] ms
  | pending, .inr b :: ms =>
    match decodeUtf8 (pending ++ [b]) with
    | some _ => unbroken [] ms
    | none => unbroken (pending ++ [b]) ms

/-- No percent sign that starts no escape takes the percent sign of an escape along. -/
def aligned : List Char → Bool
  | '%' :: a :: b :: rest =>
    match hexByte a b with
    | some _ => aligned rest
    | none =>
      !startsEscape hexByte (a :: b :: rest) && !startsEscape hexByte (b :: rest) && aligned rest
  | _ :: rest => aligned rest
  | [] => true

/-- A character that is no percent sign loses no escape. -/
theorem aligned_of_ne {c : Char} (h : c ≠ '%') (rest : List Char) :
    aligned (c :: rest) = aligned rest := by
  rw [aligned.eq_2]
  rintro a b rest₂ rfl
  exact fun _ => absurd rfl h

/-- Nor does an escape. -/
theorem aligned_escape {a b : Char} {byte : UInt8} (h : hexByte a b = some byte)
    (rest : List Char) : aligned ('%' :: a :: b :: rest) = aligned rest := by
  rw [aligned]
  simp only [h]

/-- What is left after a run is no longer than the input. -/
theorem length_percentRun_le (pending : List UInt8) (cs : List Char) :
    (percentRun pending cs).2.2.length ≤ cs.length := by
  fun_induction percentRun pending cs <;> simp_all <;> omega

/-- What one turn of the decoder returns for a character, and the rest of the input. -/
def percentTurn (c : Char) (rest : List Char) : List Char × List Char :=
  if c = '%' then
    match rest with
    | a :: b :: rest₁ =>
      match hexByte a b with
      | some byte =>
        if byte < 128 then ([Char.ofNat byte.toNat], rest₁)
        else
          ((percentRun [byte] rest₁).2.1 ++
            (if (percentRun [byte] rest₁).1.isEmpty then [] else [replacement]),
            (percentRun [byte] rest₁).2.2)
      | none => (['%', a, b], rest₁)
    | short => ('%' :: short, [])
  else ([c], rest)

/-- One turn of the loop, for any other character. -/
theorem percentTurn_of_ne {c : Char} (h : c ≠ '%') (rest : List Char) :
    percentTurn c rest = ([c], rest) := by
  rw [percentTurn.eq_def, if_neg h]

/-- A turn takes nothing back, so there are no more turns than characters. -/
theorem length_percentTurn_le (c : Char) (rest : List Char) :
    (percentTurn c rest).2.length ≤ rest.length := by
  rw [percentTurn.eq_def]
  split_ifs
  · split
    · rename_i a b rest₁
      simp only [List.length_cons]
      split
      · rename_i byte hread
        by_cases hbyte : byte < 128
        · rw [if_pos hbyte]
          exact Nat.le_trans (Nat.le_succ _) (Nat.le_succ _)
        · rw [if_neg hbyte]
          exact (length_percentRun_le [byte] rest₁).trans (by omega)
      · exact Nat.le_trans (Nat.le_succ _) (Nat.le_succ _)
    · exact Nat.zero_le _
  · exact Nat.le_refl _

theorem percentDecodeFrom_nil (n : ℕ) : percentDecodeFrom n [] = [] := by cases n <;> rfl

theorem percentDecodeFrom_cons (n : ℕ) (c : Char) (rest : List Char) :
    percentDecodeFrom (n + 1) (c :: rest) =
      (percentTurn c rest).1 ++ percentDecodeFrom n (percentTurn c rest).2 := by
  by_cases hc : c = '%'
  · subst hc
    match rest with
    | [] => simp [percentDecodeFrom, percentTurn, percentDecodeFrom_nil]
    | [a] => simp [percentDecodeFrom, percentTurn, percentDecodeFrom_nil]
    | a :: b :: rest₁ =>
      rw [percentDecodeFrom, percentTurn, if_pos rfl]
      dsimp only
      cases hread : hexByte a b with
      | none =>
        dsimp only
        split_ifs <;> rfl
      | some byte =>
        obtain ⟨⟨ha, -⟩, hb, -⟩ := hexByte_ascii hread
        have hlength : byteLen [a, b] = 2 := byteLen_of_ascii (by simp [ha, hb])
        dsimp only
        rw [if_pos hlength]
        split_ifs <;> rfl
  · rw [percentDecodeFrom, percentTurn_of_ne hc]
    · rfl
    · exact fun h => hc h

/-- The fuel does not matter. -/
theorem percentDecodeFrom_eq {n : ℕ} {cs : List Char} (h : cs.length ≤ n) :
    percentDecodeFrom n cs = percentDecode cs := by
  rw [percentDecode]
  generalize hm : cs.length = m at h
  replace hm : cs.length ≤ m := Nat.le_of_eq hm
  induction n generalizing m cs with
  | zero =>
    obtain rfl : m = 0 := Nat.le_zero.mp h
    rfl
  | succ n ih =>
    cases cs with
    | nil => rw [percentDecodeFrom_nil, percentDecodeFrom_nil]
    | cons c rest =>
      rw [List.length_cons] at hm
      obtain ⟨m, rfl⟩ : ∃ k, m = k + 1 := ⟨m - 1, by omega⟩
      have hturn := length_percentTurn_le c rest
      rw [percentDecodeFrom_cons, percentDecodeFrom_cons, ih m (by omega) (by omega)]

/-- The decoder of characters, turn by turn. -/
theorem percentDecode_cons (c : Char) (rest : List Char) :
    percentDecode (c :: rest) = (percentTurn c rest).1 ++ percentDecode (percentTurn c rest).2 := by
  rw [← percentDecodeFrom_eq (length_percentTurn_le c rest)]
  exact percentDecodeFrom_cons _ _ _

/-- A character that is no percent sign is passed on. -/
theorem percentDecode_of_ne {c : Char} (h : c ≠ '%') (rest : List Char) :
    percentDecode (c :: rest) = c :: percentDecode rest := by
  rw [percentDecode_cons, percentTurn_of_ne h]
  rfl

/-- A percent sign without a number takes the next two characters along. -/
theorem percentDecode_literal {a b : Char} (h : hexByte a b = none) (rest : List Char) :
    percentDecode ('%' :: a :: b :: rest) = '%' :: a :: b :: percentDecode rest := by
  rw [percentDecode_cons, percentTurn, if_pos rfl]
  simp only [h]
  rfl

/-- An escape below `0x80` is its character. -/
theorem percentDecode_ascii {a b : Char} {byte : UInt8} (h : hexByte a b = some byte)
    (hbyte : byte < 128) (rest : List Char) :
    percentDecode ('%' :: a :: b :: rest) = Char.ofNat byte.toNat :: percentDecode rest := by
  rw [percentDecode_cons, percentTurn, if_pos rfl]
  simp only [h, if_pos hbyte]
  rfl

/-- Any other escape starts a run, which is decoded as a whole. -/
theorem percentDecode_run {a b : Char} {byte : UInt8} (h : hexByte a b = some byte)
    (hbyte : ¬ byte < 128) (rest : List Char) :
    percentDecode ('%' :: a :: b :: rest) = (percentRun [byte] rest).2.1 ++
      (if (percentRun [byte] rest).1.isEmpty then [] else [replacement]) ++
        percentDecode (percentRun [byte] rest).2.2 := by
  rw [percentDecode_cons, percentTurn, if_pos rfl]
  simp only [h, if_neg hbyte]

/-! ### A run of escapes -/

/-- A byte below `0x80` is a text. -/
theorem decodeUtf8_ascii {byte : UInt8} (h : byte < 128) :
    decodeUtf8 [byte] = some [Char.ofNat byte.toNat] := by
  have hlt : byte.toNat < 128 := h
  have htoNat : (Char.ofNat byte.toNat).toNat = byte.toNat := toNat_ofNat (by omega)
  have hencode : encodeUtf8 [Char.ofNat byte.toNat] = [byte] := by
    rw [encodeUtf8_of_ascii (by simpa [htoNat] using hlt), List.map_singleton, htoNat,
      UInt8.ofNat_toNat]
  rw [← hencode, decodeUtf8_encodeUtf8]

/-- After the bytes of an unfinished character the inner loop reads the marks, up to where the
character is finished or the run of escapes ends. -/
theorem percentRun_spec {pending : List UInt8} {cs : List Char} (hpending : pending ≠ [])
    (h : unbroken pending (marks hexByte cs) = true) :
    markText pending (marks hexByte cs) = (percentRun pending cs).2.1 ++
      (if (percentRun pending cs).1.isEmpty then [] else [replacement]) ++
        markText [] (marks hexByte (percentRun pending cs).2.2) ∧
      unbroken [] (marks hexByte (percentRun pending cs).2.2) = true ∧
      aligned (percentRun pending cs).2.2 = aligned cs := by
  -- A percent sign that starts no escape does not follow the bytes of an unfinished character.
  have hpercent : ∀ {pending rest}, pending ≠ [] →
      unbroken pending (marks hexByte ('%' :: rest)) = true →
        startsEscape hexByte ('%' :: rest) = true := by
    intro pending rest hne hbroken
    by_contra hstarts
    rw [marks_keep (Bool.eq_false_of_not_eq_true hstarts), unbroken,
      List.isEmpty_eq_false_iff.mpr hne] at hbroken
    simp at hbroken
  fun_induction percentRun pending cs with
  | case1 pending a b rest hlength byte hread text htext =>
    rw [marks_escape hread, unbroken, htext] at h
    rw [marks_escape hread, markText, htext, aligned_escape hread]
    exact ⟨by simp, h, rfl⟩
  | case2 pending a b rest hlength byte hread htext ih =>
    rw [marks_escape hread, unbroken, htext] at h
    rw [marks_escape hread, markText, htext, aligned_escape hread]
    exact ih (by simp) h
  | case3 pending a b rest hlength hread =>
    have hstarts := hpercent hpending h
    rw [startsEscape_percent, hread] at hstarts
    cases hstarts
  | case4 pending a b rest hlength ih =>
    obtain ⟨byte, hread⟩ := Option.isSome_iff_exists.mp (hpercent hpending h)
    obtain ⟨⟨ha, -⟩, hb, -⟩ := hexByte_ascii hread
    exact absurd (byteLen_of_ascii (by simp [ha, hb])) hlength
  | case5 pending a hlength => cases hpercent hpending h
  | case6 pending a hlength => cases hpercent hpending h
  | case7 pending => cases hpercent hpending h
  | case8 pending cs hpair hone hzero =>
    refine ⟨?_, ?_, rfl⟩
    · cases cs with
      | nil => simp [marks, markText, hpending]
      | cons c rest =>
        have hkeep : startsEscape hexByte (c :: rest) = false :=
          startsEscape.eq_2 _ _ fun a b rest₂ heq => hpair a b rest₂ heq
        rw [marks_keep hkeep, markText, markText]
        simp [hpending]
    · cases cs with
      | nil => rfl
      | cons c rest =>
        have hkeep : startsEscape hexByte (c :: rest) = false :=
          startsEscape.eq_2 _ _ fun a b rest₂ heq => hpair a b rest₂ heq
        rw [marks_keep hkeep, unbroken, Bool.and_eq_true] at h
        rw [marks_keep hkeep, unbroken, h.2]
        rfl

/-! ### Escapes that are lost -/

/-- Bytes of 128 and more become characters that are not ASCII, if any. -/
theorem markText_high {lead : UInt8} (hlead : ¬ lead < 128) (tail : List UInt8)
    (ms : List (Char ⊕ UInt8)) :
    ∃ c cs, markText (lead :: tail) ms = c :: cs ∧ 0x80 ≤ c.toNat := by
  induction ms generalizing tail with
  | nil => exact ⟨replacement, [], by rw [markText, if_neg (List.cons_ne_nil _ _)], by decide⟩
  | cons m ms ih =>
    cases m with
    | inl c =>
      refine ⟨replacement, c :: markText [] ms, ?_, by decide⟩
      rw [markText, if_neg (List.cons_ne_nil _ _)]
      rfl
    | inr b =>
      rw [markText]
      cases hdecode : decodeUtf8 (lead :: tail ++ [b]) with
      | none => exact ih (tail ++ [b])
      | some text =>
        have hencode := encodeUtf8_of_decodeUtf8 hdecode
        cases text with
        | nil => cases hencode
        | cons c cs =>
          refine ⟨c, cs ++ markText [] ms, rfl, ?_⟩
          by_contra hc
          rw [encodeUtf8_cons, encodeChar_of_ascii (by omega)] at hencode
          have hhead : UInt8.ofNat c.toNat = lead := (List.cons.inj hencode).1
          refine hlead (UInt8.lt_iff_toNat_lt.mpr ?_)
          rw [← hhead, toNat_byte (by omega)]
          exact Nat.not_le.mp hc

/-- Any other byte alone is none. -/
theorem decodeUtf8_high {byte : UInt8} (h : ¬ byte < 128) : decodeUtf8 [byte] = none := by
  cases hdecode : decodeUtf8 [byte] with
  | none => rfl
  | some text =>
    have hencode := encodeUtf8_of_decodeUtf8 hdecode
    cases text with
    | nil => cases hencode
    | cons c cs =>
      by_cases hc : c.toNat < 0x80
      · rw [encodeUtf8_cons, encodeChar_of_ascii hc] at hencode
        have hhead : UInt8.ofNat c.toNat = byte := (List.cons.inj hencode).1
        refine absurd (UInt8.lt_iff_toNat_lt.mpr ?_) h
        rw [← hhead, toNat_byte (by omega)]
        exact hc
      · have hlength := congrArg List.length hencode
        rw [encodeUtf8_cons, List.length_append, length_encodeChar, if_neg hc] at hlength
        simp only [List.length_singleton] at hlength
        split_ifs at hlength <;> omega

theorem markText_ascii {byte : UInt8} (h : byte < 128) (ms : List (Char ⊕ UInt8)) :
    markText [] (.inr byte :: ms) = Char.ofNat byte.toNat :: markText [] ms := by
  rw [markText, List.nil_append, decodeUtf8_ascii h]
  rfl

/-- A byte of a longer character waits for the rest. -/
theorem markText_run {byte : UInt8} (h : ¬ byte < 128) (ms : List (Char ⊕ UInt8)) :
    markText [] (.inr byte :: ms) = markText [byte] ms := by
  rw [markText, List.nil_append, decodeUtf8_high h]

theorem markText_keep (c : Char) (ms : List (Char ⊕ UInt8)) :
    markText [] (.inl c :: ms) = c :: markText [] ms := rfl

/-- What is decoded is never what the marks say with two characters in front. Where one of the two
starts with a character, so does the other, and the two characters trade places. -/
theorem markText_ne {x y : Char} (hx : x.toNat < 0x80 ∧ x ≠ '%') (hy : y.toNat < 0x80 ∧ y ≠ '%')
    (cs : List Char) : markText [] (marks hexByte cs) ≠ x :: y :: percentDecode cs := by
  induction hn : cs.length using Nat.strong_induction_on generalizing cs x y with
  | _ n ih =>
    intro h
    obtain rfl | ⟨a, b, byte, rest, rfl, hread⟩ | ⟨c, rest, rfl, hkeep⟩ := marks_cases hexByte cs
    · cases h
    · rw [marks_escape hread] at h
      by_cases hbyte : byte < 128
      · rw [markText_ascii hbyte, percentDecode_ascii hread hbyte] at h
        obtain ⟨hhead, htail⟩ := List.cons.inj h
        rw [hhead] at htail
        exact ih rest.length (by simp at hn; omega) hy hx rest rfl htail
      · obtain ⟨c, text, htext, hc⟩ := markText_high hbyte [] (marks hexByte rest)
        rw [markText_run hbyte, htext] at h
        rw [(List.cons.inj h).1] at hc
        exact absurd hx.1 (by omega)
    · rw [marks_keep hkeep, markText_keep] at h
      obtain ⟨rfl, htail⟩ := List.cons.inj h
      rw [percentDecode_of_ne hx.2] at htail
      exact ih rest.length (by simp at hn; omega) hy hx rest rfl htail

/-- An escape whose percent sign is kept is not what the marks say. -/
theorem percentDecode_lost {a b : Char} {byte : UInt8} (h : hexByte a b = some byte)
    (rest : List Char) :
    '%' :: percentDecode (a :: b :: rest) ≠
      markText [] (marks hexByte ('%' :: a :: b :: rest)) := by
  obtain ⟨ha, hb⟩ := hexByte_ascii h
  rw [marks_escape h, percentDecode_of_ne ha.2, percentDecode_of_ne hb.2]
  intro heq
  by_cases hbyte : byte < 128
  · rw [markText_ascii hbyte] at heq
    exact markText_ne ha hb rest (List.cons.inj heq).2.symm
  · obtain ⟨c, text, htext, hc⟩ := markText_high hbyte [] (marks hexByte rest)
    rw [markText_run hbyte, htext] at heq
    rw [← (List.cons.inj heq).1] at hc
    exact absurd hc (by decide)

/-- A percent sign that starts no escape, if the claim holds of what follows. -/
theorem percentDecode_percent_iff {rest : List Char}
    (hkeep : startsEscape hexByte ('%' :: rest) = false)
    (h : unbroken [] (marks hexByte rest) = true)
    (ih : ∀ cs : List Char, cs.length ≤ rest.length → unbroken [] (marks hexByte cs) = true →
      (percentDecode cs = markText [] (marks hexByte cs) ↔ aligned cs = true)) :
    percentDecode ('%' :: rest) = '%' :: markText [] (marks hexByte rest) ↔
      aligned ('%' :: rest) = true := by
  match rest with
  | [] => exact iff_of_true rfl rfl
  | [a] =>
    refine iff_of_true ?_ (by simp [aligned])
    rw [marks_keep (startsEscape.eq_2 _ _ (by simp)), markText_keep]
    simp [percentDecode, percentDecodeFrom, marks, markText]
  | a :: b :: rest₁ =>
    have hnone : hexByte a b = none := by simpa [startsEscape] using hkeep
    rw [percentDecode_literal hnone, List.cons_inj_right, aligned]
    simp only [hnone, Bool.and_eq_true, Bool.not_eq_true']
    cases hfirst : startsEscape hexByte (a :: b :: rest₁) with
    | true =>
      obtain ⟨d, e, byte, rest₂, heq, hread⟩ := eq_of_startsEscape hfirst
      obtain ⟨rfl, rfl, rfl⟩ : a = '%' ∧ b = d ∧ rest₁ = e :: rest₂ := by simpa using heq
      have hlost := percentDecode_lost hread rest₂
      rw [percentDecode_of_ne (hexByte_ascii hread).1.2] at hlost
      exact iff_of_false hlost (by simp)
    | false =>
      rw [marks_keep hfirst, unbroken, Bool.and_eq_true] at h
      rw [marks_keep hfirst, markText_keep, List.cons_inj_right]
      cases hsecond : startsEscape hexByte (b :: rest₁) with
      | true =>
        obtain ⟨d, e, byte, rest₂, heq, hread⟩ := eq_of_startsEscape hsecond
        obtain ⟨rfl, rfl⟩ : b = '%' ∧ rest₁ = d :: e :: rest₂ := by simpa using heq
        exact iff_of_false (percentDecode_lost hread rest₂) (by simp)
      | false =>
        rw [marks_keep hsecond, unbroken, Bool.and_eq_true] at h
        rw [marks_keep hsecond, markText_keep, List.cons_inj_right,
          ih rest₁ (by simp only [List.length_cons]; omega) h.2.2]
        simp

/-- **The decoder of characters reads all marks if and only if it loses no escape.** -/
theorem percentDecode_eq_iff (cs : List Char) (h : unbroken [] (marks hexByte cs) = true) :
    percentDecode cs = markText [] (marks hexByte cs) ↔ aligned cs = true := by
  induction hn : cs.length using Nat.strong_induction_on generalizing cs with
  | _ n ih =>
    obtain rfl | ⟨a, b, byte, rest, rfl, hread⟩ | ⟨c, rest, rfl, hkeep⟩ := marks_cases hexByte cs
    · exact iff_of_true rfl rfl
    · rw [aligned_escape hread]
      by_cases hbyte : byte < 128
      · rw [marks_escape hread, unbroken, List.nil_append, decodeUtf8_ascii hbyte] at h
        rw [percentDecode_ascii hread hbyte, marks_escape hread, markText_ascii hbyte,
          List.cons_inj_right]
        exact ih rest.length (by simp at hn; omega) rest h rfl
      · rw [marks_escape hread, unbroken, List.nil_append, decodeUtf8_high hbyte] at h
        obtain ⟨htext, hbroken, haligned⟩ := percentRun_spec (List.cons_ne_nil _ _) h
        have hlength := length_percentRun_le [byte] rest
        rw [percentDecode_run hread hbyte, marks_escape hread, markText_run hbyte, htext,
          List.append_cancel_left_eq, ← haligned]
        exact ih _ (by simp at hn; omega) _ hbroken rfl
    · rw [marks_keep hkeep, unbroken, Bool.and_eq_true] at h
      rw [marks_keep hkeep, markText_keep]
      by_cases hc : c = '%'
      · subst hc
        exact percentDecode_percent_iff hkeep h.2 fun cs hlength hcs =>
          ih cs.length (by simp at hn; omega) cs hcs rfl
      · rw [percentDecode_of_ne hc, aligned_of_ne hc, List.cons_inj_right]
        exact ih rest.length (by simp at hn; omega) rest h.2 rfl

/-! ### Marks of a text in UTF-8 -/

/-- An encoded text has the character in front whose encoding it starts with. -/
theorem eq_of_encodeChar_append {c d : Char} {cs : List Char} {bs : List UInt8}
    (h : String.utf8EncodeChar d ++ bs = encodeUtf8 (c :: cs)) : d = c ∧ bs = encodeUtf8 cs := by
  have hchunks := congrArg decodeUtf8Chunks h
  rw [encodeUtf8_cons, decodeUtf8Chunks_encodeChar, decodeUtf8Chunks_encodeChar] at hchunks
  obtain rfl : d = c := Option.some.inj (List.cons.inj hchunks).1
  exact ⟨rfl, List.append_cancel_left h⟩

/-- Bytes that are not all of a character are no text. -/
theorem decodeUtf8_unfinished {bs rest : List UInt8} {c : Char} {cs : List Char} (hne : bs ≠ [])
    (hshort : bs.length < (String.utf8EncodeChar c).length)
    (h : bs ++ rest = encodeUtf8 (c :: cs)) : decodeUtf8 bs = none := by
  cases hdecode : decodeUtf8 bs with
  | none => rfl
  | some text =>
    have hencode := encodeUtf8_of_decodeUtf8 hdecode
    cases text with
    | nil => exact absurd hencode.symm hne
    | cons d ds =>
      rw [← hencode, encodeUtf8_cons, List.append_assoc] at h
      obtain ⟨rfl, -⟩ := eq_of_encodeChar_append h
      rw [← hencode, encodeUtf8_cons, List.length_append] at hshort
      omega

/-- No character starts in the middle of another: the byte after the pending ones would lead one
and continue the other. -/
theorem append_encodeChar_ne {pending bs : List UInt8} {c : Char} {cs : List Char}
    (hne : pending ≠ []) (hshort : pending.length < (String.utf8EncodeChar c).length) (d : Char) :
    pending ++ (String.utf8EncodeChar d ++ bs) ≠ encodeUtf8 (c :: cs) := by
  intro h
  obtain ⟨lead, tail, hd, hlead, -⟩ := encodeChar_eq_cons d
  have hinside := isCharBoundary_inside (List.length_pos_iff.mpr hne)
    (String.length_utf8EncodeChar c ▸ hshort) cs
  rw [← h, hd, isCharBoundary, List.getElem?_append_right (Nat.le_refl _), Nat.sub_self,
    List.cons_append, List.getElem?_cons_zero] at hinside
  simp [hlead] at hinside

/-- A mark is at least one byte. -/
theorem exists_markByte_eq_cons (m : Char ⊕ UInt8) : ∃ b bs, markByte m = b :: bs := by
  cases m with
  | inl c =>
    obtain ⟨lead, tail, hlead, -⟩ := encodeChar_eq_cons c
    exact ⟨lead, tail, hlead⟩
  | inr b => exact ⟨b, [], rfl⟩

/-- Marks whose bytes are a text stand for it, and none of their characters breaks another. Pending
bytes are the first of a character, but not all of it. -/
theorem markText_of_encodeUtf8 {ms : List (Char ⊕ UInt8)} {pending : List UInt8} {text : List Char}
    (hpending : pending = [] ∨
      ∃ c cs, text = c :: cs ∧ pending.length < (String.utf8EncodeChar c).length)
    (h : pending ++ markBytes ms = encodeUtf8 text) :
    markText pending ms = text ∧ unbroken pending ms = true := by
  induction ms generalizing pending text with
  | nil =>
    rw [markBytes, List.flatMap_nil, List.append_nil] at h
    obtain rfl | ⟨c, cs, rfl, hlength⟩ := hpending
    · cases text with
      | nil => exact ⟨rfl, rfl⟩
      | cons c cs =>
        obtain ⟨lead, tail, hlead, -⟩ := encodeChar_eq_cons c
        rw [encodeUtf8_cons, hlead] at h
        cases h
    · rw [h, encodeUtf8_cons, List.length_append] at hlength
      omega
  | cons m ms ih =>
    cases text with
    | nil =>
      obtain ⟨first, more, hfirst⟩ := exists_markByte_eq_cons m
      have hlength := congrArg List.length h
      simp [markBytes_cons, hfirst, encodeUtf8] at hlength
    | cons c cs =>
      replace hpending : pending.length < (String.utf8EncodeChar c).length := by
        obtain rfl | ⟨d, ds, heq, hlength⟩ := hpending
        · rw [length_encodeChar]
          split_ifs <;> simp
        · rw [(List.cons.inj heq).1]
          exact hlength
      cases m with
      | inl d =>
        rw [markBytes_cons, markByte] at h
        by_cases hempty : pending = []
        · subst hempty
          obtain ⟨rfl, hrest⟩ := eq_of_encodeChar_append h
          obtain ⟨htext, hbroken⟩ := ih (Or.inl rfl) hrest
          exact ⟨by rw [markText_keep, htext], by rw [unbroken, hbroken]; rfl⟩
        · exact absurd h (append_encodeChar_ne hempty hpending d)
      | inr b =>
        replace h : (pending ++ [b]) ++ markBytes ms = encodeUtf8 (c :: cs) := by
          rw [← h, List.append_assoc]
          rfl
        have hlength : (pending ++ [b]).length ≤ (String.utf8EncodeChar c).length := by
          rw [List.length_append]
          exact hpending
        obtain hshort | hwhole := Nat.lt_or_eq_of_le hlength
        · have hnone := decodeUtf8_unfinished (by simp) hshort h
          rw [markText, unbroken, hnone]
          exact ih (Or.inr ⟨c, cs, rfl, hshort⟩) h
        · obtain ⟨hchar, hrest⟩ := List.append_inj h hwhole
          have hdecode : decodeUtf8 (pending ++ [b]) = some [c] := by
            rw [hchar, ← List.append_nil (String.utf8EncodeChar c)]
            exact decodeUtf8_encodeUtf8 [c]
          obtain ⟨htext, hbroken⟩ := ih (Or.inl rfl) hrest
          rw [markText, unbroken, hdecode]
          exact ⟨by rw [htext]; rfl, hbroken⟩

/-! ### Plus signs -/

/-- No percent sign with a plus sign and a hexadecimal digit. -/
def Plain (cs : List Char) : Prop :=
  ∀ h rest, '%' :: '+' :: h :: rest <:+ cs → hexDigit h = none

theorem Plain.of_cons {c : Char} {cs : List Char} (h : Plain (c :: cs)) : Plain cs :=
  fun d rest hsuffix => h d rest (hsuffix.trans (List.suffix_cons c cs))

/-- A text stays plain, unless the new character starts an escape with a plus sign. -/
theorem Plain.cons {c : Char} {cs : List Char} (h : Plain cs)
    (hc : ∀ d rest, c = '%' → cs = '+' :: d :: rest → hexDigit d = none) : Plain (c :: cs) := by
  intro d rest hsuffix
  obtain heq | hsuffix := List.suffix_cons_iff.mp hsuffix
  · obtain ⟨hc', hcs⟩ := List.cons.inj heq
    exact hc d rest hc'.symm hcs.symm
  · exact h d rest hsuffix

/-- A plus sign and a digit are a number to `from_str_radix`. -/
theorem hexByte_plus (d : Char) : hexByte '+' d = (hexDigit d).map UInt8.ofNat := if_pos rfl

/-- They are not two digits. -/
theorem hexPair_plus (d : Char) : hexPair '+' d = none := rfl

theorem startsEscape_hexPair {cs : List Char} (h : startsEscape hexByte cs = false) :
    startsEscape hexPair cs = false := by
  by_contra hstarts
  obtain ⟨a, b, byte, rest, rfl, hread⟩ := eq_of_startsEscape (Bool.eq_true_of_not_eq_false hstarts)
  by_cases ha : a = '+'
  · rw [ha, hexPair_plus] at hread
    cases hread
  · rw [startsEscape_percent, hexByte_of_ne ha, hread] at h
    cases h

/-- Without such escapes the marks are the same. -/
theorem marks_of_plain {cs : List Char} (h : Plain cs) : marks hexByte cs = marks hexPair cs := by
  induction hn : cs.length using Nat.strong_induction_on generalizing cs with
  | _ n ih =>
    obtain rfl | ⟨a, b, byte, rest, rfl, hread⟩ | ⟨c, rest, rfl, hkeep⟩ := marks_cases hexByte cs
    · rfl
    · have hpair : hexPair a b = some byte := by
        obtain ⟨-, hpair⟩ | ⟨rfl, d, hd, -⟩ := hexByte_eq_some hread
        · exact hpair
        · rw [h b rest List.suffix_rfl] at hd
          cases hd
      rw [marks_escape hread, marks_escape hpair,
        ih rest.length (by simp at hn; omega) h.of_cons.of_cons.of_cons rfl]
    · rw [marks_keep hkeep, marks_keep (startsEscape_hexPair hkeep),
        ih rest.length (by simp at hn; omega) h.of_cons rfl]

/-- And only then. -/
theorem plain_of_markBytes {cs : List Char}
    (h : markBytes (marks hexByte cs) = markBytes (marks hexPair cs)) : Plain cs := by
  induction hn : cs.length using Nat.strong_induction_on generalizing cs with
  | _ n ih =>
    obtain rfl | ⟨a, b, byte, rest, rfl, hread⟩ | ⟨c, rest, rfl, hkeep⟩ := marks_cases hexByte cs
    · rintro d rest ⟨front, heq⟩
      simp at heq
    · obtain ⟨hne, hpair⟩ | ⟨rfl, d, hd, hbyte, hlt⟩ := hexByte_eq_some hread
      · rw [marks_escape hread, marks_escape hpair, markBytes_cons, markBytes_cons,
          List.append_cancel_left_eq] at h
        obtain ⟨⟨-, ha⟩, -, hb⟩ := hexByte_ascii hread
        refine (((ih rest.length (by simp at hn; omega) h rfl).cons ?_).cons ?_).cons ?_
        · exact fun _ _ hpercent _ => absurd hpercent hb
        · exact fun _ _ hpercent _ => absurd hpercent ha
        · exact fun _ _ _ hplus => absurd (List.cons.inj hplus).1 hne
      · -- A byte below 16 is no percent sign.
        rw [marks_escape hread,
          marks_keep (by rw [startsEscape_percent, hexPair_plus]; rfl)] at h
        have hhead : byte = 0x25 := (List.cons.inj h).1
        rw [hhead] at hbyte
        exact absurd (hbyte ▸ hlt) (by decide)
    · rw [marks_keep hkeep, marks_keep (startsEscape_hexPair hkeep), markBytes_cons,
        markBytes_cons, List.append_cancel_left_eq] at h
      refine (ih rest.length (by simp at hn; omega) h rfl).cons ?_
      rintro d rest₂ rfl rfl
      rw [startsEscape_percent, hexByte_plus] at hkeep
      simpa using hkeep

/-! ### One decoding -/

/-- Both decoders replace the escapes of two hexadecimal digits, and nothing else, in `s`, and they
return the same text if the decoder of bytes returns one. -/
structure OneDecoding (s : List Char) : Prop where
  agree : ∀ text, Formats.percentDecode s = .ok text → percentDecode s = text
  formats : Formats.percentDecode s = match decodeUtf8 (markBytes (marks hexPair s)) with
    | some text => .ok text
    | none => .error .invalidUtf8
  sanitize : percentDecode s = markText [] (marks hexPair s)

namespace Formats

/-- What the decoder of bytes accepts is the text of the marks. -/
theorem decodeUtf8_of_percentDecode {s text : List Char} (h : percentDecode s = .ok text) :
    markBytes (marks hexByte s) = encodeUtf8 text := by
  rw [percentDecode_eq] at h
  split at h
  · rename_i text' hdecode
    rw [← Except.ok.inj h]
    exact (encodeUtf8_of_decodeUtf8 hdecode).symm
  · cases h

/-- What is kept is a letter, a digit or one of six other characters. -/
theorem keepsByte_ascii {b : UInt8} (h : keepsByte b = true) : b < 128 ∧ b ≠ 0x25 := by
  have hall : ∀ n < 256, keepsByte (UInt8.ofNat n) = true → n < 128 ∧ n ≠ 0x25 := by
    decide +kernel
  have hb := hall b.toNat b.toNat_lt (by rwa [UInt8.ofNat_toNat])
  refine ⟨hb.1, ?_⟩
  rintro rfl
  exact hb.2 rfl

/-- A byte is read as it was written. -/
theorem hexByte_upperHex (b : UInt8) :
    hexByte (upperHex (b.toNat / 16)) (upperHex (b.toNat % 16)) = some b := by
  have hlt := b.toNat_lt
  have hne : ∀ n < 16, upperHex n ≠ '+' := by decide
  rw [hexByte_of_ne (hne _ (by omega)), hexPair, hexDigit_upperHex _ (by omega),
    hexDigit_upperHex _ (by omega)]
  exact congrArg some (ofNat_eq_byte (Nat.div_add_mod _ _))

/-- A byte is written as a mark of its own, which loses nothing. -/
theorem marks_percentEncodeByte (b : UInt8) (rest : List Char) :
    markBytes (marks hexByte (percentEncodeByte b ++ rest)) =
        b :: markBytes (marks hexByte rest) ∧
      aligned (percentEncodeByte b ++ rest) = aligned rest := by
  rw [percentEncodeByte]
  split_ifs with hkeeps
  · obtain ⟨hascii, hpercent⟩ := keepsByte_ascii hkeeps
    have hlt : b.toNat < 128 := hascii
    have htoNat : (Char.ofNat b.toNat).toNat = b.toNat := toNat_ofNat (by omega)
    have hne : Char.ofNat b.toNat ≠ '%' := by
      intro heq
      rw [heq] at htoNat
      exact hpercent (UInt8.toNat_inj.mp htoNat.symm)
    rw [List.singleton_append, marks_keep (startsEscape_of_ne hne _), aligned_of_ne hne,
      markBytes_cons, markByte, encodeChar_of_ascii (by omega), htoNat, UInt8.ofNat_toNat]
    exact ⟨rfl, rfl⟩
  · have hread := hexByte_upperHex b
    exact ⟨by rw [List.cons_append, List.cons_append, List.cons_append, List.nil_append,
      marks_escape hread]; rfl, aligned_escape hread rest⟩

/-- What was encoded has the marks of its bytes, and loses none. -/
theorem marks_percentEncode (cs : List Char) :
    markBytes (marks hexByte (percentEncode cs)) = encodeUtf8 cs ∧
      aligned (percentEncode cs) = true := by
  rw [percentEncode]
  induction encodeUtf8 cs with
  | nil => exact ⟨rfl, rfl⟩
  | cons b bs ih =>
    obtain ⟨hbytes, haligned⟩ := marks_percentEncodeByte b (bs.flatMap percentEncodeByte)
    rw [List.flatMap_cons, hbytes, haligned, ih.1, ih.2]
    exact ⟨rfl, rfl⟩

/-- What was encoded is decoded by either of the two. -/
theorem percentDecode_percentEncode (cs : List Char) :
    percentDecode (percentEncode cs) = .ok cs := by
  rw [percentDecode_eq, (marks_percentEncode cs).1, decodeUtf8_encodeUtf8]

end Formats

theorem percentDecode_percentEncode (cs : List Char) :
    percentDecode (Formats.percentEncode cs) = cs := by
  obtain ⟨hbytes, haligned⟩ := Formats.marks_percentEncode cs
  obtain ⟨htext, hbroken⟩ := markText_of_encodeUtf8 (Or.inl rfl) hbytes
  rw [(percentDecode_eq_iff _ hbroken).mpr haligned, htext]

/-- A text whose escapes both decoders can read is decoded in one way. -/
theorem oneDecoding {s : List Char} (hplain : Plain s) (haligned : aligned s = true)
    (hbroken : unbroken [] (marks hexByte s) = true) : OneDecoding s := by
  have hmarks := marks_of_plain hplain
  have hsanitize := (percentDecode_eq_iff s hbroken).mpr haligned
  refine ⟨?_, ?_, hmarks ▸ hsanitize⟩
  · intro text htext
    rw [hsanitize]
    exact (markText_of_encodeUtf8 (Or.inl rfl) (Formats.decodeUtf8_of_percentDecode htext)).1
  · rw [Formats.percentDecode_eq, hmarks]

/-- If the bytes decode, the two decoders are one just where there is no plus sign for a digit, and
no escape for the decoder of characters to lose. -/
theorem oneDecoding_iff {s text : List Char} (h : Formats.percentDecode s = .ok text) :
    OneDecoding s ↔ Plain s ∧ aligned s = true := by
  have hbytes := Formats.decodeUtf8_of_percentDecode h
  obtain ⟨htext, hbroken⟩ := markText_of_encodeUtf8 (Or.inl rfl) hbytes
  refine ⟨fun hone => ⟨?_, ?_⟩, fun ⟨hplain, haligned⟩ => oneDecoding hplain haligned hbroken⟩
  · have hformats := hone.formats
    rw [h] at hformats
    split at hformats
    · rename_i text' hdecode
      refine plain_of_markBytes ?_
      rw [hbytes, Except.ok.inj hformats, encodeUtf8_of_decodeUtf8 hdecode]
    · cases hformats
  · rw [← percentDecode_eq_iff s hbroken, htext]
    exact hone.agree text h

/-- **When the two decoders are one**: on every text without a plus sign for a digit, without an
escape whose percent sign is taken along, and without a percent sign in the middle of a character;
and, of the texts that the decoder of bytes accepts, on no others. Both decode what `percentEncode`
has encoded. -/
theorem one_decoding_iff (s : List Char) :
    (Plain s → aligned s = true → unbroken [] (marks hexByte s) = true → OneDecoding s) ∧
      (∀ text, Formats.percentDecode s = .ok text →
        (OneDecoding s ↔ Plain s ∧ aligned s = true)) ∧
      Formats.percentDecode (Formats.percentEncode s) = .ok s ∧
        percentDecode (Formats.percentEncode s) = s :=
  ⟨oneDecoding, fun _ => oneDecoding_iff, Formats.percentDecode_percentEncode s,
    percentDecode_percentEncode s⟩

/-- A percent sign in front of an escape hides it from one of the decoders, and a plus sign is taken
for a digit by both. -/
theorem two_decodings :
    ¬ (∀ s, OneDecoding s) ∧
      Formats.percentDecode "%%41".toList = .ok "%A".toList ∧
      percentDecode "%%41".toList = "%%41".toList ∧
      Formats.percentDecode "%+A".toList = .ok "\n".toList ∧
      percentDecode "%+A".toList = "\n".toList ∧
      markText [] (marks hexPair "%+A".toList) = "%+A".toList := by
  have hformats : Formats.percentDecode "%%41".toList = .ok "%A".toList := by decide
  have hsanitize : percentDecode "%%41".toList = "%%41".toList := by decide
  refine ⟨fun hall => ?_, hformats, hsanitize, by decide, by decide, by decide⟩
  have hagree := (hall _).agree _ hformats
  rw [hsanitize] at hagree
  exact absurd hagree (by decide)

end Clipboard

end Cheirizo
