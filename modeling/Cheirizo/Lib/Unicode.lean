import Mathlib.Tactic.Common

/-!
# Unicode transfer encodings

UTF-8 and UTF-16 over lists of code units, with the strict and the lossy decoders a systems
language's string type offers. A lossy decoder replaces every maximal ill-formed subsequence by
U+FFFD; a strict one refuses the whole input. Both return what the encoder was given.

## Conventions

Bytes and code units are lists, and a text is a list of characters. A decoder first cuts its input
into chunks, each a character or something that is none: the strict decoder wants all of them to be
characters, and the lossy one puts the replacement character for the others. So what is proved of
the chunks is proved of both.

A character is written in the least number of bytes, and that is all the decoder takes: the second
byte is bounded by the first. This is why what is decoded is encoded again, byte for byte.
-/

namespace Cheirizo

namespace Unicode

/-- The replacement character U+FFFD. -/
def replacement : Char := Char.ofNat 0xFFFD

/-! ### UTF-8 -/

/-- A text in UTF-8. -/
def encodeUtf8 (cs : List Char) : List UInt8 := cs.flatMap String.utf8EncodeChar

/-- A continuation byte. -/
def isTail (b : UInt8) : Bool := 0x80 ≤ b && b ≤ 0xBF

/-- The six payload bits of a continuation byte. -/
def tailBits (b : UInt8) : ℕ := b.toNat % 64

/-- The range a second byte must lie in after the leading byte of a longer sequence. -/
def secondRange (lead : UInt8) : UInt8 × UInt8 :=
  if lead = 0xE0 then (0xA0, 0xBF)
  else if lead = 0xED then (0x80, 0x9F)
  else if lead = 0xF0 then (0x90, 0xBF)
  else if lead = 0xF4 then (0x80, 0x8F)
  else (0x80, 0xBF)

/-- The byte may follow the first one of a character. -/
def isSecond (lead b : UInt8) : Bool := (secondRange lead).1 ≤ b && b ≤ (secondRange lead).2

/-- Decode, with `none` for every maximal ill-formed subsequence. -/
def decodeUtf8Chunks : List UInt8 → List (Option Char)
  | [] => []
  | a :: rest =>
    if a < 0x80 then some (Char.ofNat a.toNat) :: decodeUtf8Chunks rest
    else if 0xC2 ≤ a ∧ a ≤ 0xDF then
      match rest with
      | b :: rest₁ =>
        if isTail b then
          some (Char.ofNat (a.toNat % 32 * 64 + tailBits b)) :: decodeUtf8Chunks rest₁
        else none :: decodeUtf8Chunks (b :: rest₁)
      | [] => [none]
    else if 0xE0 ≤ a ∧ a ≤ 0xEF then
      match rest with
      | b :: rest₁ =>
        if isSecond a b then
          match rest₁ with
          | c :: rest₂ =>
            if isTail c then
              some (Char.ofNat (a.toNat % 16 * 4096 + tailBits b * 64 + tailBits c)) ::
                decodeUtf8Chunks rest₂
            else none :: decodeUtf8Chunks (c :: rest₂)
          | [] => [none]
        else none :: decodeUtf8Chunks (b :: rest₁)
      | [] => [none]
    else if 0xF0 ≤ a ∧ a ≤ 0xF4 then
      match rest with
      | b :: rest₁ =>
        if isSecond a b then
          match rest₁ with
          | c :: rest₂ =>
            if isTail c then
              match rest₂ with
              | d :: rest₃ =>
                if isTail d then
                  some (Char.ofNat (a.toNat % 8 * 262144 + tailBits b * 4096 + tailBits c * 64 +
                    tailBits d)) :: decodeUtf8Chunks rest₃
                else none :: decodeUtf8Chunks (d :: rest₃)
              | [] => [none]
            else none :: decodeUtf8Chunks (c :: rest₂)
          | [] => [none]
        else none :: decodeUtf8Chunks (b :: rest₁)
      | [] => [none]
    else none :: decodeUtf8Chunks rest

/-- `String::from_utf8_lossy`. -/
def decodeUtf8Lossy (bytes : List UInt8) : List Char :=
  (decodeUtf8Chunks bytes).map fun c => c.getD replacement

/-- `str::from_utf8`, without the error's position. -/
def decodeUtf8 (bytes : List UInt8) : Option (List Char) := (decodeUtf8Chunks bytes).mapM id

/-! ### UTF-16 -/

/-- One character as one code unit, or as a surrogate pair. -/
def encodeUtf16Char (c : Char) : List UInt16 :=
  if c.toNat < 0x10000 then [UInt16.ofNat c.toNat]
  else
    [UInt16.ofNat (0xD800 + (c.toNat - 0x10000) / 1024),
      UInt16.ofNat (0xDC00 + (c.toNat - 0x10000) % 1024)]

/-- A text in UTF-16. -/
def encodeUtf16 (cs : List Char) : List UInt16 := cs.flatMap encodeUtf16Char

/-- The first half of a pair. -/
def isHighSurrogate (u : UInt16) : Bool := 0xD800 ≤ u && u < 0xDC00

/-- The second half of a pair. -/
def isLowSurrogate (u : UInt16) : Bool := 0xDC00 ≤ u && u < 0xE000

/-- Decode, with `none` for every unpaired surrogate. -/
def decodeUtf16Units : List UInt16 → List (Option Char)
  | [] => []
  | u :: rest =>
    if isHighSurrogate u then
      match rest with
      | v :: rest₁ =>
        if isLowSurrogate v then
          some (Char.ofNat (0x10000 + (u.toNat - 0xD800) * 1024 + (v.toNat - 0xDC00))) ::
            decodeUtf16Units rest₁
        else none :: decodeUtf16Units (v :: rest₁)
      | [] => [none]
    else if isLowSurrogate u then none :: decodeUtf16Units rest
    else some (Char.ofNat u.toNat) :: decodeUtf16Units rest

/-- `String::from_utf16_lossy`. -/
def decodeUtf16Lossy (units : List UInt16) : List Char :=
  (decodeUtf16Units units).map fun c => c.getD replacement

/-- `String::from_utf16`. -/
def decodeUtf16 (units : List UInt16) : Option (List Char) := (decodeUtf16Units units).mapM id

/-! ### Little-endian numbers -/

/-- A unit of two bytes, the low one first. -/
def u16FromLe (a b : UInt8) : UInt16 := UInt16.ofNat (a.toNat + 256 * b.toNat)

/-- Two bytes of a unit, the low one first. -/
def u16ToLe (u : UInt16) : List UInt8 := [UInt8.ofNat u.toNat, UInt8.ofNat (u.toNat / 256)]

/-- The code units of a byte string; an odd last byte is dropped. -/
def unitsOfLe : List UInt8 → List UInt16
  | a :: b :: rest => u16FromLe a b :: unitsOfLe rest
  | _ => []

/-- The little-endian number in a list of bytes. -/
def leToNat : List UInt8 → ℕ
  | [] => 0
  | b :: rest => b.toNat + 256 * leToNat rest

/-- The `n` low bytes of a number, little end first. -/
def natToLe : ℕ → ℕ → List UInt8
  | 0, _ => []
  | n + 1, x => UInt8.ofNat x :: natToLe n (x / 256)

/-! ### What is encoded is decoded -/

/-- The numbers of characters: all below the limit but the surrogates. -/
theorem toNat_valid (c : Char) : c.toNat < 0xD800 ∨ 0xDFFF < c.toNat ∧ c.toNat < 0x110000 :=
  c.valid

theorem ofNat_of_toNat {c : Char} {n : ℕ} (h : c.toNat = n) : Char.ofNat n = c := by
  rw [← h, Char.ofNat_toNat]

/-- A number that is no surrogate is that of its character. -/
theorem toNat_ofNat {n : ℕ} (h : n < 0xD800 ∨ 0xDFFF < n ∧ n < 0x110000) :
    (Char.ofNat n).toNat = n := by
  rw [Char.ofNat, dif_pos h]
  rfl

theorem toNat_byte {n : ℕ} (h : n < 256) : (UInt8.ofNat n).toNat = n :=
  UInt8.toNat_ofNat_of_lt' h

/-- Six bits make a continuation byte. -/
theorem isTail_byte (m : ℕ) : isTail (UInt8.ofNat (m % 64 + 128)) = true := by
  have hm : (UInt8.ofNat (m % 64 + 128)).toNat = m % 64 + 128 := toNat_byte (by omega)
  simp only [isTail, UInt8.le_iff_toNat_le, hm, Bool.and_eq_true, decide_eq_true_eq,
    UInt8.reduceToNat]
  omega

/-- The six bits are read back. -/
theorem tailBits_byte (m : ℕ) : tailBits (UInt8.ofNat (m % 64 + 128)) = m % 64 := by
  rw [tailBits, toNat_byte (by omega)]
  omega

/-- The second byte is bounded by the lead, so that no encoding is longer than it has to be, none is
that of a surrogate and none is beyond the last character. -/
theorem isSecond_byte {a m : ℕ} (ha : a < 256) (he0 : a = 0xE0 → 32 ≤ m % 64)
    (hed : a = 0xED → m % 64 < 32) (hf0 : a = 0xF0 → 16 ≤ m % 64)
    (hf4 : a = 0xF4 → m % 64 < 16) :
    isSecond (UInt8.ofNat a) (UInt8.ofNat (m % 64 + 128)) = true := by
  have hm : (UInt8.ofNat (m % 64 + 128)).toNat = m % 64 + 128 := toNat_byte (by omega)
  have hlead : (UInt8.ofNat a).toNat = a := toNat_byte ha
  simp only [isSecond, secondRange, ← UInt8.toNat_inj, hlead, UInt8.reduceToNat]
  split_ifs <;>
    simp only [UInt8.le_iff_toNat_le, hm, Bool.and_eq_true, decide_eq_true_eq,
      UInt8.reduceToNat] <;>
    omega

/-- One character is decoded whatever follows it. -/
theorem decodeUtf8Chunks_encodeChar (c : Char) (rest : List UInt8) :
    decodeUtf8Chunks (String.utf8EncodeChar c ++ rest) = some c :: decodeUtf8Chunks rest := by
  have hv := toNat_valid c
  have hn : c.val.toNat = c.toNat := rfl
  rw [String.utf8EncodeChar, hn]
  generalize hc : c.toNat = n at hv
  split_ifs with h₁ h₂ h₃
  · have ha : (UInt8.ofNat n).toNat = n := toNat_byte (by omega)
    rw [List.singleton_append, decodeUtf8Chunks.eq_def]
    simp only [UInt8.lt_iff_toNat_lt, ha, UInt8.reduceToNat]
    rw [if_pos (by omega), ofNat_of_toNat hc]
  · have ha : (UInt8.ofNat (n / 64 % 32 + 192)).toNat = n / 64 % 32 + 192 :=
      toNat_byte (by omega)
    simp only [List.cons_append, List.nil_append]
    rw [decodeUtf8Chunks.eq_def]
    simp only [UInt8.lt_iff_toNat_lt, UInt8.le_iff_toNat_le, ha, UInt8.reduceToNat, isTail_byte,
      tailBits_byte, if_true]
    rw [if_neg (by omega), if_pos (by omega), ofNat_of_toNat (c := c) (by omega)]
  · have ha : (UInt8.ofNat (n / 4096 % 16 + 224)).toNat = n / 4096 % 16 + 224 :=
      toNat_byte (by omega)
    have hb : isSecond (UInt8.ofNat (n / 4096 % 16 + 224))
        (UInt8.ofNat (n / 64 % 64 + 128)) = true :=
      isSecond_byte (by omega) (by omega) (by omega) (by omega) (by omega)
    simp only [List.cons_append, List.nil_append]
    rw [decodeUtf8Chunks.eq_def]
    simp only [UInt8.lt_iff_toNat_lt, UInt8.le_iff_toNat_le, ha, hb, UInt8.reduceToNat,
      isTail_byte, tailBits_byte, if_true]
    rw [if_neg (by omega), if_neg (by omega), if_pos (by omega),
      ofNat_of_toNat (c := c) (by omega)]
  · have ha : (UInt8.ofNat (n / 262144 % 8 + 240)).toNat = n / 262144 % 8 + 240 :=
      toNat_byte (by omega)
    have hb : isSecond (UInt8.ofNat (n / 262144 % 8 + 240))
        (UInt8.ofNat (n / 4096 % 64 + 128)) = true :=
      isSecond_byte (by omega) (by omega) (by omega) (by omega) (by omega)
    simp only [List.cons_append, List.nil_append]
    rw [decodeUtf8Chunks.eq_def]
    simp only [UInt8.lt_iff_toNat_lt, UInt8.le_iff_toNat_le, ha, hb, UInt8.reduceToNat,
      isTail_byte, tailBits_byte, if_true]
    rw [if_neg (by omega), if_neg (by omega), if_neg (by omega), if_pos (by omega),
      ofNat_of_toNat (c := c) (by omega)]

theorem decodeUtf8Chunks_encodeUtf8 (cs : List Char) :
    decodeUtf8Chunks (encodeUtf8 cs) = cs.map some := by
  induction cs with
  | nil => rfl
  | cons c cs ih =>
    show decodeUtf8Chunks (String.utf8EncodeChar c ++ encodeUtf8 cs) = _
    rw [decodeUtf8Chunks_encodeChar, ih, List.map_cons]

/-- Losses are nothing when there are none. -/
theorem map_getD_some (cs : List Char) :
    (cs.map some).map (fun c => c.getD replacement) = cs := by
  induction cs with
  | nil => rfl
  | cons c cs ih => rw [List.map_cons, List.map_cons, ih, Option.getD_some]

theorem mapM_some (cs : List Char) : (cs.map some).mapM id = some cs := by
  induction cs with
  | nil => rfl
  | cons c cs ih => simp [ih]

/-- The lossy decoder gives back what was encoded. -/
@[simp] theorem decodeUtf8Lossy_encodeUtf8 (cs : List Char) :
    decodeUtf8Lossy (encodeUtf8 cs) = cs := by
  rw [decodeUtf8Lossy, decodeUtf8Chunks_encodeUtf8, map_getD_some]

/-- The strict decoder gives back what was encoded. -/
@[simp] theorem decodeUtf8_encodeUtf8 (cs : List Char) : decodeUtf8 (encodeUtf8 cs) = some cs := by
  rw [decodeUtf8, decodeUtf8Chunks_encodeUtf8, mapM_some]

/-- Two texts with the same bytes are the same. -/
theorem encodeUtf8_injective : encodeUtf8.Injective :=
  Function.LeftInverse.injective decodeUtf8Lossy_encodeUtf8

theorem toNat_unit {n : ℕ} (h : n < 0x10000) : (UInt16.ofNat n).toNat = n :=
  UInt16.toNat_ofNat_of_lt' h

/-- The first half of a pair. -/
theorem isHighSurrogate_iff (u : UInt16) :
    isHighSurrogate u = true ↔ 0xD800 ≤ u.toNat ∧ u.toNat < 0xDC00 := by
  simp only [isHighSurrogate, UInt16.le_iff_toNat_le, UInt16.lt_iff_toNat_lt, Bool.and_eq_true,
    decide_eq_true_eq, UInt16.reduceToNat]

/-- The second half of a pair. -/
theorem isLowSurrogate_iff (u : UInt16) :
    isLowSurrogate u = true ↔ 0xDC00 ≤ u.toNat ∧ u.toNat < 0xE000 := by
  simp only [isLowSurrogate, UInt16.le_iff_toNat_le, UInt16.lt_iff_toNat_lt, Bool.and_eq_true,
    decide_eq_true_eq, UInt16.reduceToNat]

/-- One character is decoded whatever follows it. -/
theorem decodeUtf16Units_encodeChar (c : Char) (rest : List UInt16) :
    decodeUtf16Units (encodeUtf16Char c ++ rest) = some c :: decodeUtf16Units rest := by
  have hv := toNat_valid c
  rw [encodeUtf16Char]
  generalize hc : c.toNat = n at hv
  split_ifs with h
  · have hu : (UInt16.ofNat n).toNat = n := toNat_unit (by omega)
    rw [List.singleton_append, decodeUtf16Units.eq_def]
    simp only [isHighSurrogate_iff, isLowSurrogate_iff, hu]
    rw [if_neg (by omega), if_neg (by omega), ofNat_of_toNat hc]
  · have hu : (UInt16.ofNat (0xD800 + (n - 0x10000) / 1024)).toNat =
        0xD800 + (n - 0x10000) / 1024 := toNat_unit (by omega)
    have hu' : (UInt16.ofNat (0xDC00 + (n - 0x10000) % 1024)).toNat =
        0xDC00 + (n - 0x10000) % 1024 := toNat_unit (by omega)
    simp only [List.cons_append, List.nil_append]
    rw [decodeUtf16Units.eq_def]
    simp only [isHighSurrogate_iff, isLowSurrogate_iff, hu, hu']
    rw [if_pos (by omega), if_pos (by omega), ofNat_of_toNat (c := c) (by omega)]

theorem decodeUtf16Units_encodeUtf16 (cs : List Char) :
    decodeUtf16Units (encodeUtf16 cs) = cs.map some := by
  induction cs with
  | nil => rfl
  | cons c cs ih =>
    show decodeUtf16Units (encodeUtf16Char c ++ encodeUtf16 cs) = _
    rw [decodeUtf16Units_encodeChar, ih, List.map_cons]

/-- The lossy decoder gives back what was encoded. -/
@[simp] theorem decodeUtf16Lossy_encodeUtf16 (cs : List Char) :
    decodeUtf16Lossy (encodeUtf16 cs) = cs := by
  rw [decodeUtf16Lossy, decodeUtf16Units_encodeUtf16, map_getD_some]

/-- The strict decoder gives back what was encoded. -/
@[simp] theorem decodeUtf16_encodeUtf16 (cs : List Char) :
    decodeUtf16 (encodeUtf16 cs) = some cs := by
  rw [decodeUtf16, decodeUtf16Units_encodeUtf16, mapM_some]

/-- A unit is read back from its two bytes. -/
theorem u16FromLe_u16ToLe (u : UInt16) :
    u16FromLe (UInt8.ofNat u.toNat) (UInt8.ofNat (u.toNat / 256)) = u := by
  have hu := u.toNat_lt
  rw [← UInt16.toNat_inj, u16FromLe, UInt8.toNat_ofNat', toNat_byte (by omega),
    toNat_unit (by omega)]
  omega

/-- Units in front of any bytes are read back. -/
theorem unitsOfLe_append (us : List UInt16) (rest : List UInt8) :
    unitsOfLe (us.flatMap u16ToLe ++ rest) = us ++ unitsOfLe rest := by
  induction us with
  | nil => rfl
  | cons u us ih =>
    show u16FromLe _ _ :: unitsOfLe (us.flatMap u16ToLe ++ rest) = _
    rw [u16FromLe_u16ToLe, ih, List.cons_append]

/-- Only a zero character has a zero unit. -/
theorem zero_mem_encodeUtf16 {cs : List Char} : 0 ∈ encodeUtf16 cs ↔ '\x00' ∈ cs := by
  induction cs with
  | nil => simp [encodeUtf16]
  | cons c cs ih =>
    have hchar : 0 ∈ encodeUtf16Char c ↔ '\x00' = c := by
      rw [encodeUtf16Char, ← Char.toNat_inj]
      have hv := toNat_valid c
      show _ ↔ 0 = c.toNat
      split_ifs with h
      · simp only [List.mem_singleton, ← UInt16.toNat_inj, toNat_unit h, UInt16.reduceToNat]
      · simp only [List.mem_cons, ← UInt16.toNat_inj, List.not_mem_nil, or_false]
        rw [toNat_unit (by omega), toNat_unit (by omega)]
        simp only [UInt16.reduceToNat]
        omega
    show 0 ∈ encodeUtf16Char c ++ encodeUtf16 cs ↔ _
    rw [List.mem_append, hchar, ih, List.mem_cons]

/-! ### Sizes -/

/-- The bytes a character takes, by its number. -/
theorem length_encodeChar (c : Char) :
    (String.utf8EncodeChar c).length = if c.toNat < 0x80 then 1 else if c.toNat < 0x800 then 2
      else if c.toNat < 0x10000 then 3 else 4 := by
  have hn : c.val.toNat = c.toNat := rfl
  rw [String.utf8EncodeChar, hn]
  split_ifs <;> first | rfl | omega

theorem encodeChar_of_ascii {c : Char} (h : c.toNat < 0x80) :
    String.utf8EncodeChar c = [UInt8.ofNat c.toNat] := by
  have hn : c.val.toNat = c.toNat := rfl
  rw [String.utf8EncodeChar, hn, if_pos (by omega)]

/-- The bytes of longer encodings are no characters of their own. -/
theorem le_of_mem_encodeChar {c : Char} (h : ¬ c.toNat < 0x80) {b : UInt8}
    (hb : b ∈ String.utf8EncodeChar c) : 0x80 ≤ b.toNat := by
  have hv := toNat_valid c
  have hn : c.val.toNat = c.toNat := rfl
  rw [String.utf8EncodeChar, hn] at hb
  split_ifs at hb <;> simp only [List.mem_cons, List.not_mem_nil, or_false] at hb
  · omega
  · obtain rfl | rfl := hb <;> rw [toNat_byte (by omega)] <;> omega
  · obtain rfl | rfl | rfl := hb <;> rw [toNat_byte (by omega)] <;> omega
  · obtain rfl | rfl | rfl | rfl := hb <;> rw [toNat_byte (by omega)] <;> omega

theorem encodeUtf8_cons (c : Char) (cs : List Char) :
    encodeUtf8 (c :: cs) = String.utf8EncodeChar c ++ encodeUtf8 cs := rfl

theorem encodeUtf8_append (cs ds : List Char) :
    encodeUtf8 (cs ++ ds) = encodeUtf8 cs ++ encodeUtf8 ds :=
  List.flatMap_append

/-- A text below `0x80` is one byte a character. -/
theorem encodeUtf8_of_ascii {cs : List Char} (h : ∀ c ∈ cs, c.toNat < 0x80) :
    encodeUtf8 cs = cs.map fun c => UInt8.ofNat c.toNat := by
  induction cs with
  | nil => rfl
  | cons c cs ih =>
    rw [encodeUtf8_cons, encodeChar_of_ascii (h c List.mem_cons_self),
      ih fun d hd => h d (List.mem_cons_of_mem c hd), List.map_cons, List.singleton_append]

theorem length_le_length_encodeUtf8 (cs : List Char) : cs.length ≤ (encodeUtf8 cs).length := by
  induction cs with
  | nil => exact Nat.le_refl _
  | cons c cs ih =>
    rw [encodeUtf8_cons, List.length_append, length_encodeChar, List.length_cons]
    split_ifs <;> omega

theorem encodeUtf16_append (cs ds : List Char) :
    encodeUtf16 (cs ++ ds) = encodeUtf16 cs ++ encodeUtf16 ds :=
  List.flatMap_append

/-- A text has at most as many units as bytes. -/
theorem length_encodeUtf16_le (cs : List Char) :
    (encodeUtf16 cs).length ≤ (encodeUtf8 cs).length := by
  induction cs with
  | nil => exact Nat.le_refl _
  | cons c cs ih =>
    have hchar : (encodeUtf16Char c).length ≤ (String.utf8EncodeChar c).length := by
      rw [encodeUtf16Char, length_encodeChar]
      split_ifs <;> (simp only [List.length_cons, List.length_nil]; omega)
    rw [encodeUtf8_cons, List.length_append]
    show (encodeUtf16Char c ++ encodeUtf16 cs).length ≤ _
    rw [List.length_append]
    omega

/-- A text with characters left out is no longer. -/
theorem length_encodeUtf8_filter_le (p : Char → Bool) (cs : List Char) :
    (encodeUtf8 (cs.filter p)).length ≤ (encodeUtf8 cs).length := by
  induction cs with
  | nil => exact Nat.le_refl _
  | cons c cs ih =>
    rw [List.filter_cons, encodeUtf8_cons, List.length_append]
    split_ifs
    · rw [encodeUtf8_cons, List.length_append]
      omega
    · omega

/-- As many bytes as characters: every character is an ASCII one. -/
theorem ascii_of_length_encodeUtf8 {cs : List Char} (h : (encodeUtf8 cs).length = cs.length) :
    ∀ c ∈ cs, c.toNat < 0x80 := by
  induction cs with
  | nil => simp
  | cons c cs ih =>
    have hle := length_le_length_encodeUtf8 cs
    rw [encodeUtf8_cons, List.length_append, length_encodeChar, List.length_cons] at h
    have hc : c.toNat < 0x80 := by
      by_contra hc
      rw [if_neg hc] at h
      split_ifs at h <;> omega
    rw [if_pos hc] at h
    rintro d (_ | ⟨_, hd⟩)
    · exact hc
    · exact ih (by omega) d hd

/-- An ASCII byte stands for its character, wherever it is. -/
theorem count_encodeUtf8 {a : Char} (ha : a.toNat < 0x80) (cs : List Char) :
    (encodeUtf8 cs).count (UInt8.ofNat a.toNat) = cs.count a := by
  induction cs with
  | nil => rfl
  | cons c cs ih =>
    rw [encodeUtf8_cons, List.count_append, ih, List.count_cons, Nat.add_comm]
    congr 1
    by_cases hc : c.toNat < 0x80
    · rw [encodeChar_of_ascii hc, List.count_singleton]
      refine if_congr ?_ rfl rfl
      rw [beq_iff_eq, beq_iff_eq, ← UInt8.toNat_inj, toNat_byte (by omega), toNat_byte (by omega),
        ← Char.toNat_inj]
    · have hne : ¬ (c == a) = true := by
        rw [beq_iff_eq]
        rintro rfl
        exact hc ha
      rw [if_neg hne, List.count_eq_zero]
      intro hmem
      have hle := le_of_mem_encodeChar hc hmem
      rw [toNat_byte (by omega)] at hle
      omega

/-- A text ends in an ASCII character exactly if its bytes end in that byte, since no longer
encoding ends in one. -/
theorem getLast?_encodeUtf8 {a : Char} (ha : a.toNat < 0x80) (cs : List Char) :
    (encodeUtf8 cs).getLast? = some (UInt8.ofNat a.toNat) ↔ cs.getLast? = some a := by
  rcases List.eq_nil_or_concat cs with rfl | ⟨front, c, rfl⟩
  · simp [encodeUtf8]
  · have hlast : encodeUtf8 [c] = String.utf8EncodeChar c := List.flatMap_singleton _ _
    rw [List.concat_eq_append, encodeUtf8_append, hlast, List.getLast?_append,
      List.getLast?_concat]
    by_cases hc : c.toNat < 0x80
    · rw [encodeChar_of_ascii hc]
      simp only [List.getLast?_singleton, Option.some_or, Option.some.injEq]
      rw [← UInt8.toNat_inj, toNat_byte (by omega), toNat_byte (by omega), ← Char.toNat_inj]
    · have hne : String.utf8EncodeChar c ≠ [] := String.utf8EncodeChar_ne_nil
      rw [List.getLast?_eq_some_getLast hne, Option.some_or, Option.some.injEq, Option.some.injEq]
      constructor
      · intro h
        have hle := le_of_mem_encodeChar hc (List.getLast_mem hne)
        rw [h, toNat_byte (by omega)] at hle
        omega
      · rintro rfl
        exact absurd ha hc

/-! ### What is decoded is encoded again -/

theorem isTail_iff (b : UInt8) : isTail b = true ↔ 0x80 ≤ b.toNat ∧ b.toNat < 0xC0 := by
  simp only [isTail, UInt8.le_iff_toNat_le, Bool.and_eq_true, decide_eq_true_eq,
    UInt8.reduceToNat]
  omega

theorem isSecond_iff (lead b : UInt8) : isSecond lead b = true ↔
    (if lead.toNat = 0xE0 then 0xA0 else if lead.toNat = 0xF0 then 0x90 else 0x80) ≤ b.toNat ∧
      b.toNat < if lead.toNat = 0xED then 0xA0 else if lead.toNat = 0xF4 then 0x90 else 0xC0 := by
  simp only [isSecond, secondRange, ← UInt8.toNat_inj, UInt8.reduceToNat]
  split_ifs <;>
    simp only [UInt8.le_iff_toNat_le, Bool.and_eq_true, decide_eq_true_eq, UInt8.reduceToNat] <;>
    omega

theorem ofNat_eq_byte {n : ℕ} {b : UInt8} (h : n = b.toNat) : UInt8.ofNat n = b := by
  rw [h, UInt8.ofNat_toNat]

/-- Two bytes that are accepted are the encoding of what they decode to. -/
theorem encodeChar_two {a b : UInt8} (ha : 0xC2 ≤ a.toNat ∧ a.toNat ≤ 0xDF)
    (hb : isTail b = true) :
    String.utf8EncodeChar (Char.ofNat (a.toNat % 32 * 64 + tailBits b)) = [a, b] := by
  rw [isTail_iff] at hb
  rw [tailBits]
  have hn : (Char.ofNat (a.toNat % 32 * 64 + b.toNat % 64)).val.toNat =
      a.toNat % 32 * 64 + b.toNat % 64 := toNat_ofNat (by omega)
  rw [String.utf8EncodeChar, hn, if_neg (by omega), if_pos (by omega),
    ofNat_eq_byte (b := a) (by omega), ofNat_eq_byte (b := b) (by omega)]

/-- Three bytes that are accepted are the encoding of what they decode to. -/
theorem encodeChar_three {a b c : UInt8} (ha : 0xE0 ≤ a.toNat ∧ a.toNat ≤ 0xEF)
    (hb : isSecond a b = true) (hc : isTail c = true) :
    String.utf8EncodeChar
      (Char.ofNat (a.toNat % 16 * 4096 + tailBits b * 64 + tailBits c)) = [a, b, c] := by
  rw [isSecond_iff] at hb
  rw [isTail_iff] at hc
  rw [tailBits, tailBits]
  have hn : (Char.ofNat (a.toNat % 16 * 4096 + b.toNat % 64 * 64 + c.toNat % 64)).val.toNat =
      a.toNat % 16 * 4096 + b.toNat % 64 * 64 + c.toNat % 64 := toNat_ofNat (by grind)
  have hmin : 0x800 ≤ a.toNat % 16 * 4096 + b.toNat % 64 * 64 + c.toNat % 64 := by grind
  have hb' : 0x80 ≤ b.toNat ∧ b.toNat < 0xC0 := by grind
  rw [String.utf8EncodeChar, hn, if_neg (by omega), if_neg (by omega), if_pos (by omega),
    ofNat_eq_byte (b := a) (by omega), ofNat_eq_byte (b := b) (by omega),
    ofNat_eq_byte (b := c) (by omega)]

/-- Four bytes that are accepted are the encoding of what they decode to. -/
theorem encodeChar_four {a b c d : UInt8} (ha : 0xF0 ≤ a.toNat ∧ a.toNat ≤ 0xF4)
    (hb : isSecond a b = true) (hc : isTail c = true) (hd : isTail d = true) :
    String.utf8EncodeChar (Char.ofNat (a.toNat % 8 * 262144 + tailBits b * 4096 +
      tailBits c * 64 + tailBits d)) = [a, b, c, d] := by
  rw [isSecond_iff] at hb
  rw [isTail_iff] at hc hd
  rw [tailBits, tailBits, tailBits]
  have hb' : 0x80 ≤ b.toNat ∧ b.toNat < 0xC0 := by grind
  have hmin : 0x10000 ≤ a.toNat % 8 * 262144 + b.toNat % 64 * 4096 + c.toNat % 64 * 64 +
      d.toNat % 64 := by grind
  have hmax : a.toNat % 8 * 262144 + b.toNat % 64 * 4096 + c.toNat % 64 * 64 + d.toNat % 64 <
      0x110000 := by grind
  have hn : (Char.ofNat (a.toNat % 8 * 262144 + b.toNat % 64 * 4096 + c.toNat % 64 * 64 +
      d.toNat % 64)).val.toNat = a.toNat % 8 * 262144 + b.toNat % 64 * 4096 +
        c.toNat % 64 * 64 + d.toNat % 64 := toNat_ofNat (by omega)
  rw [String.utf8EncodeChar, hn, if_neg (by omega), if_neg (by omega), if_neg (by omega),
    ofNat_eq_byte (b := a) (by omega), ofNat_eq_byte (b := b) (by omega),
    ofNat_eq_byte (b := c) (by omega), ofNat_eq_byte (b := d) (by omega)]

/-- A well-formed sequence is the encoding of what it decodes to. -/
theorem encodeUtf8_of_decodeUtf8Chunks {bytes : List UInt8} {cs : List Char}
    (h : decodeUtf8Chunks bytes = cs.map some) : encodeUtf8 cs = bytes := by
  have hlost : ∀ {rest : List (Option Char)} {cs : List Char}, none :: rest ≠ cs.map some := by
    intro rest cs hrest
    have hnone : none ∈ cs.map some := hrest ▸ List.mem_cons_self
    simp at hnone
  have hcons : ∀ {first : Char} {rest : List (Option Char)} {cs : List Char},
      some first :: rest = cs.map some → ∃ cs', cs = first :: cs' ∧ rest = cs'.map some := by
    intro first rest cs hrest
    cases cs with
    | nil => cases hrest
    | cons c cs =>
      cases hrest
      exact ⟨cs, rfl, rfl⟩
  fun_induction decodeUtf8Chunks bytes generalizing cs with
  | case1 =>
    rw [List.nil_eq, List.map_eq_nil_iff] at h
    rw [h]
    rfl
  | case2 a rest ha ih =>
    obtain ⟨cs', rfl, hrest⟩ := hcons h
    have ha' : a.toNat < 0x80 := by simpa [UInt8.lt_iff_toNat_lt] using ha
    have hc : (Char.ofNat a.toNat).toNat = a.toNat := toNat_ofNat (by omega)
    rw [encodeUtf8_cons, encodeChar_of_ascii (by omega), hc, UInt8.ofNat_toNat, ih hrest]
    rfl
  | case3 a _ ha b rest hb ih =>
    obtain ⟨cs', rfl, hrest⟩ := hcons h
    rw [encodeUtf8_cons, encodeChar_two (by simpa [UInt8.le_iff_toNat_le] using ha) hb, ih hrest]
    rfl
  | case6 a _ _ ha b hb c rest hc ih =>
    obtain ⟨cs', rfl, hrest⟩ := hcons h
    rw [encodeUtf8_cons, encodeChar_three (by simpa [UInt8.le_iff_toNat_le] using ha) hb hc,
      ih hrest]
    rfl
  | case11 a _ _ _ ha b hb c hc d rest hd ih =>
    obtain ⟨cs', rfl, hrest⟩ := hcons h
    rw [encodeUtf8_cons, encodeChar_four (by simpa [UInt8.le_iff_toNat_le] using ha) hb hc hd,
      ih hrest]
    rfl
  | case4 | case5 | case7 | case8 | case9 | case10 | case12 | case13 | case14 | case15 | case16
  | case17 | case18 => exact absurd h hlost

/-- The strict decoder accepts nothing but encodings. -/
theorem encodeUtf8_of_decodeUtf8 {bytes : List UInt8} {cs : List Char}
    (h : decodeUtf8 bytes = some cs) : encodeUtf8 cs = bytes := by
  refine encodeUtf8_of_decodeUtf8Chunks ?_
  rw [decodeUtf8] at h
  generalize decodeUtf8Chunks bytes = chunks at h
  induction chunks generalizing cs with
  | nil =>
    cases h
    rfl
  | cons chunk chunks ih =>
    simp only [List.mapM_cons, id_eq, Option.bind_eq_bind, Option.bind_eq_some_iff] at h
    obtain ⟨c, rfl, cs', hcs', hc⟩ := h
    cases hc
    rw [ih hcs', List.map_cons]

/-! ### Boundaries -/

/-- A position between two characters, or at an end. -/
def isCharBoundary (bytes : List UInt8) (n : ℕ) : Bool :=
  match bytes[n]? with
  | some b => !isTail b
  | none => n = bytes.length

/-- The first byte of a character is no continuation byte, and the others are. -/
theorem encodeChar_eq_cons (c : Char) : ∃ lead tail, String.utf8EncodeChar c = lead :: tail ∧
    isTail lead = false ∧ ∀ b ∈ tail, isTail b = true := by
  have hv := toNat_valid c
  have hn : c.val.toNat = c.toNat := rfl
  have hlead : ∀ m, m < 0x80 ∨ 0xC0 ≤ m ∧ m < 256 → isTail (UInt8.ofNat m) = false := by
    intro m hm
    rw [← Bool.not_eq_true, isTail_iff, toNat_byte (by omega)]
    omega
  rw [String.utf8EncodeChar, hn]
  split_ifs
  · exact ⟨_, _, rfl, hlead _ (by omega), List.forall_mem_nil _⟩
  · exact ⟨_, _, rfl, hlead _ (by omega), by simp only [List.forall_mem_singleton, isTail_byte]⟩
  · refine ⟨_, _, rfl, hlead _ (by omega), ?_⟩
    simp only [List.forall_mem_cons, isTail_byte, List.not_mem_nil, IsEmpty.forall_iff,
      implies_true, and_self]
  · refine ⟨_, _, rfl, hlead _ (by omega), ?_⟩
    simp only [List.forall_mem_cons, isTail_byte, List.not_mem_nil, IsEmpty.forall_iff,
      implies_true, and_self]

theorem isCharBoundary_zero (cs : List Char) : isCharBoundary (encodeUtf8 cs) 0 = true := by
  cases cs with
  | nil => rfl
  | cons c cs =>
    obtain ⟨lead, tail, hc, hlead, -⟩ := encodeChar_eq_cons c
    rw [isCharBoundary, encodeUtf8_cons, hc, List.cons_append, List.getElem?_cons_zero]
    simp only [hlead, Bool.not_false]

/-- No boundary is inside a character. -/
theorem isCharBoundary_inside {c : Char} {n : ℕ} (hn : 0 < n) (hsize : n < c.utf8Size)
    (cs : List Char) : isCharBoundary (encodeUtf8 (c :: cs)) n = false := by
  obtain ⟨lead, tail, hc, -, htail⟩ := encodeChar_eq_cons c
  have hlength := String.length_utf8EncodeChar c
  rw [hc, List.length_cons] at hlength
  have hget : (encodeUtf8 (c :: cs))[n]? = some tail[n - 1] := by
    rw [encodeUtf8_cons, hc, List.getElem?_append_left (by rw [List.length_cons]; omega),
      List.getElem?_cons, if_neg (by omega), List.getElem?_eq_getElem]
  rw [isCharBoundary, hget]
  simp only [htail _ (List.getElem_mem _), Bool.not_true]

/-- Past the first character the boundaries are those of the rest. -/
theorem isCharBoundary_beyond {c : Char} {cs : List Char} {n : ℕ}
    (h : c.utf8Size ≤ n) : isCharBoundary (encodeUtf8 (c :: cs)) n =
      isCharBoundary (encodeUtf8 cs) (n - c.utf8Size) := by
  have hlength : (String.utf8EncodeChar c).length = c.utf8Size := String.length_utf8EncodeChar c
  have hend : (n = c.utf8Size + (encodeUtf8 cs).length) =
      (n - c.utf8Size = (encodeUtf8 cs).length) := by
    rw [eq_iff_iff]
    omega
  rw [isCharBoundary, isCharBoundary, encodeUtf8_cons, List.getElem?_append_right (by omega),
    List.length_append, hlength]
  simp only [hend]

/-! ### What units hold -/

/-- What the first unit of a text decodes to: its own character, or one beyond all units. -/
theorem decodeUtf16Units_cons (u : UInt16) (us : List UInt16) :
    ∃ first rest, decodeUtf16Units (u :: us) = first :: rest ∧
      ∀ c, first = some c → c.toNat = u.toNat ∨ 0x10000 ≤ c.toNat := by
  have hnone : ∀ c : Char, none = some c → c.toNat = u.toNat ∨ 0x10000 ≤ c.toNat := by
    rintro c ⟨⟩
  rw [decodeUtf16Units.eq_def]
  dsimp only
  split_ifs with hhigh hlow
  · split
    · split_ifs with hlow
      · refine ⟨_, _, rfl, fun c hc => ?_⟩
        rw [isHighSurrogate_iff] at hhigh
        rw [isLowSurrogate_iff] at hlow
        rw [← Option.some.inj hc, toNat_ofNat (Or.inr ⟨by omega, by omega⟩)]
        omega
      · exact ⟨_, _, rfl, hnone⟩
    · exact ⟨_, _, rfl, hnone⟩
  · exact ⟨_, _, rfl, hnone⟩
  · refine ⟨_, _, rfl, fun c hc => Or.inl ?_⟩
    have hlt := u.toNat_lt
    rw [isHighSurrogate_iff] at hhigh
    rw [isLowSurrogate_iff] at hlow
    rw [← Option.some.inj hc, toNat_ofNat (by omega)]

/-- A unit that is no surrogate is decoded to itself, any other to no smaller number than the first
surrogate. -/
theorem decodeUtf16Lossy_cons (u : UInt16) (us : List UInt16) :
    ∃ c cs, decodeUtf16Lossy (u :: us) = c :: cs ∧ (c.toNat = u.toNat ∨ 0xD800 ≤ c.toNat) := by
  obtain ⟨first, rest, hunits, hfirst⟩ := decodeUtf16Units_cons u us
  rw [decodeUtf16Lossy, hunits, List.map_cons]
  refine ⟨_, _, rfl, ?_⟩
  cases first with
  | none => exact Or.inr (by decide)
  | some c =>
    have hc := hfirst c rfl
    rw [Option.getD_some]
    omega

theorem toNat_u16FromLe (a b : UInt8) : (u16FromLe a b).toNat = a.toNat + 256 * b.toNat := by
  have ha := a.toNat_lt
  have hb := b.toNat_lt
  rw [u16FromLe, toNat_unit (by omega)]

/-- Two bytes that are not both zero make a unit that is not zero. -/
theorem u16FromLe_ne_zero {a b : UInt8} (h : a ≠ 0 ∨ b ≠ 0) : u16FromLe a b ≠ 0 := by
  intro hzero
  have hu := toNat_u16FromLe a b
  rw [hzero] at hu
  change 0 = _ at hu
  rcases h with ha | hb
  · exact ha (UInt8.toNat_inj.mp (show a.toNat = 0 by omega))
  · exact hb (UInt8.toNat_inj.mp (show b.toNat = 0 by omega))

theorem length_flatMap_u16ToLe (us : List UInt16) :
    (us.flatMap u16ToLe).length = 2 * us.length := by
  induction us with
  | nil => rfl
  | cons u us ih =>
    rw [List.flatMap_cons, List.length_append, ih, List.length_cons]
    show 2 + _ = _
    omega

/-- Bytes without a zero make units without a zero, most of them beyond ASCII. -/
theorem unitsOfLe_of_nonzero {terminator : List UInt8}
    (hterm : terminator = [] ∨ terminator = [0]) :
    ∀ document : List UInt8, 0 ∉ document →
      (∀ u ∈ unitsOfLe (document ++ terminator), decide (u ≠ 0) = true) ∧
        document.length / 2 ≤
          (unitsOfLe (document ++ terminator)).countP (fun u => 0x80 ≤ u.toNat)
  | [], _ => by
    rcases hterm with rfl | rfl
    · exact ⟨by simp [unitsOfLe], Nat.zero_le _⟩
    · exact ⟨by simp [unitsOfLe], Nat.zero_le _⟩
  | [a], hdocument => by
    have ha : a ≠ 0 := by
      rintro rfl
      simp at hdocument
    rcases hterm with rfl | rfl
    · exact ⟨by simp [unitsOfLe], by simp⟩
    · exact ⟨by simpa [unitsOfLe] using u16FromLe_ne_zero (Or.inl ha), by simp⟩
  | a :: b :: document, hdocument => by
    have hb : b ≠ 0 := by
      rintro rfl
      simp at hdocument
    have hb' : b.toNat ≠ 0 := fun h => hb (UInt8.toNat_inj.mp h)
    obtain ⟨hnonzero, hcount⟩ := unitsOfLe_of_nonzero hterm document
      fun h => hdocument (List.mem_cons_of_mem a (List.mem_cons_of_mem b h))
    have hunit : 0x80 ≤ (u16FromLe a b).toNat := by
      rw [toNat_u16FromLe]
      omega
    rw [List.cons_append, List.cons_append, unitsOfLe]
    refine ⟨?_, ?_⟩
    · rintro u (_ | ⟨_, hu⟩)
      · simpa using u16FromLe_ne_zero (Or.inr hb)
      · exact hnonzero u hu
    · rw [List.countP_cons_of_pos (by simpa using hunit), List.length_cons, List.length_cons]
      omega

/-- A character that is none of ASCII. -/
def nonAscii (c : Char) : Bool := 0x80 ≤ c.toNat

/-- Two bytes of UTF-16 are at least two bytes of UTF-8, whatever they hold beyond ASCII. -/
theorem two_mul_countP_le (us : List UInt16) :
    2 * us.countP (fun u => 0x80 ≤ u.toNat) ≤
      (encodeUtf8 ((decodeUtf16Lossy us).filter nonAscii)).length := by
  have hcons : ∀ (c : Char) (cs : List Char), nonAscii c = true →
      (encodeUtf8 ((c :: cs).filter nonAscii)).length =
        (String.utf8EncodeChar c).length + (encodeUtf8 (cs.filter nonAscii)).length := by
    intro c cs hc
    rw [List.filter_cons_of_pos hc, encodeUtf8_cons, List.length_append]
  have hlost : nonAscii replacement = true ∧ (String.utf8EncodeChar replacement).length = 3 := by
    decide
  rw [decodeUtf16Lossy]
  fun_induction decodeUtf16Units us with
  | case1 => exact Nat.le_refl _
  | case2 u hu v rest hv ih =>
    rw [isHighSurrogate_iff] at hu
    rw [isLowSurrogate_iff] at hv
    have hpair : (Char.ofNat (0x10000 + (u.toNat - 0xD800) * 1024 + (v.toNat - 0xDC00))).toNat =
        0x10000 + (u.toNat - 0xD800) * 1024 + (v.toNat - 0xDC00) :=
      toNat_ofNat (Or.inr ⟨by omega, by omega⟩)
    rw [List.map_cons, Option.getD_some, hcons _ _ (by simp only [nonAscii, hpair]; grind),
      length_encodeChar, hpair, List.countP_cons, List.countP_cons]
    split_ifs <;> omega
  | case3 u hu v rest hv ih =>
    rw [List.map_cons, Option.getD_none, hcons _ _ hlost.1, hlost.2, List.countP_cons]
    split_ifs <;> omega
  | case4 u hu =>
    rw [List.map_cons, Option.getD_none, hcons _ _ hlost.1, hlost.2, List.countP_cons]
    rw [List.countP_nil]
    split_ifs <;> omega
  | case5 u rest hu hv ih =>
    rw [List.map_cons, Option.getD_none, hcons _ _ hlost.1, hlost.2, List.countP_cons]
    split_ifs <;> omega
  | case6 u rest hu hv ih =>
    rw [isHighSurrogate_iff] at hu
    rw [isLowSurrogate_iff] at hv
    have hlt := u.toNat_lt
    have hunit : (Char.ofNat u.toNat).toNat = u.toNat :=
      toNat_ofNat (by omega)
    rw [List.map_cons, Option.getD_some, List.countP_cons]
    by_cases hascii : 0x80 ≤ u.toNat
    · rw [hcons _ _ (by simp only [nonAscii, hunit]; grind), length_encodeChar, hunit]
      split_ifs <;> omega
    · rw [if_neg (by simpa using hascii), List.filter_cons_of_neg]
      · omega
      · simpa [nonAscii, hunit] using hascii

end Unicode

end Cheirizo
