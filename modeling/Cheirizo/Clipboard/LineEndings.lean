import Cheirizo.Clipboard.Transcode

/-!
# Clipboard text there and back

The line endings of `src/rdp/channels/clipboard/core/sanitize.rs` and the `CF_UNICODETEXT`
conversions of `core/formats.rs`, composed. Windows line endings are written in two passes: every
CRLF becomes LF, and then every LF becomes CRLF. A carriage return of the text may come to stand
before one of these, and still the first pass takes apart exactly the pairs that the second one has
made.

## Main results

* `convertLineEndingsToUnix_toWindows` — the pairs that are written are those that are read
* `text_survives_roundTrip` — the round trip, and the laws of the line endings
-/

namespace Cheirizo

namespace Clipboard

open Unicode

/-- The limit is one on the text as it is given. -/
def FormatConverter.textToUnicode (converter : FormatConverter) (text : List Char) :
    Except ConversionError (List UInt8) :=
  if converter.maxSize < byteLen text then
    .error (.dataSizeExceeded (byteLen text) converter.maxSize)
  else .ok ((encodeUtf16 text).flatMap u16ToLe ++ [0, 0])

/-! ### Pairs -/

/-- A line feed as CRLF. -/
def crlf (c : Char) : List Char := if c = '\n' then ['\r', '\n'] else [c]

theorem crlf_of_ne {c : Char} (h : c ≠ '\n') : crlf c = [c] := if_neg h

/-- What is written begins with no line feed. -/
theorem flatMap_crlf_ne (cs rest : List Char) : cs.flatMap crlf ≠ '\n' :: rest := by
  cases cs with
  | nil => exact List.cons_ne_nil _ _ |>.symm
  | cons c cs =>
    rw [List.flatMap_cons]
    by_cases hlf : c = '\n'
    · rw [hlf]
      exact fun h => absurd (List.cons.inj h).1 (by decide)
    · rw [crlf_of_ne hlf]
      exact fun h => hlf (List.cons.inj h).1

theorem convertLineEndingsToUnix_flatMap (cs : List Char) :
    convertLineEndingsToUnix (cs.flatMap crlf) = cs := by
  induction cs with
  | nil => rfl
  | cons c cs ih =>
    rw [List.flatMap_cons]
    by_cases hlf : c = '\n'
    · rw [hlf]
      show '\n' :: convertLineEndingsToUnix (cs.flatMap crlf) = _
      rw [ih]
    · rw [crlf_of_ne hlf, List.singleton_append]
      by_cases hcr : c = '\r'
      · -- A carriage return of the text itself does not pair with what follows.
        rw [hcr, convertLineEndingsToUnix, ih]
        exact fun rest _ h => flatMap_crlf_ne cs rest h
      · rw [convertLineEndingsToUnix_cons hcr, ih]

/-- **The pairs that are written are those that are read.** -/
theorem convertLineEndingsToUnix_toWindows (cs : List Char) :
    convertLineEndingsToUnix (convertLineEndingsToWindows cs) = convertLineEndingsToUnix cs :=
  convertLineEndingsToUnix_flatMap _

/-- A carriage return is before every line feed. -/
def Paired (cs : List Char) : Prop :=
  ∀ front rest, cs = front ++ '\n' :: rest → front.getLast? = some '\r'

theorem paired_flatMap (cs : List Char) : Paired (cs.flatMap crlf) := by
  induction cs with
  | nil => exact fun front rest h => absurd h (by simp)
  | cons c cs ih =>
    have hlater : ∀ (a : Char) {front rest : List Char}, cs.flatMap crlf = front ++ '\n' :: rest →
        (a :: front).getLast? = some '\r' := by
      intro a front rest h
      rw [List.getLast?_cons, ih front rest h, Option.getD_some]
    intro front rest h
    rw [List.flatMap_cons] at h
    by_cases hlf : c = '\n'
    · rw [hlf] at h
      match front with
      | [] => exact absurd (List.cons.inj h).1 (by decide)
      | [_] =>
        rw [← (List.cons.inj h).1]
        rfl
      | _ :: lf :: front =>
        exact hlater lf (List.cons.inj (List.cons.inj h).2).2
    · rw [crlf_of_ne hlf] at h
      cases front with
      | nil => exact absurd (List.cons.inj h).1 hlf
      | cons a front => exact hlater a (List.cons.inj h).2

/-! ### Texts without zeros -/

theorem sanitizeTextForWindows_eq {cs : List Char} (h : '\x00' ∉ cs) :
    sanitizeTextForWindows cs = convertLineEndingsToWindows cs := by
  rw [sanitizeTextForWindows, List.filter_eq_self]
  intro c hc
  rw [decide_eq_true_eq]
  rintro rfl
  exact h ((mem_convertLineEndingsToWindows (by decide) cs).mp hc)

theorem sanitizeTextForWindows_idem {cs : List Char} (h : '\x00' ∉ cs) :
    sanitizeTextForWindows (sanitizeTextForWindows cs) = sanitizeTextForWindows cs := by
  have hwindows : '\x00' ∉ convertLineEndingsToWindows cs :=
    fun hmem => h ((mem_convertLineEndingsToWindows (by decide) cs).mp hmem)
  rw [sanitizeTextForWindows_eq h, sanitizeTextForWindows_eq hwindows, convertLineEndingsToWindows,
    convertLineEndingsToUnix_toWindows, convertLineEndingsToWindows]

/-- A text without carriage returns has Unix line endings already. -/
theorem convertLineEndingsToUnix_eq_self {cs : List Char} (h : '\r' ∉ cs) :
    convertLineEndingsToUnix cs = cs := by
  induction cs with
  | nil => rfl
  | cons c cs ih =>
    obtain ⟨hc, hcs⟩ : '\r' ≠ c ∧ '\r' ∉ cs := by simpa using h
    rw [convertLineEndingsToUnix_cons hc.symm, ih hcs]

/-! ### There and back -/

/-- **Clipboard text survives the trip.** A text without zeros and carriage returns comes back from
the other side, if its Windows form is not too large; and the Windows form of any text without zeros
is one, with a carriage return before every line feed, and stands for the same text. -/
theorem text_survives_roundTrip :
    (∀ (converter : FormatConverter) (text : List Char), '\x00' ∉ text → '\r' ∉ text →
      byteLen (convertLineEndingsToWindows text) ≤ converter.maxSize →
      2 * (encodeUtf16 (convertLineEndingsToWindows text)).length + 2 ≤ converter.maxSize →
        ((converter.textToUnicode (sanitizeTextForWindows text)).bind
          converter.unicodeToText).map sanitizeTextForLinux = .ok text) ∧
    ∀ text : List Char, '\x00' ∉ text →
      sanitizeTextForWindows (sanitizeTextForWindows text) = sanitizeTextForWindows text ∧
      Paired (sanitizeTextForWindows text) ∧
      convertLineEndingsToUnix (sanitizeTextForWindows text) = convertLineEndingsToUnix text := by
  refine ⟨fun converter text hzero hcr hutf8 hutf16 => ?_,
    fun text hzero => ⟨sanitizeTextForWindows_idem hzero, ?_, ?_⟩⟩
  · have hwindows : '\x00' ∉ convertLineEndingsToWindows text :=
      fun hmem => hzero ((mem_convertLineEndingsToWindows (by decide) text).mp hmem)
    rw [sanitizeTextForWindows_eq hzero, FormatConverter.textToUnicode,
      if_neg (Nat.not_lt.mpr hutf8), Except.bind, unicodeToText_encodeUtf16,
      if_neg (Nat.not_lt.mpr hutf16), Except.map, sanitizeTextForLinux_eq hwindows,
      convertLineEndingsToUnix_toWindows, convertLineEndingsToUnix_eq_self hcr]
  · rw [sanitizeTextForWindows_eq hzero]
    exact paired_flatMap _
  · rw [sanitizeTextForWindows_eq hzero, convertLineEndingsToUnix_toWindows]

/-- A surrogate pair between line feeds, and a carriage return before a pair. -/
theorem emoji_survives_roundTrip :
    ((FormatConverter.new.textToUnicode (sanitizeTextForWindows "\n😀\n".toList)).bind
      FormatConverter.new.unicodeToText).map sanitizeTextForLinux = .ok "\n😀\n".toList ∧
    Paired (sanitizeTextForWindows "\r\r\n\n".toList) :=
  ⟨text_survives_roundTrip.1 _ _ (by decide) (by decide) (by decide +kernel) (by decide +kernel),
    (text_survives_roundTrip.2 _ (by decide)).2.1⟩

end Clipboard

end Cheirizo
