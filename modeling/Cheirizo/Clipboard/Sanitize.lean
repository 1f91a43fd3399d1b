import Cheirizo.Lib.Text
import Cheirizo.Lib.Unicode

/-!
# Names, paths and text crossing the clipboard

`src/rdp/channels/clipboard/core/sanitize.rs`: file names made safe for the other side, file URIs,
and line endings. Text is a list of characters; lengths that the source takes in bytes are byte
lengths of the UTF-8 encoding here too.

## Main definitions

* `sanitizeFilenameForWindows`, `sanitizeFilenameForLinux`
* `parseFileUris`, `percentDecode`
* `sanitizeTextForWindows`, `sanitizeTextForLinux`
-/

namespace Cheirizo

namespace Clipboard

open Unicode

/-- The length of a text in bytes. -/
def byteLen (cs : List Char) : ℕ := (encodeUtf8 cs).length

theorem byteLen_append (cs ds : List Char) : byteLen (cs ++ ds) = byteLen cs + byteLen ds := by
  rw [byteLen, encodeUtf8_append, List.length_append, byteLen, byteLen]

theorem byteLen_cons (c : Char) (cs : List Char) : byteLen (c :: cs) = c.utf8Size + byteLen cs := by
  rw [byteLen, encodeUtf8_cons, List.length_append, String.length_utf8EncodeChar, byteLen]

theorem byteLen_of_ascii {cs : List Char} (h : ∀ c ∈ cs, c.toNat < 0x80) :
    byteLen cs = cs.length := by
  rw [byteLen, encodeUtf8_of_ascii h, List.length_map]

/-! ### File names -/

/-- Shorten a name of more than 255 bytes, keeping its extension if that is short enough. The
characters kept are counted, not their bytes. -/
def truncateName (cs : List Char) : List Char :=
  if byteLen cs ≤ 255 then cs
  else
    match Text.rsplitOnce ['.'] cs with
    | none => cs.take 255
    | some (base, ext) =>
      if byteLen ('.' :: ext) < 254 then
        base.take (255 - byteLen ('.' :: ext)) ++ '.' :: ext
      else cs.take 255

/-- What Windows does not take in a name. -/
def windowsInvalidChars : List Char := ['\\', '/', ':', '*', '?', '"', '<', '>', '|']

/-- The names of devices, whatever extension follows. -/
def windowsReservedNames : List String :=
  ["CON", "PRN", "AUX", "NUL", "COM1", "COM2", "COM3", "COM4", "COM5", "COM6", "COM7", "COM8",
    "COM9", "LPT1", "LPT2", "LPT3", "LPT4", "LPT5", "LPT6", "LPT7", "LPT8", "LPT9"]

/-- The Unicode category `Cc`. -/
def isControl (c : Char) : Bool := c.toNat < 0x20 || (0x7F ≤ c.toNat && c.toNat < 0xA0)

/-- The part before the first dot, in upper case. Only ASCII letters matter to the comparison it
is used in: no other character has an upper-case form spelled with letters of a reserved name. -/
def upperBase (cs : List Char) : List Char := (cs.takeWhile (· ≠ '.')).map Char.toUpper

/-- Remove trailing dots and spaces. -/
def trimDotsAndSpaces (cs : List Char) : List Char :=
  (cs.reverse.dropWhile fun c => c = '.' || c = ' ').reverse

/-- A name that Windows takes. A reserved one gets something in front. -/
def sanitizeFilenameForWindows (filename : List Char) : List Char :=
  let replaced := filename.map fun c =>
    if windowsInvalidChars.contains c || isControl c then '_' else c
  let sanitized := trimDotsAndSpaces replaced
  if sanitized.isEmpty then "_unnamed_".toList
  else if (windowsReservedNames.map String.toList).contains (upperBase sanitized) then
    truncateName ('_' :: sanitized)
  else truncateName sanitized

/-- A name that stays in its directory, and is no option of a command. -/
def sanitizeFilenameForLinux (filename : List Char) : List Char :=
  let replaced := filename.map fun c => if c = '/' || c = '\x00' || c = '\\' then '_' else c
  let sanitized := if replaced.head? = some '-' then '_' :: replaced else replaced
  if sanitized = [] ∨ sanitized = ['.'] ∨ sanitized = ['.', '.'] then "_unnamed_".toList
  else truncateName sanitized

/-! ### File URIs -/

/-- The value of a hexadecimal digit. -/
def hexDigit (c : Char) : Option ℕ :=
  if '0' ≤ c ∧ c ≤ '9' then some (c.toNat - '0'.toNat)
  else if 'a' ≤ c ∧ c ≤ 'f' then some (c.toNat - 'a'.toNat + 10)
  else if 'A' ≤ c ∧ c ≤ 'F' then some (c.toNat - 'A'.toNat + 10)
  else none

/-- `u8::from_str_radix(_, 16)` on two characters, which admits a leading plus sign. -/
def hexByte (a b : Char) : Option UInt8 :=
  if a = '+' then (hexDigit b).map UInt8.ofNat
  else do return UInt8.ofNat (16 * (← hexDigit a) + (← hexDigit b))

/-- Decided by the text: the equations of `percentRun` ask for it, and the instance for all
predicates of characters would try every character. -/
instance decidablePercentPair (cs : List Char) : Decidable (∀ a : Char, cs = ['%', a] → False) :=
  match cs with
  | [p, a] =>
    if h : p = '%' then .isFalse fun hall => hall a (h ▸ rfl)
    else .isTrue fun _ heq => h (List.cons.inj heq).1
  | [] => .isTrue nofun
  | [_] => .isTrue nofun
  | _ :: _ :: _ :: _ => .isTrue nofun

/-- What the inner loop of `percent_decode` does after a first byte of at least 128: it consumes
escapes until the bytes form valid UTF-8 or an escape is malformed. Returns the bytes left over,
the characters produced and the rest of the input. -/
def percentRun (bytes : List UInt8) : List Char → List UInt8 × List Char × List Char
  | '%' :: a :: b :: rest =>
    if byteLen [a, b] = 2 then
      match hexByte a b with
      | some byte =>
        match decodeUtf8 (bytes ++ [byte]) with
        | some cs => ([], cs, rest)
        | none => percentRun (bytes ++ [byte]) rest
      | none => (bytes, ['%', a, b], rest)
    -- Two characters that are not two bytes are consumed and forgotten.
    else percentRun bytes rest
  -- Fewer than two characters are left to read; a single one may still be two bytes.
  | ['%', a] => if byteLen [a] = 2 then (bytes, ['%', a], []) else (bytes, [], [])
  | ['%'] => (bytes, [], [])
  | cs => (bytes, [], cs)

/-- `percent_decode`, with one unit of fuel for every character. -/
def percentDecodeFrom : ℕ → List Char → List Char
  | 0, _ => []
  | _ + 1, [] => []
  | n + 1, '%' :: rest =>
    match rest with
    | a :: b :: rest₁ =>
      if byteLen [a, b] = 2 then
        match hexByte a b with
        | some byte =>
          if byte < 128 then Char.ofNat byte.toNat :: percentDecodeFrom n rest₁
          else
            let (left, cs, rest₂) := percentRun [byte] rest₁
            cs ++ (if left.isEmpty then [] else [replacement]) ++ percentDecodeFrom n rest₂
        | none => '%' :: a :: b :: percentDecodeFrom n rest₁
      else '%' :: a :: b :: percentDecodeFrom n rest₁
    -- Fewer than two characters left: one multi-byte character would be two bytes, but is no
    -- hexadecimal number either.
    | short => '%' :: short
  | n + 1, c :: rest => c :: percentDecodeFrom n rest

/-- Every turn takes a character, so that there are turns enough. -/
def percentDecode (cs : List Char) : List Char := percentDecodeFrom cs.length cs

/-- The path of a URI on this machine. -/
def parseFileUri (uri : List Char) : Option (List Char) :=
  (Text.stripPrefix "file://".toList uri).map percentDecode

/-- The existing paths named by the file URIs of a clipboard payload. -/
def parseFileUris (exists_ : String → Bool) (data : List UInt8) : List String :=
  (Text.lines (decodeUtf8Lossy data)).filterMap fun line =>
    let line := Text.trim line
    if line = [] ∨ line = "copy".toList ∨ line = "cut".toList then none
    else ((parseFileUri line).map String.ofList).filter exists_

/-! ### Text -/

/-- A return without a line feed stays. -/
def convertLineEndingsToUnix : List Char → List Char
  | '\r' :: '\n' :: rest => '\n' :: convertLineEndingsToUnix rest
  | c :: rest => c :: convertLineEndingsToUnix rest
  | [] => []

/-- Line breaks that are Windows ones already stay so. -/
def convertLineEndingsToWindows (cs : List Char) : List Char :=
  (convertLineEndingsToUnix cs).flatMap fun c => if c = '\n' then ['\r', '\n'] else [c]

/-- Text ends at a zero there, so that none may be in it. -/
def sanitizeTextForWindows (cs : List Char) : List Char :=
  (convertLineEndingsToWindows cs).filter (· ≠ '\x00')

/-- The same the other way. -/
def sanitizeTextForLinux (cs : List Char) : List Char :=
  (convertLineEndingsToUnix cs).filter (· ≠ '\x00')

end Clipboard

end Cheirizo
