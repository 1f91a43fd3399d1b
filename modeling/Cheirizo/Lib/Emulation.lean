import Cheirizo.Lib.AnnexB

/-!
# Emulation prevention

A payload of a unit in a byte stream must not look like a start code. Where two zeros are followed
by a byte up to three, a three is put between them and the byte, and a reader takes it out again.

## Main definitions

* `escape`, `unescape` — putting the threes in and taking them out
* `Escaped` — no byte below three stands behind two zeros

## Main results

* `unescape_escape` — the reader gets back what was written
* `escaped_escape`, `Escaped.forbids` — no start code, and nothing like one, is left
* `getLast?_escape` — the last byte stays
-/

namespace Cheirizo

namespace AnnexB

/-- How many zeros there are behind a byte. -/
def zerosAfter (zeros : ℕ) (byte : UInt8) : ℕ :=
  if byte = 0 then zeros + 1 else 0

theorem zerosAfter_of_ne {byte : UInt8} (h : byte ≠ 0) (zeros : ℕ) : zerosAfter zeros byte = 0 :=
  if_neg h

/-- The payload with threes put in, behind a number of zeros. -/
def escapeFrom : ℕ → List UInt8 → List UInt8
  | _, [] => []
  | zeros, byte :: bytes =>
    if 2 ≤ zeros ∧ byte ≤ 3 then 3 :: byte :: escapeFrom (zerosAfter 0 byte) bytes
    else byte :: escapeFrom (zerosAfter zeros byte) bytes

/-- The payload with the threes taken out that stand behind two zeros. -/
def unescapeFrom : ℕ → List UInt8 → List UInt8
  | _, [] => []
  | zeros, byte :: bytes =>
    if 2 ≤ zeros ∧ byte = 3 then unescapeFrom 0 bytes
    else byte :: unescapeFrom (zerosAfter zeros byte) bytes

/-- The bytes with a three wherever two zeros would be followed by a small one. -/
def escape (bytes : List UInt8) : List UInt8 :=
  escapeFrom 0 bytes

/-- The bytes without such threes. -/
def unescape (bytes : List UInt8) : List UInt8 :=
  unescapeFrom 0 bytes

theorem unescapeFrom_escapeFrom (zeros : ℕ) (bytes : List UInt8) :
    unescapeFrom zeros (escapeFrom zeros bytes) = bytes := by
  induction bytes generalizing zeros with
  | nil => rfl
  | cons byte bytes ih =>
    rw [escapeFrom]
    split
    · rename_i hesc
      rw [unescapeFrom, if_pos ⟨hesc.1, rfl⟩, unescapeFrom, if_neg (by omega), ih]
    · rename_i hesc
      have hplain : ¬ (2 ≤ zeros ∧ byte = 3) := fun h => hesc ⟨h.1, h.2 ▸ UInt8.le_refl 3⟩
      rw [unescapeFrom, if_neg hplain, ih]

theorem unescape_escape (bytes : List UInt8) : unescape (escape bytes) = bytes :=
  unescapeFrom_escapeFrom 0 bytes

/-! ### What is left -/

/-- Behind two zeros stands no byte below three. -/
def EscapedFrom : ℕ → List UInt8 → Prop
  | _, [] => True
  | zeros, byte :: bytes => (2 ≤ zeros → 3 ≤ byte) ∧ EscapedFrom (zerosAfter zeros byte) bytes

/-- No start code, and nothing that could be taken for a part of one. -/
def Escaped (bytes : List UInt8) : Prop :=
  EscapedFrom 0 bytes

theorem escapedFrom_escapeFrom (zeros : ℕ) (bytes : List UInt8) :
    EscapedFrom zeros (escapeFrom zeros bytes) := by
  induction bytes generalizing zeros with
  | nil => trivial
  | cons byte bytes ih =>
    rw [escapeFrom]
    split
    · refine ⟨fun _ => UInt8.le_refl 3, ?_⟩
      rw [zerosAfter_of_ne (by decide)]
      exact ⟨fun htwo => absurd htwo (by decide), ih _⟩
    · rename_i hesc
      refine ⟨fun htwo => ?_, ih _⟩
      exact UInt8.le_of_lt (UInt8.not_le.mp fun hle => hesc ⟨htwo, hle⟩)

theorem escaped_escape (bytes : List UInt8) : Escaped (escape bytes) :=
  escapedFrom_escapeFrom 0 bytes

/-- A byte that is not zero may stand in front. -/
theorem Escaped.cons {byte : UInt8} {bytes : List UInt8} (hbyte : byte ≠ 0) (h : Escaped bytes) :
    Escaped (byte :: bytes) := by
  refine ⟨fun htwo => absurd htwo (by decide), ?_⟩
  rw [zerosAfter_of_ne hbyte]
  exact h

theorem EscapedFrom.drop {zeros : ℕ} {front rest : List UInt8}
    (h : EscapedFrom zeros (front ++ rest)) : ∃ n, EscapedFrom n rest := by
  induction front generalizing zeros with
  | nil => exact ⟨zeros, h⟩
  | cons byte front ih => exact ih h.2

theorem Escaped.forbids {bytes : List UInt8} (h : Escaped bytes) {byte : UInt8}
    (hbyte : byte < 3) : ¬ [0, 0, byte] <:+: bytes := by
  rintro ⟨front, rest, rfl⟩
  rw [List.append_assoc] at h
  obtain ⟨n, -, -, hthree, -⟩ := EscapedFrom.drop h
  refine UInt8.not_le.mpr hbyte (hthree ?_)
  show 2 ≤ n + 1 + 1
  omega

theorem getLast?_escapeFrom (zeros : ℕ) (bytes : List UInt8) :
    (escapeFrom zeros bytes).getLast? = bytes.getLast? := by
  induction bytes generalizing zeros with
  | nil => rfl
  | cons byte bytes ih =>
    rw [escapeFrom]
    split
    · rw [List.getLast?_cons_cons, List.getLast?_cons, ih, List.getLast?_cons]
    · rw [List.getLast?_cons, ih, List.getLast?_cons]

theorem getLast?_escape (bytes : List UInt8) : (escape bytes).getLast? = bytes.getLast? :=
  getLast?_escapeFrom 0 bytes

/-- What is written behind a start code is a unit: the escaped bytes with a byte in front that is
not zero. -/
def escapedUnit (header : UInt8) (bytes : List UInt8) (hheader : header ≠ 0)
    (hlast : bytes.getLast? ≠ some 0) : NalUnit where
  longCode := true
  payload := header :: escape bytes
  payload_ne_nil := List.cons_ne_nil _ _
  clean := ((escaped_escape bytes).cons hheader).forbids (by decide)
  last := by
    rw [List.getLast?_cons, getLast?_escape]
    cases h : bytes.getLast? with
    | none => exact fun h => hheader (Option.some_inj.mp h)
    | some byte => exact h ▸ hlast

end AnnexB

end Cheirizo
