import Mathlib.Data.List.Infix

/-!
# Annex-B byte streams

A sequence of units, each behind a start code of three or four bytes. A reader has only the bytes
and finds the units again by looking for start codes. It finds just those that were written: none
begins inside a unit, and none is completed by the bytes of the next one.

Scanners differ in where they look and how far they step. What they share is that they stand in
front of a *quiet* piece of the stream, one in which no start code begins, with whole units behind.

## Main definitions

* `NalUnit` — a unit that a stream can hold, with the length of its start code
* `NalUnit.stream` — the units one after the other
* `Quiet` — no start code begins in these bytes, whatever follows

## Main results

* `Quiet.not_startsUnit` — in front of a quiet byte there is no start code
* `NalUnit.quiet_payload`, `NalUnit.quiet_drop` — payloads are quiet, and so is what is left in
  front of one by a scanner that steps over less than the start code
-/

namespace Cheirizo

namespace AnnexB

/-! ### Start codes -/

/-- The bytes begin with a start code. -/
def StartsUnit (data : List UInt8) : Prop :=
  [0, 0, 1] <+: data ∨ [0, 0, 0, 1] <+: data
  deriving Decidable

/-- No start code lies in these bytes, and none begins in them that ends in others. -/
structure Quiet (bytes : List UInt8) : Prop where
  clean : ¬ [0, 0, 1] <:+: bytes
  last : bytes.getLast? ≠ some 0

/-- What is left of quiet bytes is quiet. -/
theorem Quiet.tail {byte : UInt8} {bytes : List UInt8} (h : Quiet (byte :: bytes)) :
    Quiet bytes := by
  refine ⟨fun hin => h.clean (hin.trans (List.suffix_cons byte bytes).isInfix), fun hlast => ?_⟩
  refine h.last ?_
  rw [List.getLast?_cons, hlast]
  rfl

/-- A byte that is not zero may stand in front. -/
theorem Quiet.cons {byte : UInt8} {bytes : List UInt8} (hbyte : byte ≠ 0) (h : Quiet bytes) :
    Quiet (byte :: bytes) := by
  refine ⟨fun hin => ?_, fun hlast => ?_⟩
  · obtain hprefix | hin := List.infix_cons_iff.mp hin
    · exact hbyte (List.cons_prefix_cons.mp hprefix).1.symm
    · exact h.clean hin
  · rw [List.getLast?_cons] at hlast
    cases hbytes : bytes.getLast? with
    | none =>
      rw [hbytes] at hlast
      exact hbyte (Option.some_inj.mp hlast)
    | some x =>
      rw [hbytes] at hlast
      exact h.last (hbytes.trans hlast)

/-- The shorter start code begins in quiet bytes only if there are none: it neither lies in them nor
ends behind them, as then their last byte is a zero. -/
theorem Quiet.not_prefix {bytes rest : List UInt8} (h : Quiet bytes) (hne : bytes ≠ []) :
    ¬ [0, 0, 1] <+: bytes ++ rest := by
  intro hcode
  obtain hcode | hshort :=
    List.prefix_or_prefix_of_prefix hcode (List.prefix_append bytes rest)
  · exact h.clean hcode.isInfix
  · have hinits : bytes ∈ [[], [0], [0, 0], [0, 0, 1]] :=
      (List.mem_inits bytes [0, 0, 1]).mpr hshort
    simp only [List.mem_cons, List.not_mem_nil, or_false] at hinits
    obtain rfl | rfl | rfl | rfl := hinits
    · exact hne rfl
    · exact h.last rfl
    · exact h.last rfl
    · exact h.clean (List.infix_refl _)

theorem quiet_nil : Quiet [] :=
  ⟨fun h => absurd (List.infix_nil.mp h) (List.cons_ne_nil _ _), (Option.some_ne_none 0).symm⟩

/-- In front of a quiet byte there is no start code. -/
theorem Quiet.not_startsUnit {byte : UInt8} {bytes rest : List UInt8}
    (h : Quiet (byte :: bytes)) : ¬ StartsUnit (byte :: bytes ++ rest) := by
  rintro (hcode | hcode)
  · exact h.not_prefix (List.cons_ne_nil _ _) hcode
  · rw [List.cons_append, List.cons_prefix_cons] at hcode
    obtain ⟨rfl, hcode⟩ := hcode
    refine h.tail.not_prefix ?_ hcode
    rintro rfl
    exact h.last rfl

end AnnexB

/-! ### Units -/

open AnnexB

/-- A unit as a stream can hold it, and whether its start code has four bytes. -/
structure NalUnit where
  longCode : Bool
  payload : List UInt8
  payload_ne_nil : payload ≠ []
  clean : ¬ [0, 0, 1] <:+: payload
  last : payload.getLast? ≠ some 0

namespace NalUnit

/-- A start code of three bytes, or of four. -/
def startCode (u : NalUnit) : List UInt8 :=
  if u.longCode then [0, 0, 0, 1] else [0, 0, 1]

/-- The unit in a stream. -/
def bytes (u : NalUnit) : List UInt8 :=
  u.startCode ++ u.payload

/-- The type, in the lower bits of the first byte. -/
def kind (u : NalUnit) : UInt8 :=
  u.payload.head u.payload_ne_nil &&& 0x1F

/-- The units one after the other, each behind its start code. -/
def stream (units : List NalUnit) : List UInt8 :=
  units.flatMap bytes

@[simp] theorem stream_nil : stream [] = [] := rfl

@[simp] theorem stream_cons (u : NalUnit) (units : List NalUnit) :
    stream (u :: units) = u.startCode ++ (u.payload ++ stream units) := by
  rw [stream, List.flatMap_cons, bytes, List.append_assoc]
  rfl

theorem stream_singleton (u : NalUnit) : stream [u] = u.bytes :=
  List.flatMap_singleton ..

theorem stream_append (units more : List NalUnit) :
    stream (units ++ more) = stream units ++ stream more :=
  List.flatMap_append

theorem bytes_ne_nil (u : NalUnit) : u.bytes ≠ [] := by
  rw [bytes]
  exact List.append_ne_nil_of_right_ne_nil _ u.payload_ne_nil

theorem stream_eq_nil {units : List NalUnit} : stream units = [] ↔ units = [] := by
  refine ⟨fun h => ?_, fun h => h ▸ rfl⟩
  cases units with
  | nil => rfl
  | cons u units => exact absurd (List.flatMap_eq_nil_iff.mp h u List.mem_cons_self) u.bytes_ne_nil

theorem quiet_payload (u : NalUnit) : Quiet u.payload :=
  ⟨u.clean, u.last⟩

theorem startsUnit_append (u : NalUnit) (rest : List UInt8) : StartsUnit (u.startCode ++ rest) := by
  rw [startCode]
  split
  · exact Or.inr (List.prefix_append _ _)
  · exact Or.inl (List.prefix_append _ _)

theorem three_le_length (u : NalUnit) : 3 ≤ u.startCode.length := by
  rw [startCode]
  split
  · exact Nat.le_succ 3
  · exact Nat.le_refl 3

/-- A step of three leaves the last byte of a longer start code in front of the payload. -/
theorem quiet_drop (u : NalUnit) : Quiet (u.startCode.drop 3 ++ u.payload) := by
  rw [startCode]
  split
  · exact u.quiet_payload.cons (by decide)
  · exact u.quiet_payload

end NalUnit

end Cheirizo
