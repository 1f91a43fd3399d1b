import Mathlib.Algebra.Group.Nat.Defs
import Mathlib.Control.Monad.Basic
import Mathlib.Data.Int.Notation
import Mathlib.Data.Nat.Size

/-!
# Codes over bits

Numbers as strings of bits, the most significant one first: with a fixed width, or with the code
of variable length that puts one zero in front for each binary digit after the first. A reader
takes a value off the front of a string and leaves the rest.

Strings end somewhere inside a byte. A one is put behind the last bit and then zeros up to the end
of the byte, so the end can be found again and the last byte is never a zero.

## Main definitions

* `fixed`, `golomb` — the two codes
* `Reader`, `readFixed`, `readGolomb`, `readSigned` — reading them
* `bytesBits` — the bits of bytes
* `Trailing` — what may be put behind the last bit

## Main results

* `readFixed_fixed`, `readGolomb_golomb`, `readSigned_golomb` — what was written is read back
* `getLast?_ne_zero_of_trailing` — the last byte is not a zero
-/

namespace Cheirizo

namespace Bits

/-! ### Fixed width -/

/-- The lowest bits of a number, from the highest of them down. -/
def fixed : ℕ → ℕ → List Bool
  | 0, _ => []
  | n + 1, value => value.testBit n :: fixed n value

@[simp] theorem length_fixed (n value : ℕ) : (fixed n value).length = n := by
  induction n with
  | zero => rfl
  | succ n ih => rw [fixed, List.length_cons, ih]

/-- Only the lowest bits count. -/
theorem fixed_mod {n m : ℕ} (h : n ≤ m) (value : ℕ) : fixed n (value % 2 ^ m) = fixed n value := by
  induction n with
  | zero => rfl
  | succ n ih =>
    have hbit : (value % 2 ^ m).testBit n = value.testBit n := by
      rw [Nat.testBit_mod_two_pow, decide_eq_true (by omega : n < m), Bool.true_and]
    rw [fixed, fixed, hbit, ih (by omega)]

/-- A bit shifted in from below stands at the end. -/
theorem fixed_shift (n value : ℕ) (b : Bool) :
    fixed (n + 1) (2 * value + b.toNat) = fixed n value ++ [b] := by
  induction n with
  | zero =>
    have hbit : (2 * value + b.toNat).testBit 0 = b := by
      rw [Nat.testBit_zero]
      cases b
      · simp
      · simp
    show [(2 * value + b.toNat).testBit 0] = [b]
    rw [hbit]
  | succ n ih =>
    have hbit : (2 * value + b.toNat).testBit (n + 1) = value.testBit n := by
      rw [Nat.testBit_succ, Nat.mul_add_div Nat.two_pos, Nat.div_eq_of_lt b.toNat_lt,
        Nat.add_zero]
    rw [fixed, hbit, ih]
    rfl

/-- The number with these bits. -/
def value : List Bool → ℕ
  | [] => 0
  | b :: bits => b.toNat * 2 ^ bits.length + value bits

theorem value_fixed (n v : ℕ) : value (fixed n v) = v % 2 ^ n := by
  induction n with
  | zero => rw [fixed, value, Nat.pow_zero, Nat.mod_one]
  | succ n ih =>
    rw [fixed, value, ih, length_fixed, Nat.testBit_eq_decide_div_mod_eq, Nat.mod_pow_succ,
      Nat.add_comm, Nat.mul_comm]
    congr 2
    obtain h | h := Nat.mod_two_eq_zero_or_one (v / 2 ^ n)
    · rw [h]
      rfl
    · rw [h]
      rfl

/-! ### Readers -/

/-- A reader takes a value off the front of a string of bits, if it finds one there. -/
abbrev Reader (α : Type) := StateT (List Bool) Option α

/-- A reader that has found its value goes on with the rest. -/
theorem bind_of_eq {α β : Type} {r : Reader α} {f : α → Reader β} {bits rest : List Bool} {a : α}
    (h : r bits = some (a, rest)) : (r >>= f) bits = f a rest := by
  show (r bits >>= fun p => f p.1 p.2) = f a rest
  rw [h]
  rfl

/-- One bit. -/
def readBit : Reader Bool
  | [] => none
  | b :: rest => some (b, rest)

/-- A number of a fixed width. -/
def readFixed (n : ℕ) : Reader ℕ := fun bits =>
  if n ≤ bits.length then some (value (bits.take n), bits.drop n) else none

theorem readFixed_fixed {n v : ℕ} (hv : v < 2 ^ n) (rest : List Bool) :
    readFixed n (fixed n v ++ rest) = some (v, rest) := by
  have hroom : n ≤ (fixed n v ++ rest).length := by
    rw [List.length_append, length_fixed]
    exact Nat.le_add_right n _
  have htake : (fixed n v ++ rest).take n = fixed n v := List.take_left' (length_fixed n v)
  have hdrop : (fixed n v ++ rest).drop n = rest := List.drop_left' (length_fixed n v)
  rw [readFixed, if_pos hroom, htake, hdrop, value_fixed, Nat.mod_eq_of_lt hv]

/-! ### Variable length -/

/-- A code number from one on: its binary digits behind one zero for each of them but the first. A
value is written as the code number one above it. -/
def golomb (code : ℕ) : List Bool :=
  List.replicate (code.size - 1) false ++ fixed code.size code

/-- The zeros up to the first one, which is taken too. -/
def countZeros : Reader ℕ
  | [] => none
  | true :: rest => some (0, rest)
  | false :: rest => (countZeros rest).map fun p => (p.1 + 1, p.2)

theorem countZeros_replicate (n : ℕ) (rest : List Bool) :
    countZeros (List.replicate n false ++ true :: rest) = some (n, rest) := by
  induction n with
  | zero => rfl
  | succ n ih =>
    rw [List.replicate_succ, List.cons_append, countZeros, ih]
    rfl

/-- As many digits as there were zeros stand behind the first one. -/
def readGolomb : Reader ℕ := do
  let zeros ← countZeros
  let digits ← readFixed zeros
  pure (2 ^ zeros - 1 + digits)

theorem readGolomb_golomb {code : ℕ} (h : 0 < code) (rest : List Bool) :
    readGolomb (golomb code ++ rest) = some (code - 1, rest) := by
  obtain ⟨n, hn⟩ : ∃ n, code.size = n + 1 := Nat.exists_eq_add_one.mpr (Nat.size_pos.mpr h)
  have hlow : 2 ^ n ≤ code := Nat.lt_size.mp (by omega)
  have hhigh : code < 2 ^ (n + 1) := hn ▸ Nat.lt_size_self code
  have hfirst : code.testBit n = true := by
    have hone : code / 2 ^ n = 1 := by
      refine Nat.div_eq_of_lt_le ?_ ?_
      · rw [Nat.one_mul]
        exact hlow
      · rw [Nat.mul_comm, ← Nat.pow_succ]
        exact hhigh
    rw [Nat.testBit_eq_decide_div_mod_eq, hone]
    rfl
  have hcode : golomb code ++ rest =
      List.replicate n false ++ true :: (fixed n (code % 2 ^ n) ++ rest) := by
    rw [golomb, hn, Nat.add_sub_cancel, fixed, hfirst, fixed_mod (Nat.le_refl n), List.append_assoc]
    rfl
  have hdigits : readFixed n (fixed n (code % 2 ^ n) ++ rest) = some (code % 2 ^ n, rest) :=
    readFixed_fixed (Nat.mod_lt _ (Nat.two_pow_pos n)) rest
  have hmod : code % 2 ^ n = code - 2 ^ n := by
    rw [Nat.mod_eq_sub_mod hlow, Nat.mod_eq_of_lt (by omega)]
  rw [readGolomb, hcode, bind_of_eq (countZeros_replicate n _), bind_of_eq hdigits, hmod]
  show some (2 ^ n - 1 + (code - 2 ^ n), rest) = some (code - 1, rest)
  have hpos := Nat.two_pow_pos n
  congr 2
  omega

/-- Values of either sign are numbered by turns, the positive ones first. -/
def signedCode (v : ℤ) : ℕ :=
  if v ≤ 0 then 2 * v.natAbs else 2 * v.natAbs - 1

/-- Even codes are for numbers that are not positive. -/
def signedValue (code : ℕ) : ℤ :=
  if code % 2 = 0 then -(code / 2 : ℕ) else ((code + 1) / 2 : ℕ)

theorem signedValue_signedCode (v : ℤ) : signedValue (signedCode v) = v := by
  rw [signedCode]
  split
  · rw [signedValue, if_pos (Nat.mul_mod_right 2 _)]
    omega
  · rw [signedValue, if_neg (by omega)]
    omega

/-- A signed number in a variable number of bits. -/
def readSigned : Reader ℤ := do
  let code ← readGolomb
  pure (signedValue code)

theorem readSigned_golomb (v : ℤ) (rest : List Bool) :
    readSigned (golomb (signedCode v + 1) ++ rest) = some (v, rest) := by
  rw [readSigned, bind_of_eq (readGolomb_golomb (Nat.add_one_pos _) rest), Nat.add_sub_cancel,
    signedValue_signedCode]
  rfl

/-! ### Bytes -/

/-- The bits of bytes, each from its highest down. -/
def bytesBits (bytes : List UInt8) : List Bool :=
  bytes.flatMap fun byte => fixed 8 byte.toNat

@[simp] theorem bytesBits_nil : bytesBits [] = [] := rfl

theorem bytesBits_append (bytes more : List UInt8) :
    bytesBits (bytes ++ more) = bytesBits bytes ++ bytesBits more :=
  List.flatMap_append

theorem bytesBits_singleton (byte : UInt8) : bytesBits [byte] = fixed 8 byte.toNat :=
  List.flatMap_singleton ..

/-- What stands behind the last bit of a string: a one, and less than a byte of zeros. -/
def Trailing (bits : List Bool) : Prop :=
  ∃ k < 8, bits = true :: List.replicate k false

/-- Whether there is more than the trailing bits. -/
def moreData (bits : List Bool) : Bool :=
  match bits with
  | [] => false
  | b :: rest => !b || rest.contains true

theorem moreData_of_trailing {bits : List Bool} (h : Trailing bits) : moreData bits = false := by
  obtain ⟨k, -, rfl⟩ := h
  rw [moreData, Bool.not_true, Bool.false_or, List.contains_eq_mem, decide_eq_false_iff_not]
  exact fun hin => absurd (List.eq_of_mem_replicate hin) (by decide)

/-- In front of trailing bits there is more. -/
theorem moreData_append {bits rest : List Bool} (hbits : bits ≠ []) (h : Trailing rest) :
    moreData (bits ++ rest) = true := by
  obtain ⟨k, -, rfl⟩ := h
  obtain ⟨b, bits, rfl⟩ := List.exists_cons_of_ne_nil hbits
  have hin : true ∈ bits ++ true :: List.replicate k false :=
    List.mem_append_right _ List.mem_cons_self
  rw [List.cons_append, moreData, List.contains_eq_mem, decide_eq_true hin, Bool.or_true]

/-- The one of the trailing bits is in the last byte. -/
theorem getLast?_ne_zero_of_trailing {bytes : List UInt8} {bits rest : List Bool}
    (h : bytesBits bytes = bits ++ rest) (hrest : Trailing rest) : bytes.getLast? ≠ some 0 := by
  obtain ⟨k, hk, rfl⟩ := hrest
  intro hlast
  obtain ⟨front, rfl⟩ := List.getLast?_eq_some_iff.mp hlast
  have hzeros : bytesBits (front ++ [0]) = bytesBits front ++ List.replicate 8 false := by
    rw [bytesBits_append, bytesBits_singleton]
    rfl
  have hends : List.replicate 8 false ++ (bytesBits front).reverse =
      List.replicate k false ++ (true :: bits.reverse) := by
    have hrev := congrArg List.reverse (hzeros.symm.trans h)
    simpa using hrev
  have hone : (List.replicate 8 false ++ (bytesBits front).reverse)[k]? =
      (List.replicate k false ++ (true :: bits.reverse))[k]? := by
    rw [hends]
  rw [List.getElem?_append_left (by simpa using hk), List.getElem?_append_right (by simp),
    List.getElem?_replicate, if_pos hk] at hone
  simp at hone

end Bits

end Cheirizo
